import Mathlib.Logic.Function.Basic

/-!
# Candidates and slots

Candidates come one after the other. Each is put into the slot of its kind (`place`), where it takes
the place of the one before it. `votes` says how good a candidate is for a kind.

Results:
* `placeAll_eq`: a slot has the last candidate of its kind.
* **`best_iff`**: it has a best one if and only if a best one is among the candidates of its kind,
  and those behind it are as good.
-/

namespace Slots

variable {α τ : Type} [DecidableEq τ] (kind : α → τ)

/-- Put a candidate into the slot of its kind. -/
def place (slots : τ → Option α) (a : α) : τ → Option α := Function.update slots (kind a) (some a)

/-- Put one candidate after the other. -/
def placeAll (slots : τ → Option α) (as : List α) : τ → Option α := as.foldl (place kind) slots

/-- The candidates of a kind. -/
def ofKind (as : List α) (t : τ) : List α := as.filter fun a => kind a = t

variable {kind} in
theorem mem_ofKind {as : List α} {t : τ} {a : α} : a ∈ ofKind kind as t ↔ a ∈ as ∧ kind a = t := by
  rw [ofKind, List.mem_filter, decide_eq_true_iff]

variable {kind} in
theorem ofKind_cons {a : α} {t : τ} (h : kind a = t) (as : List α) :
    ofKind kind (a :: as) t = a :: ofKind kind as t :=
  List.filter_cons_of_pos (by simpa using h)

variable {kind} in
theorem ofKind_cons_of_ne {a : α} {t : τ} (h : kind a ≠ t) (as : List α) :
    ofKind kind (a :: as) t = ofKind kind as t :=
  List.filter_cons_of_neg (by simpa using h)

/-- **A slot has the last candidate of its kind.** -/
theorem placeAll_eq (slots : τ → Option α) (as : List α) (t : τ) :
    placeAll kind slots as t = (ofKind kind as t).getLast?.or (slots t) := by
  induction as generalizing slots with
  | nil => rfl
  | cons a as ih =>
    show placeAll kind (place kind slots a) as t = _
    rw [ih]
    by_cases h : kind a = t
    · subst h
      rw [ofKind_cons rfl, place, Function.update_self, List.getLast?_cons]
      cases (ofKind kind as (kind a)).getLast? with
      | none => rfl
      | some b => rfl
    · rw [ofKind_cons_of_ne h, place, Function.update_of_ne (Ne.symm h)]

variable (votes : α → τ → Nat) (as : List α) (t : τ)

/-- No candidate is better. -/
def IsBest (a : α) : Prop := ∀ b ∈ as, votes b t ≤ votes a t

/-- No candidate is of the kind, or a best one is, and those of the kind behind it are as good. -/
def KeepsBest : Prop :=
  (∀ a ∈ as, kind a ≠ t) ∨ ∃ before a behind, as = before ++ a :: behind ∧ kind a = t ∧
    IsBest votes as t a ∧ ∀ b ∈ behind, kind b = t → votes b t = votes a t

/-- **When a slot has a best candidate.** -/
theorem best_iff :
    (∀ a, placeAll kind (fun _ => none) as t = some a → IsBest votes as t a) ↔
      KeepsBest kind votes as t := by
  rw [placeAll_eq, Option.or_none]
  constructor
  · intro h
    cases hlast : (ofKind kind as t).getLast? with
    | none =>
      refine Or.inl fun a ha hkind => ?_
      have hmem := mem_ofKind.mpr ⟨ha, hkind⟩
      rw [List.getLast?_eq_none_iff.mp hlast] at hmem
      exact List.not_mem_nil hmem
    | some c =>
      -- the last of the kind is best, so those behind it are of other kinds
      obtain ⟨init, hinit⟩ := List.getLast?_eq_some_iff.mp hlast
      obtain ⟨before, rest, rfl, _, hrest⟩ := List.filter_eq_append_iff.mp hinit
      obtain ⟨skipped, behind, rfl, _, hkind, hbehind⟩ := List.filter_eq_cons_iff.mp hrest
      refine Or.inr ⟨before ++ skipped, c, behind, by rw [List.append_assoc],
        of_decide_eq_true hkind, h c hlast, fun b hb hkindb => ?_⟩
      have hmem : b ∈ ofKind kind behind t := mem_ofKind.mpr ⟨hb, hkindb⟩
      rw [ofKind, hbehind] at hmem
      exact absurd hmem List.not_mem_nil
  · rintro (hnone | ⟨before, c, behind, rfl, hkind, hbest, hequal⟩) a ha
    · obtain ⟨hmem, hkind⟩ := mem_ofKind.mp (List.mem_of_getLast? ha)
      exact absurd hkind (hnone a hmem)
    · have hlast : (ofKind kind (before ++ c :: behind) t).getLast? =
          some ((ofKind kind behind t).getLastD c) := by
        have hsplit : ofKind kind (before ++ c :: behind) t =
            ofKind kind before t ++ ofKind kind (c :: behind) t :=
          List.filter_append _ _
        rw [hsplit, ofKind_cons hkind, List.getLast?_append, List.getLast?_cons, Option.some_or,
          List.getLastD_eq_getLast?]
      have hvotes : votes a t = votes c t := by
        rw [hlast] at ha
        obtain rfl := Option.some.inj ha
        rw [List.getLastD_eq_getLast?]
        cases hbehind : (ofKind kind behind t).getLast? with
        | none => rfl
        | some b =>
          obtain ⟨hb, hkindb⟩ := mem_ofKind.mp (List.mem_of_getLast? hbehind)
          exact hequal b hb hkindb
      intro b hb
      rw [hvotes]
      exact hbest b hb

end Slots
