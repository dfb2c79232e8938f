import Mathlib.Data.List.Forall2

/-!
# Extended regular expressions

Expressions over atoms, with repetitions between bounds and numbered groups. `parses` is a matcher
that goes back to the next choice; it prefers the longer repetition. `Matches e n w spans` says that
`e` matches the word `w`, which begins `n` characters behind the origin, with the spans of its
groups.

Results:
* `mem_parses`: the matcher finds the matches.
* `regexec_isSome_iff`: an anchored search succeeds if and only if the text matches.
* **`regexec_eq_some_iff`**: where a text matches in one way only, the search reports this one.
* `matches_seq_iff` and the others read a match off an expression.
-/

/-- An extended regular expression. The group `i` is the `i`-th opening parenthesis. -/
inductive Ere (κ : Type) where
  | empty
  | one (atom : κ)
  | seq (a b : Ere κ)
  | rep (a : Ere κ) (least most : Nat)
  | group (i : Nat) (a : Ere κ)

namespace Ere

/-- The offsets of a group: where it begins and where it ends. -/
structure Span where
  so : Nat
  eo : Nat
  deriving DecidableEq, Repr

variable {κ α : Type}

/-- One expression after the other. -/
def seqs (es : List (Ere κ)) : Ere κ := es.foldr seq empty

/-- One atom after the other. -/
def atoms (ks : List κ) : Ere κ := seqs (ks.map one)

/-- The text of an expression, given that of its atoms. -/
def source (print : κ → List Char) : Ere κ → List Char
  | .empty => []
  | .one k => print k
  | .seq a b => source print a ++ source print b
  | .rep a 0 1 => source print a ++ ['?']
  | .rep a least most =>
    source print a ++ ['\x7b'] ++ (toString least).toList ++
      (if least = most then [] else ',' :: (toString most).toList) ++ ['\x7d']
  | .group _ a => ['('] ++ source print a ++ [')']

/-! ## Matching -/

/-- What a matcher has read, what is left, and the spans of the groups. -/
structure Parse (α : Type) where
  word : List α
  rest : List α
  spans : List (Nat × Span)

/-- Between `least` and `most` matches of the same matcher. -/
def repeats (parse : Nat → List α → List (Parse α)) :
    (least most : Nat) → Nat → List α → List (Parse α)
  | 0, 0, _, l => [⟨[], l, []⟩]
  | _ + 1, 0, _, _ => []
  | least, most + 1, n, l =>
    ((parse n l).flatMap fun x =>
      (repeats parse (least - 1) most (n + x.word.length) x.rest).map fun y =>
        ⟨x.word ++ y.word, y.rest, x.spans ++ y.spans⟩) ++
      if least = 0 then [⟨[], l, []⟩] else []

variable (mem : κ → α → Bool)

/-- The parses of the text `l`, which begins at the offset `n`. -/
def parses : Ere κ → Nat → List α → List (Parse α)
  | .empty, _, l => [⟨[], l, []⟩]
  | .one _, _, [] => []
  | .one k, _, c :: l => if mem k c then [⟨[c], l, []⟩] else []
  | .seq a b, n, l =>
    (parses a n l).flatMap fun x =>
      (parses b (n + x.word.length) x.rest).map fun y =>
        ⟨x.word ++ y.word, y.rest, x.spans ++ y.spans⟩
  | .rep a least most, n, l => repeats (fun n l => parses a n l) least most n l
  | .group i a, n, l =>
    (parses a n l).map fun x => ⟨x.word, x.rest, (i, ⟨n, n + x.word.length⟩) :: x.spans⟩

/-- The search for an expression between `^` and `$`: the spans of the first match. -/
def regexec (e : Ere κ) (l : List α) : Option (List (Nat × Span)) :=
  ((parses mem e 0 l).find? fun x => x.rest.isEmpty).map Parse.spans

/-- `rm_so` of a group: the offset of its last match, or `-1`. -/
def rmSo (spans : List (Nat × Span)) (i : Nat) : Int :=
  match spans.reverse.lookup i with
  | some span => span.so
  | none => -1

/-- An expression matches the word `w`, which begins at the offset `n`. -/
inductive Matches : Ere κ → Nat → List α → List (Nat × Span) → Prop
  | empty (n : Nat) : Matches .empty n [] []
  | one {k : κ} {c : α} (n : Nat) : mem k c = true → Matches (.one k) n [c] []
  | seq {a b : Ere κ} {n : Nat} {v w : List α} {s t : List (Nat × Span)} :
      Matches a n v s → Matches b (n + v.length) w t → Matches (.seq a b) n (v ++ w) (s ++ t)
  | done {a : Ere κ} (most n : Nat) : Matches (.rep a 0 most) n [] []
  | again {a : Ere κ} {least most n : Nat} {v w : List α} {s t : List (Nat × Span)} :
      Matches a n v s → Matches (.rep a (least - 1) most) (n + v.length) w t →
        Matches (.rep a least (most + 1)) n (v ++ w) (s ++ t)
  | group {a : Ere κ} {i n : Nat} {w : List α} {s : List (Nat × Span)} :
      Matches a n w s → Matches (.group i a) n w ((i, ⟨n, n + w.length⟩) :: s)

variable {mem}

/-! ## Reading a match off an expression -/

section Inversion

variable {a b : Ere κ} {k : κ} {i n : Nat} {w : List α} {s : List (Nat × Span)}

theorem matches_empty_iff : Matches mem .empty n w s ↔ w = [] ∧ s = [] := by
  constructor
  · intro h
    cases h
    exact ⟨rfl, rfl⟩
  · rintro ⟨rfl, rfl⟩
    exact .empty n

theorem matches_one_iff : Matches mem (.one k) n w s ↔ ∃ c, mem k c = true ∧ w = [c] ∧ s = [] := by
  constructor
  · intro h
    cases h with
    | one _ hc => exact ⟨_, hc, rfl, rfl⟩
  · rintro ⟨c, hc, rfl, rfl⟩
    exact .one n hc

theorem matches_seq_iff : Matches mem (.seq a b) n w s ↔
    ∃ v v' t t', Matches mem a n v t ∧ Matches mem b (n + v.length) v' t' ∧
      w = v ++ v' ∧ s = t ++ t' := by
  constructor
  · intro h
    cases h with
    | seq ha hb => exact ⟨_, _, _, _, ha, hb, rfl, rfl⟩
  · rintro ⟨v, v', t, t', ha, hb, rfl, rfl⟩
    exact .seq ha hb

theorem matches_group_iff : Matches mem (.group i a) n w s ↔
    ∃ t, Matches mem a n w t ∧ s = (i, ⟨n, n + w.length⟩) :: t := by
  constructor
  · intro h
    cases h with
    | group ha => exact ⟨_, ha, rfl⟩
  · rintro ⟨t, ha, rfl⟩
    exact .group ha

theorem matches_rep_zero_iff {least : Nat} :
    Matches mem (.rep a least 0) n w s ↔ least = 0 ∧ w = [] ∧ s = [] := by
  constructor
  · intro h
    cases h
    exact ⟨rfl, rfl, rfl⟩
  · rintro ⟨rfl, rfl, rfl⟩
    exact .done 0 n

theorem matches_rep_succ_iff {least most : Nat} : Matches mem (.rep a least (most + 1)) n w s ↔
    (∃ v v' t t', Matches mem a n v t ∧ Matches mem (.rep a (least - 1) most) (n + v.length) v' t' ∧
      w = v ++ v' ∧ s = t ++ t') ∨ least = 0 ∧ w = [] ∧ s = [] := by
  constructor
  · intro h
    cases h with
    | done => exact .inr ⟨rfl, rfl, rfl⟩
    | again ha hr => exact .inl ⟨_, _, _, _, ha, hr, rfl, rfl⟩
  · rintro (⟨v, v', t, t', ha, hr, rfl, rfl⟩ | ⟨rfl, rfl, rfl⟩)
    · exact .again ha hr
    · exact .done _ n

/-- An expression that may be left out. -/
theorem matches_opt_iff :
    Matches mem (.rep a 0 1) n w s ↔ Matches mem a n w s ∨ w = [] ∧ s = [] := by
  rw [matches_rep_succ_iff]
  constructor
  · rintro (⟨v, v', t, t', ha, hr, rfl, rfl⟩ | ⟨-, rfl, rfl⟩)
    · obtain ⟨-, rfl, rfl⟩ := matches_rep_zero_iff.mp hr
      rw [List.append_nil, List.append_nil]
      exact .inl ha
    · exact .inr ⟨rfl, rfl⟩
  · rintro (ha | ⟨rfl, rfl⟩)
    · exact .inl ⟨w, [], s, [], ha, .done 0 _, (List.append_nil w).symm, (List.append_nil s).symm⟩
    · exact .inr ⟨rfl, rfl, rfl⟩

/-- An atom that is repeated. -/
theorem matches_rep_one_iff {least most : Nat} : Matches mem (.rep (.one k) least most) n w s ↔
    least ≤ w.length ∧ w.length ≤ most ∧ (∀ c ∈ w, mem k c = true) ∧ s = [] := by
  induction most generalizing least n w s with
  | zero =>
    rw [matches_rep_zero_iff]
    constructor
    · rintro ⟨rfl, rfl, rfl⟩
      simp
    · rintro ⟨hleast, hmost, -, rfl⟩
      obtain rfl := List.length_eq_zero_iff.mp (Nat.le_zero.mp hmost)
      exact ⟨Nat.le_zero.mp hleast, rfl, rfl⟩
  | succ most ih =>
    rw [matches_rep_succ_iff]
    constructor
    · rintro (⟨v, v', t, t', ha, hr, rfl, rfl⟩ | ⟨rfl, rfl, rfl⟩)
      · obtain ⟨c, hc, rfl, rfl⟩ := matches_one_iff.mp ha
        obtain ⟨hleast, hmost, hall, rfl⟩ := ih.mp hr
        refine ⟨?_, ?_, List.forall_mem_cons.mpr ⟨hc, hall⟩, rfl⟩
        · simp only [List.singleton_append, List.length_cons]
          omega
        · simpa using hmost
      · simp
    · rintro ⟨hleast, hmost, hall, rfl⟩
      cases w with
      | nil => exact .inr ⟨Nat.le_zero.mp hleast, rfl, rfl⟩
      | cons c w =>
        obtain ⟨hc, hall⟩ := List.forall_mem_cons.mp hall
        simp only [List.length_cons] at hleast hmost
        exact .inl ⟨[c], w, [], [], .one n hc, ih.mpr ⟨by omega, by omega, hall, rfl⟩, rfl, rfl⟩

theorem matches_seqs_nil_iff : Matches mem (seqs []) n w s ↔ w = [] ∧ s = [] := matches_empty_iff

theorem matches_seqs_cons_iff {es : List (Ere κ)} : Matches mem (seqs (a :: es)) n w s ↔
    ∃ v v' t t', Matches mem a n v t ∧ Matches mem (seqs es) (n + v.length) v' t' ∧
      w = v ++ v' ∧ s = t ++ t' := matches_seq_iff

theorem matches_atoms_iff {ks : List κ} : Matches mem (atoms ks) n w s ↔
    List.Forall₂ (fun k c => mem k c = true) ks w ∧ s = [] := by
  induction ks generalizing n w s with
  | nil => rw [List.forall₂_nil_left_iff]; exact matches_empty_iff
  | cons k ks ih =>
    rw [List.forall₂_cons_left_iff]
    constructor
    · intro h
      obtain ⟨v, v', t, t', ha, hr, rfl, rfl⟩ := matches_seqs_cons_iff.mp h
      obtain ⟨c, hc, rfl, rfl⟩ := matches_one_iff.mp ha
      obtain ⟨hks, rfl⟩ := ih.mp hr
      exact ⟨⟨c, v', hc, hks, rfl⟩, rfl⟩
    · rintro ⟨⟨c, w, hc, hks, rfl⟩, rfl⟩
      exact matches_seqs_cons_iff.mpr ⟨[c], w, [], [], .one n hc, ih.mpr ⟨hks, rfl⟩, rfl, rfl⟩

end Inversion

/-! ## The matcher finds the matches -/

/-- What the parses of an expression should be. -/
def Finds (parse : Nat → List α → List (Parse α)) (e : Ere κ) (mem : κ → α → Bool) : Prop :=
  ∀ n l x, x ∈ parse n l ↔ l = x.word ++ x.rest ∧ Matches mem e n x.word x.spans

/-- The parse that reads nothing. -/
theorem mem_emptyParse {l : List α} {x : Parse α} :
    x ∈ [(⟨[], l, []⟩ : Parse α)] ↔ l = x.word ++ x.rest ∧ x.word = [] ∧ x.spans = [] := by
  rw [List.mem_singleton]
  constructor
  · rintro rfl
    exact ⟨rfl, rfl, rfl⟩
  · cases x with
    | mk word rest spans =>
      rintro ⟨rfl, rfl, rfl⟩
      rfl

/-- Two matchers after each other. -/
theorem mem_flatMap_parse {parse parse' : Nat → List α → List (Parse α)} {a b : Ere κ}
    (ha : Finds parse a mem) (hb : Finds parse' b mem) (n : Nat) (l : List α) (z : Parse α) :
    z ∈ ((parse n l).flatMap fun x =>
        (parse' (n + x.word.length) x.rest).map fun y =>
          ⟨x.word ++ y.word, y.rest, x.spans ++ y.spans⟩) ↔
      l = z.word ++ z.rest ∧ ∃ v v' t t', Matches mem a n v t ∧ Matches mem b (n + v.length) v' t' ∧
        z.word = v ++ v' ∧ z.spans = t ++ t' := by
  simp only [List.mem_flatMap, List.mem_map]
  constructor
  · rintro ⟨x, hx, y, hy, rfl⟩
    obtain ⟨hl, hmx⟩ := (ha n l x).mp hx
    obtain ⟨hrest, hmy⟩ := (hb _ _ y).mp hy
    refine ⟨?_, x.word, y.word, x.spans, y.spans, hmx, hmy, rfl, rfl⟩
    rw [hl, hrest, List.append_assoc]
  · rintro ⟨hl, v, v', t, t', hmx, hmy, hword, hspans⟩
    have hx : ⟨v, v' ++ z.rest, t⟩ ∈ parse n l := by
      rw [ha]
      exact ⟨by rw [hl, hword, List.append_assoc], hmx⟩
    have hy : ⟨v', z.rest, t'⟩ ∈ parse' (n + v.length) (v' ++ z.rest) := by
      rw [hb]
      exact ⟨rfl, hmy⟩
    refine ⟨_, hx, _, hy, ?_⟩
    rw [← hword, ← hspans]

theorem mem_repeats {parse : Nat → List α → List (Parse α)} {a : Ere κ} (ha : Finds parse a mem)
    (least most : Nat) : Finds (repeats parse least most) (.rep a least most) mem := by
  intro n l z
  induction most generalizing least n l z with
  | zero =>
    rw [matches_rep_zero_iff]
    cases least with
    | zero => rw [repeats, mem_emptyParse, and_iff_right rfl]
    | succ least => simp [repeats]
  | succ most ih =>
    rw [matches_rep_succ_iff, repeats, List.mem_append, mem_flatMap_parse ha (ih (least - 1)),
      and_or_left]
    refine or_congr Iff.rfl ?_
    by_cases h : least = 0
    · rw [if_pos h, mem_emptyParse, and_iff_right h]
    · simp [h]

/-- **The matcher finds the matches.** -/
theorem mem_parses (e : Ere κ) : Finds (parses mem e) e mem := by
  induction e with
  | empty =>
    intro n l x
    rw [matches_empty_iff, parses, mem_emptyParse]
  | one k =>
    intro n l x
    rw [matches_one_iff]
    cases x with
    | mk word rest spans =>
      cases l with
      | nil =>
        simp only [parses, List.not_mem_nil, false_iff]
        rintro ⟨hl, c, -, rfl, -⟩
        exact List.cons_ne_nil _ _ hl.symm
      | cons c l =>
        simp only [parses, List.mem_ite_nil_right, List.mem_singleton, Parse.mk.injEq]
        constructor
        · rintro ⟨hc, rfl, rfl, rfl⟩
          exact ⟨rfl, c, hc, rfl, rfl⟩
        · rintro ⟨hl, d, hd, rfl, rfl⟩
          obtain ⟨rfl, rfl⟩ := List.cons_eq_cons.mp hl
          exact ⟨hd, rfl, rfl, rfl⟩
  | seq a b iha ihb =>
    intro n l x
    rw [parses, mem_flatMap_parse iha ihb, matches_seq_iff]
  | rep a least most iha => exact mem_repeats iha least most
  | group i a iha =>
    intro n l x
    rw [parses, matches_group_iff, List.mem_map]
    constructor
    · rintro ⟨y, hy, rfl⟩
      obtain ⟨hl, hm⟩ := (iha n l y).mp hy
      exact ⟨hl, y.spans, hm, rfl⟩
    · rintro ⟨hl, t, hm, hspans⟩
      refine ⟨⟨x.word, x.rest, t⟩, (iha n l _).mpr ⟨hl, hm⟩, ?_⟩
      rw [← hspans]

/-! ## The anchored search -/

variable {e : Ere κ} {l : List α}

/-- The search reports a match. -/
theorem matches_of_regexec {spans : List (Nat × Span)} (h : regexec mem e l = some spans) :
    Matches mem e 0 l spans := by
  obtain ⟨x, hx, rfl⟩ := Option.map_eq_some_iff.mp h
  obtain ⟨hl, hm⟩ := (mem_parses e 0 l x).mp (List.mem_of_find?_eq_some hx)
  have hrest : x.rest = [] := by simpa using List.find?_some hx
  rw [hrest, List.append_nil] at hl
  rw [hl]
  exact hm

theorem regexec_isSome_iff : (regexec mem e l).isSome ↔ ∃ spans, Matches mem e 0 l spans := by
  constructor
  · intro h
    obtain ⟨spans, hspans⟩ := Option.isSome_iff_exists.mp h
    exact ⟨spans, matches_of_regexec hspans⟩
  · rintro ⟨spans, hm⟩
    rw [regexec, Option.isSome_map, List.find?_isSome]
    exact ⟨⟨l, [], spans⟩, (mem_parses e 0 l _).mpr ⟨(List.append_nil l).symm, hm⟩, rfl⟩

/-- **Where a text matches in one way only, the search reports this one.** -/
theorem regexec_eq_some_iff {spans : List (Nat × Span)}
    (hunique : ∀ t t', Matches mem e 0 l t → Matches mem e 0 l t' → t = t') :
    regexec mem e l = some spans ↔ Matches mem e 0 l spans := by
  constructor
  · exact matches_of_regexec
  · intro hm
    obtain ⟨t, ht⟩ := Option.isSome_iff_exists.mp (regexec_isSome_iff.mpr ⟨spans, hm⟩)
    rw [ht, hunique t spans (matches_of_regexec ht) hm]

end Ere
