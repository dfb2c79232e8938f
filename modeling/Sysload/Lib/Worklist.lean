import Mathlib.Data.List.Nodup
import Sysload.Lib.Comp

/-!
# Walking a work list that grows

A work list is walked from its beginning. Each entry marks the items that it `hits` and that have no
mark yet, and `more` entries come behind the list for each item that is marked.

Results:
* `Inv`, `inv_visit`: what one entry keeps.
* `walk_ends`: the walk ends, as every item is marked once.
* **`walk_closed`**: at the end an item is marked if an entry of the list hits it, and the list has
  the entries of every marked item.
-/

namespace Worklist

open Comp

variable {κ ι : Type}

/-- The items with their marks, the work list, how far it has been walked, and the marked items in
the order in which they were marked. -/
structure Walk (κ ι : Type) where
  items : List (ι × Bool)
  work : List κ
  pos : Nat
  out : List ι

/-- Nothing is marked yet. -/
def Walk.start (items : List ι) (roots : List κ) : Walk κ ι :=
  ⟨items.map fun a => (a, false), roots, 0, []⟩

variable (hits : κ → ι → Bool) (more : ι → List κ)

/-- The items without a mark that an entry hits. -/
def fresh (k : κ) (items : List (ι × Bool)) : List ι :=
  (items.filter fun p => !p.2 && hits k p.1).map Prod.fst

/-- The items with the marks of an entry. -/
def mark (k : κ) (items : List (ι × Bool)) : List (ι × Bool) :=
  items.map fun p => (p.1, p.2 || hits k p.1)

/-- One entry. -/
def Walk.visit (w : Walk κ ι) (k : κ) : Walk κ ι where
  items := mark hits k w.items
  work := w.work ++ (fresh hits k w.items).flatMap more
  pos := w.pos + 1
  out := w.out ++ fresh hits k w.items

/-- The next entry, if there is one. -/
def Walk.pass (w : Walk κ ι) : Pass (Walk κ ι) (Walk κ ι) :=
  match w.work[w.pos]? with
  | some k => .next (w.visit hits more k)
  | none => .done w

/-- The whole work list. -/
def walk (w : Walk κ ι) : Comp (Walk κ ι) := Comp.loop (fun w => pure (w.pass hits more)) w

/-! ## The invariant -/

/-- What holds of a walk over `items` from `roots`. -/
structure Inv (items : List ι) (roots : List κ) (w : Walk κ ι) : Prop where
  items : w.items.map Prod.fst = items
  nodup : w.out.Nodup
  out : ∀ a, a ∈ w.out ↔ (a, true) ∈ w.items
  roots : ∀ k ∈ roots, k ∈ w.work
  more : ∀ a ∈ w.out, ∀ k ∈ more a, k ∈ w.work
  past : ∀ k ∈ w.work.take w.pos, ∀ p ∈ w.items, hits k p.1 = true → p.2 = true
  pos : w.pos ≤ w.work.length

variable {hits more} {items : List ι} {roots : List κ} {w : Walk κ ι}

theorem inv_start : Inv hits more items roots (Walk.start items roots) where
  items := by
    rw [Walk.start, List.map_map]
    exact List.map_id _
  nodup := List.nodup_nil
  out a := by simp [Walk.start]
  roots _ hk := hk
  more a ha := absurd ha List.not_mem_nil
  past k hk := by simp [Walk.start] at hk
  pos := Nat.zero_le _

theorem mem_fresh {k : κ} {items : List (ι × Bool)} {a : ι} :
    a ∈ fresh hits k items ↔ (a, false) ∈ items ∧ hits k a = true := by
  simp only [fresh, List.mem_map, List.mem_filter, Bool.and_eq_true, Bool.not_eq_true',
    Prod.exists, exists_and_right, exists_eq_right]
  constructor
  · rintro ⟨b, hmem, rfl, hhit⟩
    exact ⟨hmem, hhit⟩
  · rintro ⟨hmem, hhit⟩
    exact ⟨false, hmem, rfl, hhit⟩

theorem mem_mark {k : κ} {items : List (ι × Bool)} {p : ι × Bool} :
    p ∈ mark hits k items ↔ ∃ b, (p.1, b) ∈ items ∧ p.2 = (b || hits k p.1) := by
  obtain ⟨a, c⟩ := p
  simp only [mark, List.mem_map, Prod.mk.injEq, Prod.exists]
  constructor
  · rintro ⟨a', b, hmem, rfl, rfl⟩
    exact ⟨b, hmem, rfl⟩
  · rintro ⟨b, hmem, rfl⟩
    exact ⟨a, b, hmem, rfl, rfl⟩

theorem Inv.mem_items (h : Inv hits more items roots w) {a : ι} (ha : a ∈ w.out) : a ∈ items := by
  have hmem := List.mem_map_of_mem (f := Prod.fst) ((h.out a).mp ha)
  rwa [h.items] at hmem

/-- An item has one mark. -/
theorem Inv.mark_unique (h : Inv hits more items roots w) (hnodup : items.Nodup) {a : ι}
    {b c : Bool} (hb : (a, b) ∈ w.items) (hc : (a, c) ∈ w.items) : b = c := by
  rw [← h.items] at hnodup
  exact congrArg Prod.snd (List.inj_on_of_nodup_map hnodup hb hc rfl)

/-- **One entry** keeps the invariant. -/
theorem inv_visit (h : Inv hits more items roots w) (hnodup : items.Nodup) {k : κ}
    (hk : w.work[w.pos]? = some k) : Inv hits more items roots (w.visit hits more k) where
  items := by
    rw [← h.items, Walk.visit, mark, List.map_map]
    rfl
  nodup := by
    have hmap : (w.items.map Prod.fst).Nodup := h.items ▸ hnodup
    have hfresh : (fresh hits k w.items).Nodup :=
      hmap.sublist ((List.filter_sublist).map Prod.fst)
    refine h.nodup.append hfresh fun a hout hnew => ?_
    have heq := h.mark_unique hnodup ((h.out a).mp hout) (mem_fresh.mp hnew).1
    cases heq
  out a := by
    rw [Walk.visit, List.mem_append, mem_fresh, mem_mark, h.out]
    constructor
    · rintro (hmem | ⟨hmem, hhit⟩)
      · exact ⟨true, hmem, rfl⟩
      · exact ⟨false, hmem, hhit.symm⟩
    · rintro ⟨b, hmem, heq⟩
      cases b with
      | true => exact .inl hmem
      | false => exact .inr ⟨hmem, heq.symm⟩
  roots k hk := List.mem_append_left _ (h.roots k hk)
  more a ha k' hk' := by
    rcases List.mem_append.mp ha with hout | hnew
    · exact List.mem_append_left _ (h.more a hout k' hk')
    · exact List.mem_append_right _ (List.mem_flatMap.mpr ⟨a, hnew, hk'⟩)
  past k' hk' p hp hhit := by
    obtain ⟨hlt, hget⟩ := List.getElem?_eq_some_iff.mp hk
    have htake : (w.visit hits more k).work.take (w.pos + 1) = w.work.take w.pos ++ [k] := by
      rw [Walk.visit, List.take_append_of_le_length hlt, List.take_add_one, hk, Option.toList_some]
    rw [show (w.visit hits more k).pos = w.pos + 1 from rfl, htake] at hk'
    obtain ⟨b, hb, heq⟩ := mem_mark.mp hp
    rcases List.mem_append.mp hk' with hpast | hnow
    · have hmark := h.past k' hpast _ hb hhit
      rw [heq, show b = true from hmark, Bool.true_or]
    · obtain rfl := List.mem_singleton.mp hnow
      rw [heq, hhit, Bool.or_true]
  pos := by
    obtain ⟨hlt, -⟩ := List.getElem?_eq_some_iff.mp hk
    show w.pos + 1 ≤ (w.work ++ _).length
    rw [List.length_append]
    omega

/-! ## The end of the walk -/

/-- The number of items without a mark. -/
def Walk.unmarked (w : Walk κ ι) : Nat := w.items.countP fun p => !p.2

theorem unmarked_visit (w : Walk κ ι) (k : κ) :
    (w.visit hits more k).unmarked + (fresh hits k w.items).length = w.unmarked := by
  unfold Walk.unmarked Walk.visit fresh mark
  dsimp only
  induction w.items with
  | nil => rfl
  | cons p items ih =>
    obtain ⟨a, b⟩ := p
    simp only [List.map_cons, List.countP_cons, List.filter_cons] at ih ⊢
    cases b <;> cases hits k a <;> simp at ih ⊢ <;> omega

/-- **The walk ends.** -/
theorem walk_ends (w : Walk κ ι) (h : w.pos ≤ w.work.length) : (walk hits more w).Ends := by
  have hwf : WellFounded (InvImage (Prod.Lex (· < ·) (· < ·)) fun w : Walk κ ι =>
      (w.unmarked, w.work.length - w.pos)) :=
    InvImage.wf _ (Prod.lex Nat.lt_wfRel Nat.lt_wfRel).wf
  refine Comp.loop_ends_of_wf hwf (fun w => w.pos ≤ w.work.length) (fun w hw => ?_) h
  refine ⟨w.pass hits more, Comp.returns_pure.mpr rfl, fun w' hnext => ?_⟩
  unfold Walk.pass at hnext
  cases hk : w.work[w.pos]? with
  | none =>
    rw [hk] at hnext
    cases hnext
  | some k =>
    rw [hk] at hnext
    obtain rfl := Pass.next.inj hnext
    obtain ⟨hlt, -⟩ := List.getElem?_eq_some_iff.mp hk
    have hunmarked := @unmarked_visit κ ι hits more w k
    have hlen : (w.visit hits more k).work.length =
        w.work.length + ((fresh hits k w.items).flatMap more).length := List.length_append
    have hpos : (w.visit hits more k).pos = w.pos + 1 := rfl
    refine ⟨by omega, ?_⟩
    -- either an item gets its mark, or nothing comes behind the list
    cases hfresh : fresh hits k w.items with
    | nil =>
      rw [hfresh] at hunmarked hlen
      have heq : (w.visit hits more k).unmarked = w.unmarked := hunmarked
      show Prod.Lex _ _ (_, _) (_, _)
      rw [heq]
      refine .right _ ?_
      rw [hlen, hpos]
      simp only [List.flatMap_nil, List.length_nil]
      omega
    | cons a as =>
      refine .left _ _ ?_
      rw [hfresh, List.length_cons] at hunmarked
      omega

/-- **Where the walk comes to.** -/
theorem walk_closed (hnodup : items.Nodup) :
    ∃ w, (walk hits more (Walk.start items roots)).Returns w ∧ Inv hits more items roots w ∧
      ∀ k ∈ w.work, ∀ a ∈ items, hits k a = true → a ∈ w.out := by
  obtain ⟨w, hw⟩ : (walk hits more (Walk.start items roots)).Ends := walk_ends _ (Nat.zero_le _)
  obtain ⟨w', hinv, hdone⟩ := Comp.loop_inv (Inv hits more items roots) (fun w w' h hpass => by
    have hnext := Comp.returns_pure.mp hpass
    unfold Walk.pass at hnext
    cases hk : w.work[w.pos]? with
    | none =>
      rw [hk] at hnext
      cases hnext
    | some k =>
      rw [hk] at hnext
      obtain rfl := Pass.next.inj hnext
      exact inv_visit h hnodup hk) inv_start hw
  have hend := Comp.returns_pure.mp hdone
  unfold Walk.pass at hend
  cases hk : w'.work[w'.pos]? with
  | some k =>
    rw [hk] at hend
    cases hend
  | none =>
    rw [hk] at hend
    obtain rfl := Pass.done.inj hend
    refine ⟨w', hw, hinv, fun k hmem a ha hhit => ?_⟩
    rw [← hinv.items] at ha
    obtain ⟨⟨a', b⟩, hp, rfl⟩ := List.mem_map.mp ha
    have htake : w'.work.take w'.pos = w'.work :=
      List.take_of_length_le (List.getElem?_eq_none_iff.mp hk)
    have hb : b = true := hinv.past k (htake.symm ▸ hmem) _ hp hhit
    exact (hinv.out a').mpr (hb ▸ hp)

end Worklist
