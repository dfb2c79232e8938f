import Mathlib.Algebra.BigOperators.Group.List.Basic
import Mathlib.Data.List.Lex

/-!
# Numbers in mixed radix

A numeral is a list of digits, the most significant one first; each has a base of its own.

Results:
* `value_lt`: the number is less than the product of the bases.
* **`value_lt_iff`**: numbers are in the order of their numerals, digit by digit.
* `value_injective`: two numerals of one number are the same.
* `exists_value`: every number below the product has a numeral.
-/

namespace Radix

/-- Each digit is less than its base. -/
def Digits (bases ds : List Nat) : Prop := List.Forall₂ (fun d base => d < base) ds bases

/-- The number that a numeral denotes. -/
def value : (bases ds : List Nat) → Nat
  | _ :: bases, d :: ds => d * bases.prod + value bases ds
  | _, _ => 0

@[simp] theorem value_nil (bases : List Nat) : value bases [] = 0 := by
  cases bases <;> rfl

@[simp] theorem value_cons (base : Nat) (bases : List Nat) (d : Nat) (ds : List Nat) :
    value (base :: bases) (d :: ds) = d * bases.prod + value bases ds := rfl

theorem value_lt {bases ds : List Nat} (h : Digits bases ds) : value bases ds < bases.prod := by
  induction h with
  | nil => exact Nat.one_pos
  | @cons d base ds bases hd _ ih =>
    rw [value_cons, List.prod_cons]
    calc d * bases.prod + value bases ds < d * bases.prod + bases.prod := Nat.add_lt_add_left ih _
      _ = (d + 1) * bases.prod := (Nat.succ_mul _ _).symm
      _ ≤ base * bases.prod := Nat.mul_le_mul_right _ hd

/-- Two numbers with a remainder each are compared by the quotient first. -/
theorem mul_add_lt_iff {n x x' y y' : Nat} (hy : y < n) (hy' : y' < n) :
    x * n + y < x' * n + y' ↔ x < x' ∨ x = x' ∧ y < y' := by
  have hstep : ∀ {a a' b b' : Nat}, b < n → a < a' → a * n + b < a' * n + b' := by
    intro a a' b b' hb ha
    calc a * n + b < a * n + n := Nat.add_lt_add_left hb _
      _ = (a + 1) * n := (Nat.succ_mul _ _).symm
      _ ≤ a' * n := Nat.mul_le_mul_right _ ha
      _ ≤ a' * n + b' := Nat.le_add_right _ _
  rcases Nat.lt_trichotomy x x' with h | rfl | h
  · exact iff_of_true (hstep hy h) (.inl h)
  · simp
  · refine iff_of_false (Nat.not_lt.mpr (Nat.le_of_lt (hstep hy' h))) ?_
    rintro (hlt | ⟨rfl, -⟩)
    · exact Nat.lt_asymm h hlt
    · exact Nat.lt_irrefl _ h

/-- **Numbers are in the order of their numerals.** -/
theorem value_lt_iff {bases ds ds' : List Nat} (h : Digits bases ds) (h' : Digits bases ds') :
    value bases ds < value bases ds' ↔ ds < ds' := by
  induction h generalizing ds' with
  | nil =>
    cases h' with
    | nil => simp
  | cons hd hds ih =>
    cases h' with
    | cons hd' hds' =>
      rw [value_cons, value_cons, mul_add_lt_iff (value_lt hds) (value_lt hds'), ih hds',
        List.cons_lt_cons_iff]

theorem value_injective {bases ds ds' : List Nat} (h : Digits bases ds) (h' : Digits bases ds')
    (heq : value bases ds = value bases ds') : ds = ds' := by
  rcases lt_trichotomy ds ds' with hlt | rfl | hlt
  · exact absurd heq (Nat.ne_of_lt ((value_lt_iff h h').mpr hlt))
  · rfl
  · exact absurd heq.symm (Nat.ne_of_lt ((value_lt_iff h' h).mpr hlt))

theorem exists_value {bases : List Nat} {n : Nat} (h : n < bases.prod) :
    ∃ ds, Digits bases ds ∧ value bases ds = n := by
  induction bases generalizing n with
  | nil => exact ⟨[], .nil, (Nat.lt_one_iff.mp h).symm⟩
  | cons base bases ih =>
    rw [List.prod_cons] at h
    have hpos : 0 < bases.prod := Nat.pos_of_mul_pos_left (Nat.zero_lt_of_lt h)
    obtain ⟨ds, hds, hvalue⟩ := ih (Nat.mod_lt n hpos)
    refine ⟨n / bases.prod :: ds, .cons (Nat.div_lt_of_lt_mul (Nat.mul_comm _ _ ▸ h)) hds, ?_⟩
    rw [value_cons, hvalue, Nat.mul_comm]
    exact Nat.div_add_mod n bases.prod

end Radix
