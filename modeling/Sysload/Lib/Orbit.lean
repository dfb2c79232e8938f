import Mathlib.Data.Set.Finite.Basic
import Mathlib.Data.Fintype.Pigeonhole
import Mathlib.Data.Set.Finite.Range

/-!
# Following a partial function

`orbit next a n` is the value reached from `a` after `n` applications of the partial function
`next`, or `none` once `next` was undefined on the way. `Stops next a` says that this happens.

`stops_iff_nodup`: when only finitely many values can be reached, following `next` stops exactly
when none of them comes twice.
-/

namespace Orbit

variable {α : Type}

/-- The value after `n` applications of `next` to `a`. -/
def orbit (next : α → Option α) (a : α) : Nat → Option α
  | 0 => some a
  | n + 1 => (orbit next a n).bind next

/-- Following `next` from `a` comes to an end. -/
def Stops (next : α → Option α) (a : α) : Prop := ∃ n, orbit next a n = none

variable {next : α → Option α} {a b : α}

theorem orbit_succ' (n : Nat) : orbit next a (n + 1) = (next a).bind fun b => orbit next b n := by
  induction n with
  | zero => simp [orbit]
  | succ n ih =>
    rw [orbit, ih]
    cases next a <;> rfl

theorem orbit_add {m : Nat} (h : orbit next a m = some b) (n : Nat) :
    orbit next a (m + n) = orbit next b n := by
  induction n with
  | zero => exact h
  | succ n ih => rw [← Nat.add_assoc, orbit, ih, orbit]

theorem orbit_none_mono {m n : Nat} (h : orbit next a m = none) (hmn : m ≤ n) :
    orbit next a n = none := by
  induction n with
  | zero => rwa [Nat.le_zero.mp hmn] at h
  | succ n ih =>
    rcases Nat.lt_or_ge m (n + 1) with hlt | hge
    · rw [orbit, ih (Nat.lt_succ_iff.mp hlt)]
      rfl
    · rwa [Nat.le_antisymm hmn hge] at h

/-- What holds at the start and is kept by `next` holds of every value that is reached. -/
theorem orbit_inv (I : α → Prop) (ha : I a) (hI : ∀ b c, I b → next b = some c → I c) :
    ∀ {n : Nat} {b : α}, orbit next a n = some b → I b
  | 0, _, h => Option.some.inj h ▸ ha
  | _ + 1, _, h => by
    obtain ⟨b, hb, hnext⟩ := Option.bind_eq_some_iff.mp h
    exact hI b _ (orbit_inv I ha hI hb) hnext

/-- A value that comes again comes again and again. -/
theorem orbit_period {m p : Nat} (hm : orbit next a m = some b)
    (hp : orbit next a (m + p) = some b) : ∀ k, orbit next a (m + p * k) = some b
  | 0 => hm
  | k + 1 => by
    rw [Nat.mul_succ, Nat.add_comm (p * k) p, ← Nat.add_assoc, orbit_add hp, ← orbit_add hm]
    exact orbit_period hm hp k

/-- **Following a partial function among finitely many values stops exactly when no value comes
twice.** -/
theorem stops_iff_nodup (hfin : {b | ∃ n, orbit next a n = some b}.Finite) :
    Stops next a ↔ ∀ i j b, i < j → orbit next a i = some b → orbit next a j ≠ some b := by
  constructor
  · rintro ⟨n, hn⟩ i j b hij hi hj
    obtain ⟨p, rfl⟩ : ∃ p, j = i + p := ⟨j - i, by omega⟩
    have hb := orbit_period hi hj n
    have hle : n ≤ i + p * n := by
      have : 1 * n ≤ p * n := Nat.mul_le_mul_right n (by omega)
      omega
    rw [orbit_none_mono hn hle] at hb
    exact absurd hb (by simp)
  · intro h
    by_contra hns
    have hsome : ∀ n, ∃ b, orbit next a n = some b := fun n =>
      Option.ne_none_iff_exists'.mp fun hn => hns ⟨n, hn⟩
    choose v hv using hsome
    have := hfin.to_subtype
    obtain ⟨i, j, hne, heq⟩ := Finite.exists_ne_map_eq_of_infinite
      fun n : Nat => (⟨v n, n, hv n⟩ : {b | ∃ n, orbit next a n = some b})
    have heq : v i = v j := congrArg Subtype.val heq
    rcases Nat.lt_or_gt_of_ne hne with hlt | hlt
    · exact h i j _ hlt (hv i) (heq ▸ hv j)
    · exact h j i _ hlt (hv j) (heq ▸ hv i)

end Orbit
