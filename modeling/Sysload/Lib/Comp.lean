import Mathlib.Data.Nat.Find
import Mathlib.Tactic.Common

/-!
# Computations that may run forever

A C function with an unguarded loop may never return. `Comp α` is such a computation: given an
amount of fuel it either has returned a value of `α` or has not returned yet, and more fuel never
takes a value back (`mono`, carried by the structure). `c.Returns a` says that some amount of fuel
makes `c` return `a`; `c.Ends` says that it returns something, which is its `value` then.

* `pure`, `bind` make `Comp` a lawful monad; `returns_bind` is the rule for sequencing.
* `loop body` repeats `body` from a state, each pass either going on (`Pass.next`) or leaving
  the loop (`Pass.done`). A pass is itself a `Comp`, so a loop inside a loop needs nothing new.

`Prog ε α` adds failure with an `ε`: a computation that may run forever, fail or return.

Results, for `Comp` and for `Prog`:
* `loop_returns_iff`, `gives_loop_iff`: what a loop comes to, by its first pass.
* `loop_induction`: induction over the passes of a loop that ends.
* `loop_inv`: the invariant rule (partial correctness).
* `loop_ends_of_wf`: the termination rule.
* `loop_sim`: the simulation rule for two loops.
* `not_loop_ends_of_inv`: an invariant under which no pass leaves shows that a loop never ends.
* `gives_bind` is the rule for sequencing two parts that may fail.
-/

/-- A computation that may run forever: what it has returned after `n` units of fuel. -/
structure Comp (α : Type) where
  run : Nat → Option α
  mono : ∀ n a, run n = some a → run (n + 1) = some a

namespace Comp

variable {α β γ σ ρ : Type}

/-- `c` returns `a`. -/
def Returns (c : Comp α) (a : α) : Prop := ∃ n, c.run n = some a

/-- `c` returns something. -/
def Ends (c : Comp α) : Prop := ∃ a, c.Returns a

theorem run_mono (c : Comp α) {n m : Nat} (h : n ≤ m) {a : α} (hr : c.run n = some a) :
    c.run m = some a := by
  induction m with
  | zero => rwa [Nat.le_zero.mp h] at hr
  | succ m ih =>
    rcases Nat.lt_or_ge n (m + 1) with hlt | hge
    · exact c.mono m a (ih (Nat.lt_succ_iff.mp hlt))
    · rwa [Nat.le_antisymm h hge] at hr

/-- A computation returns at most one value. -/
theorem Returns.unique {c : Comp α} {a b : α} (ha : c.Returns a) (hb : c.Returns b) : a = b := by
  obtain ⟨n, hn⟩ := ha
  obtain ⟨m, hm⟩ := hb
  have h1 := c.run_mono (Nat.le_max_left n m) hn
  have h2 := c.run_mono (Nat.le_max_right n m) hm
  rw [h1] at h2
  exact Option.some.inj h2

theorem Ends.exists_run {c : Comp α} (h : c.Ends) : ∃ n, (c.run n).isSome = true := by
  obtain ⟨a, n, hn⟩ := h
  exact ⟨n, by rw [hn]; rfl⟩

/-- The value of a computation that ends. -/
def value (c : Comp α) (h : c.Ends) : α :=
  (c.run (Nat.find h.exists_run)).get (Nat.find_spec h.exists_run)

theorem returns_value (c : Comp α) (h : c.Ends) : c.Returns (c.value h) :=
  ⟨Nat.find h.exists_run, (Option.some_get _).symm⟩

theorem value_eq_iff {c : Comp α} (h : c.Ends) {a : α} : c.value h = a ↔ c.Returns a :=
  ⟨fun heq => heq ▸ c.returns_value h, (c.returns_value h).unique⟩

@[ext] theorem ext {c d : Comp α} (h : ∀ n, c.run n = d.run n) : c = d := by
  obtain ⟨f, _⟩ := c
  obtain ⟨g, _⟩ := d
  obtain rfl : f = g := funext h
  rfl

/-! ## Sequencing -/

/-- Return at once. -/
def ret (a : α) : Comp α where
  run _ := some a
  mono _ _ h := h

/-- Run `c`, then `f` on what it returned. -/
def andThen (c : Comp α) (f : α → Comp β) : Comp β where
  run n := (c.run n).bind fun a => (f a).run n
  mono n b h := by
    obtain ⟨a, ha, hb⟩ := Option.bind_eq_some_iff.mp h
    exact Option.bind_eq_some_iff.mpr ⟨a, c.mono n a ha, (f a).mono n b hb⟩

instance : Monad Comp where
  pure := ret
  bind := andThen

@[simp] theorem run_pure (a : α) (n : Nat) : (pure a : Comp α).run n = some a := rfl

@[simp] theorem run_bind (c : Comp α) (f : α → Comp β) (n : Nat) :
    (c >>= f).run n = (c.run n).bind fun a => (f a).run n := rfl

instance : LawfulMonad Comp := LawfulMonad.mk' _
  (fun x => by
    refine Comp.ext fun n => ?_
    show (x.run n).bind (fun a => some a) = x.run n
    cases x.run n <;> rfl)
  (fun _ _ => rfl)
  (fun x f g => by
    refine Comp.ext fun n => ?_
    simp only [run_bind]
    cases x.run n <;> rfl)

@[simp] theorem returns_pure {a b : α} : (pure a : Comp α).Returns b ↔ a = b :=
  ⟨fun ⟨_, h⟩ => Option.some.inj h, fun h => ⟨0, congrArg some h⟩⟩

/-- **Sequencing**: a sequence returns what its second part returns on what the first returns. -/
theorem returns_bind {c : Comp α} {f : α → Comp β} {b : β} :
    (c >>= f).Returns b ↔ ∃ a, c.Returns a ∧ (f a).Returns b := by
  constructor
  · rintro ⟨n, h⟩
    obtain ⟨a, ha, hb⟩ := Option.bind_eq_some_iff.mp h
    exact ⟨a, ⟨n, ha⟩, ⟨n, hb⟩⟩
  · rintro ⟨a, ⟨n, ha⟩, ⟨m, hb⟩⟩
    refine ⟨max n m, Option.bind_eq_some_iff.mpr ⟨a, ?_, ?_⟩⟩
    · exact c.run_mono (Nat.le_max_left n m) ha
    · exact (f a).run_mono (Nat.le_max_right n m) hb

/-! ## Loops -/

/-- How a pass through a loop body ends: go on from a new state, or leave with a result. -/
inductive Pass (σ ρ : Type) where
  | next (s : σ)
  | done (r : ρ)

/-- At most `n` passes of `body`, each given `n` units of fuel. -/
def loopRun (body : σ → Comp (Pass σ ρ)) (n : Nat) : Nat → σ → Option ρ
  | 0, _ => none
  | k + 1, s =>
    match (body s).run n with
    | none => none
    | some (.next s') => loopRun body n k s'
    | some (.done r) => some r

theorem loopRun_mono (body : σ → Comp (Pass σ ρ)) (n : Nat) :
    ∀ (k : Nat) (s : σ) (r : ρ), loopRun body n k s = some r →
      loopRun body (n + 1) (k + 1) s = some r
  | 0, _, _, h => absurd h (by simp [loopRun])
  | k + 1, s, r, h => by
    rw [loopRun] at h ⊢
    cases hb : (body s).run n with
    | none => rw [hb] at h; exact absurd h (by simp)
    | some p =>
      rw [(body s).mono n p hb]
      rw [hb] at h
      cases p with
      | next s' => exact loopRun_mono body n k s' r h
      | done r' => exact h

/-- `while (1) body`, leaving at the first pass that is done. -/
def loop (body : σ → Comp (Pass σ ρ)) (s : σ) : Comp ρ where
  run n := loopRun body n n s
  mono n r h := loopRun_mono body n n s r h

theorem loop_run (body : σ → Comp (Pass σ ρ)) (s : σ) (n : Nat) :
    (loop body s).run n = loopRun body n n s := rfl

theorem loopRun_mono_right (body : σ → Comp (Pass σ ρ)) {n k m l : Nat} (hn : n ≤ m) (hk : k ≤ l)
    {s : σ} {r : ρ} (h : loopRun body n k s = some r) : loopRun body m l s = some r := by
  induction k generalizing l s with
  | zero => exact absurd h (by simp [loopRun])
  | succ k ih =>
    obtain ⟨l, rfl⟩ : ∃ l', l = l' + 1 := ⟨l - 1, by omega⟩
    rw [loopRun] at h ⊢
    cases hb : (body s).run n with
    | none => rw [hb] at h; exact absurd h (by simp)
    | some p =>
      rw [(body s).run_mono hn hb]
      rw [hb] at h
      cases p with
      | next s' => exact ih (by omega) h
      | done r' => exact h

/-- **What a loop returns, by its first pass.** -/
theorem loop_returns_iff {body : σ → Comp (Pass σ ρ)} {s : σ} {r : ρ} :
    (loop body s).Returns r ↔
      (body s).Returns (.done r) ∨ ∃ s', (body s).Returns (.next s') ∧ (loop body s').Returns r := by
  constructor
  · rintro ⟨n, h⟩
    cases n with
    | zero => exact absurd h (by simp [loop, loopRun])
    | succ n =>
      rw [loop_run, loopRun] at h
      cases hb : (body s).run (n + 1) with
      | none => rw [hb] at h; exact absurd h (by simp)
      | some p =>
        rw [hb] at h
        cases p with
        | next s' =>
          exact Or.inr ⟨s', ⟨_, hb⟩, n + 1,
            loopRun_mono_right body (Nat.le_refl _) (Nat.le_succ n) h⟩
        | done r' => exact Or.inl ⟨n + 1, by rw [hb]; exact congrArg _ (congrArg _ (Option.some.inj h))⟩
  · rintro (⟨n, h⟩ | ⟨s', ⟨n, h⟩, m, hm⟩)
    · refine ⟨n + 1, ?_⟩
      rw [loop_run, loopRun, (body s).mono n _ h]
    · refine ⟨max n m + 1, ?_⟩
      rw [loop_run, loopRun, (body s).run_mono (by omega) h]
      exact loopRun_mono_right body (by omega) (by omega) hm

/-- **Induction over the passes** of a loop that returns. -/
theorem loop_induction {body : σ → Comp (Pass σ ρ)} {motive : σ → ρ → Prop}
    (hdone : ∀ s r, (body s).Returns (.done r) → motive s r)
    (hnext : ∀ s s' r, (body s).Returns (.next s') → motive s' r → motive s r) {s : σ} {r : ρ}
    (h : (loop body s).Returns r) : motive s r := by
  obtain ⟨n, h⟩ := h
  suffices H : ∀ k s, loopRun body n k s = some r → motive s r from H n s h
  intro k
  induction k with
  | zero => intro s h; exact absurd h (by simp [loopRun])
  | succ k ih =>
    intro s h
    rw [loopRun] at h
    cases hb : (body s).run n with
    | none => rw [hb] at h; exact absurd h (by simp)
    | some p =>
      rw [hb] at h
      cases p with
      | next s' => exact hnext s s' r ⟨n, hb⟩ (ih s' h)
      | done r' =>
        cases Option.some.inj h
        exact hdone s r ⟨n, hb⟩

/-- **The invariant rule**: what holds at the head of the loop and is kept by every pass that
goes on holds before the pass that leaves. -/
theorem loop_inv {body : σ → Comp (Pass σ ρ)} (I : σ → Prop)
    (hI : ∀ s s', I s → (body s).Returns (.next s') → I s') {s : σ} {r : ρ} (hs : I s)
    (h : (loop body s).Returns r) : ∃ s', I s' ∧ (body s').Returns (.done r) := by
  revert hs
  refine loop_induction (motive := fun s r => I s → ∃ s', I s' ∧ (body s').Returns (.done r))
    (fun s r hr hs => ⟨s, hs, hr⟩) (fun s s' r hr ih hs => ih (hI s s' hs hr)) h

/-- **The divergence rule**: a loop never ends when, under an invariant, every pass that returns
goes on and keeps the invariant. -/
theorem not_loop_ends_of_inv {body : σ → Comp (Pass σ ρ)} (I : σ → Prop)
    (hI : ∀ s p, I s → (body s).Returns p → ∃ s', p = .next s' ∧ I s') {s : σ} (hs : I s) :
    ¬ (loop body s).Ends := by
  rintro ⟨r, hr⟩
  obtain ⟨s', hs', hd⟩ := loop_inv I (fun s s' h hn => by
    obtain ⟨t, ht, hIt⟩ := hI s _ h hn
    cases ht
    exact hIt) hs hr
  obtain ⟨t, ht, _⟩ := hI s' _ hs' hd
  exact absurd ht (by simp)

/-- **The termination rule**: a loop ends when every pass ends and each pass that goes on makes the
state smaller, under an invariant. -/
theorem loop_ends_of_wf {body : σ → Comp (Pass σ ρ)} {r : σ → σ → Prop} (hwf : WellFounded r)
    (I : σ → Prop) (hbody : ∀ s, I s → ∃ p, (body s).Returns p ∧
      ∀ s', p = .next s' → I s' ∧ r s' s) {s : σ} (hs : I s) : (loop body s).Ends := by
  induction s using hwf.induction with
  | _ s ih =>
    obtain ⟨p, hp, hnext⟩ := hbody s hs
    cases p with
    | next s' =>
      obtain ⟨hI, hr⟩ := hnext s' rfl
      obtain ⟨a, ha⟩ := ih s' hr hI
      exact ⟨a, loop_returns_iff.mpr (Or.inr ⟨s', hp, ha⟩)⟩
    | done a => exact ⟨a, loop_returns_iff.mpr (Or.inl hp)⟩

/-- Two passes end alike: both go on in related states, or both leave with related results. -/
def PassRel {τ ω : Type} (R : σ → τ → Prop) (Q : ρ → ω → Prop) : Pass σ ρ → Pass τ ω → Prop
  | .next s, .next t => R s t
  | .done a, .done b => Q a b
  | _, _ => False

/-- **The simulation rule**: a loop whose passes are answered by passes of another loop returns only
what the other one answers. -/
theorem loop_sim {τ ω : Type} {body : σ → Comp (Pass σ ρ)} {body' : τ → Comp (Pass τ ω)}
    (R : σ → τ → Prop) (Q : ρ → ω → Prop)
    (hpass : ∀ s t p, R s t → (body s).Returns p → ∃ q, (body' t).Returns q ∧ PassRel R Q p q)
    {s : σ} {t : τ} {a : ρ} (hst : R s t) (h : (loop body s).Returns a) :
    ∃ b, (loop body' t).Returns b ∧ Q a b := by
  revert t
  refine loop_induction (motive := fun s a => ∀ {t}, R s t → ∃ b, (loop body' t).Returns b ∧ Q a b)
    (fun s a ha t hst => ?_) (fun s s' a hs ih t hst => ?_) h
  · obtain ⟨q, hq, hrel⟩ := hpass s t _ hst ha
    cases q with
    | next t' => exact hrel.elim
    | done b => exact ⟨b, loop_returns_iff.mpr (Or.inl hq), hrel⟩
  · obtain ⟨q, hq, hrel⟩ := hpass s t _ hst hs
    cases q with
    | next t' =>
      obtain ⟨b, hb, hab⟩ := ih hrel
      exact ⟨b, loop_returns_iff.mpr (Or.inr ⟨t', hq, hb⟩), hab⟩
    | done b => exact hrel.elim

end Comp

/-! ## Computations that may also fail -/

/-- A computation that may run forever, fail with an `ε`, or return an `α`. -/
abbrev Prog (ε α : Type) := ExceptT ε Comp α

namespace Prog

open Comp (Pass)

variable {ε α β σ ρ : Type}

/-- `x` comes to the end `r`. -/
def Gives (x : Prog ε α) (r : Except ε α) : Prop := Comp.Returns (ExceptT.run x) r

/-- `x` comes to some end. -/
def Ends (x : Prog ε α) : Prop := ∃ r, x.Gives r

theorem Gives.unique {x : Prog ε α} {r s : Except ε α} (hr : x.Gives r) (hs : x.Gives s) : r = s :=
  Comp.Returns.unique hr hs

/-- What a computation that ends comes to. -/
def value (x : Prog ε α) (h : x.Ends) : Except ε α := Comp.value (ExceptT.run x) h

theorem value_eq_iff {x : Prog ε α} (h : x.Ends) {r : Except ε α} : x.value h = r ↔ x.Gives r :=
  Comp.value_eq_iff h

@[simp] theorem gives_pure {a : α} {r : Except ε α} :
    (pure a : Prog ε α).Gives r ↔ .ok a = r := by
  unfold Gives
  rw [ExceptT.run_pure, Comp.returns_pure]

@[simp] theorem gives_throw {e : ε} {r : Except ε α} :
    (throw e : Prog ε α).Gives r ↔ .error e = r := by
  unfold Gives
  rw [ExceptT.run_throw, Comp.returns_pure]

/-- What cannot run forever comes to its own value. -/
@[simp] theorem gives_lift {x r : Except ε α} : (liftM x : Prog ε α).Gives r ↔ x = r :=
  Comp.returns_pure

/-- **Sequencing**: a failure of the first part is the end of both. -/
theorem gives_bind {x : Prog ε α} {f : α → Prog ε β} {r : Except ε β} :
    (x >>= f).Gives r ↔
      (∃ a, x.Gives (.ok a) ∧ (f a).Gives r) ∨ ∃ e, x.Gives (.error e) ∧ .error e = r := by
  unfold Gives
  rw [ExceptT.run_bind, Comp.returns_bind]
  constructor
  · rintro ⟨p, hp, hr⟩
    cases p with
    | ok a => exact Or.inl ⟨a, hp, hr⟩
    | error e => exact Or.inr ⟨e, hp, Comp.returns_pure.mp hr⟩
  · rintro (⟨a, ha, hr⟩ | ⟨e, he, rfl⟩)
    · exact ⟨.ok a, ha, hr⟩
    · exact ⟨.error e, he, Comp.returns_pure.mpr rfl⟩

/-- A sequence succeeds exactly when both parts do. -/
@[simp] theorem gives_bind_eq_ok {x : Prog ε α} {f : α → Prog ε β} {b : β} :
    (x >>= f).Gives (.ok b) ↔ ∃ a, x.Gives (.ok a) ∧ (f a).Gives (.ok b) := by
  rw [gives_bind]
  simp

theorem gives_bind_ok {x : Prog ε α} {a : α} (h : x.Gives (.ok a)) {f : α → Prog ε β}
    {r : Except ε β} : (x >>= f).Gives r ↔ (f a).Gives r := by
  rw [gives_bind]
  constructor
  · rintro (⟨b, hb, hr⟩ | ⟨e, he, _⟩)
    · cases h.unique hb
      exact hr
    · exact absurd (h.unique he) (by simp)
  · intro hr
    exact Or.inl ⟨a, h, hr⟩

theorem gives_bind_error {x : Prog ε α} {e : ε} (h : x.Gives (.error e)) {f : α → Prog ε β}
    {r : Except ε β} : (x >>= f).Gives r ↔ .error e = r := by
  rw [gives_bind]
  constructor
  · rintro (⟨a, ha, _⟩ | ⟨e', he, hr⟩)
    · exact absurd (h.unique ha) (by simp)
    · cases h.unique he
      exact hr
  · intro hr
    exact Or.inr ⟨e, h, hr⟩

/-- A sequence that ends has a first part that ends. -/
theorem Ends.of_bind {x : Prog ε α} {f : α → Prog ε β} (h : (x >>= f).Ends) : x.Ends := by
  obtain ⟨r, hr⟩ := h
  rcases gives_bind.mp hr with ⟨a, ha, _⟩ | ⟨e, he, _⟩
  · exact ⟨_, ha⟩
  · exact ⟨_, he⟩

/-! ### Outcomes -/

/-- What a computation comes to, `none` if it never ends. -/
abbrev Outcome (ε α : Type) := Option (Except ε α)

/-- What two parts in sequence come to. -/
def Outcome.bind (o : Outcome ε α) (f : α → Outcome ε β) : Outcome ε β :=
  match o with
  | none => none
  | some (.error e) => some (.error e)
  | some (.ok a) => f a

/-- What comes of a value computed from the result. -/
def Outcome.map (f : α → β) (o : Outcome ε α) : Outcome ε β := o.bind fun a => some (.ok (f a))

@[simp] theorem Outcome.bind_none (f : α → Outcome ε β) : Outcome.bind none f = none := rfl

@[simp] theorem Outcome.bind_error (e : ε) (f : α → Outcome ε β) :
    Outcome.bind (some (.error e)) f = some (.error e) := rfl

@[simp] theorem Outcome.bind_ok (a : α) (f : α → Outcome ε β) :
    Outcome.bind (some (.ok a)) f = f a := rfl

theorem Outcome.map_map (o : Outcome ε α) (f : α → β) (g : β → σ) :
    (o.map f).map g = o.map fun a => g (f a) := by
  rcases o with _ | (e | a) <;> rfl

theorem Outcome.map_bind (o : Outcome ε α) (f : α → β) (g : β → Outcome ε σ) :
    (o.map f).bind g = o.bind fun a => g (f a) := by
  rcases o with _ | (e | a) <;> rfl

theorem Outcome.map_eq_ok {o : Outcome ε α} {f : α → β} {b : β} :
    o.map f = some (.ok b) ↔ ∃ a, o = some (.ok a) ∧ f a = b := by
  rcases o with _ | (e | a) <;> simp [Outcome.map]

theorem Outcome.bind_eq_ok {o : Outcome ε α} {f : α → Outcome ε β} {b : β} :
    Outcome.bind o f = some (.ok b) ↔ ∃ a, o = some (.ok a) ∧ f a = some (.ok b) := by
  rcases o with _ | (e | a) <;> simp [Outcome.bind]

theorem Outcome.map_eq_none {o : Outcome ε α} {f : α → β} : o.map f = none ↔ o = none := by
  rcases o with _ | (e | a) <;> simp [Outcome.map]

theorem Outcome.map_eq_error {o : Outcome ε α} {f : α → β} {e : ε} :
    o.map f = some (.error e) ↔ o = some (.error e) := by
  rcases o with _ | (e | a) <;> simp [Outcome.map]

/-- `x` comes to the outcome `o`. -/
def ComesTo (x : Prog ε α) (o : Outcome ε α) : Prop := ∀ r, x.Gives r ↔ o = some r

theorem ComesTo.of_eq {x : Prog ε α} {o o' : Outcome ε α} (hx : x.ComesTo o) (h : o = o') :
    x.ComesTo o' := h ▸ hx

theorem comesTo_pure (a : α) : (pure a : Prog ε α).ComesTo (some (.ok a)) := by
  intro r
  simp

theorem comesTo_pure_ite (c : Prop) [Decidable c] (a b : α) :
    (if c then pure a else pure b : Prog ε α).ComesTo (some (.ok (if c then a else b))) := by
  split <;> exact comesTo_pure _

theorem comesTo_throw (e : ε) : (throw e : Prog ε α).ComesTo (some (.error e)) := by
  intro r
  simp

/-- **Sequencing**, by outcomes. -/
theorem ComesTo.bind {x : Prog ε α} {o : Outcome ε α} {f : α → Prog ε β} {g : α → Outcome ε β}
    (hx : x.ComesTo o) (hf : ∀ a, o = some (.ok a) → (f a).ComesTo (g a)) :
    (x >>= f).ComesTo (Outcome.bind o g) := by
  intro r
  rw [gives_bind]
  simp only [hx _]
  rcases o with _ | (e | a)
  · simp [Outcome.bind]
  · simp [Outcome.bind]
  · simp [Outcome.bind, hf a rfl r]

@[simp] theorem lift_ok_bind (a : α) (f : α → Prog ε β) :
    (liftM (.ok a : Except ε α) : Prog ε α) >>= f = f a := rfl

@[simp] theorem lift_error_bind (e : ε) (f : α → Prog ε β) :
    (liftM (.error e : Except ε α) : Prog ε α) >>= f = throw e := rfl

/-- A value computed from the result. -/
theorem ComesTo.map {x : Prog ε α} {o : Outcome ε α} (hx : x.ComesTo o) (f : α → β) :
    (x >>= fun a => pure (f a)).ComesTo (Outcome.map f o) :=
  hx.bind fun a _ => comesTo_pure (f a)

theorem ComesTo.ends_iff {x : Prog ε α} {o : Outcome ε α} (hx : x.ComesTo o) :
    x.Ends ↔ o ≠ none := by
  unfold Ends
  simp only [hx _]
  exact Option.ne_none_iff_exists'.symm

/-! ### Loops that may fail -/

/-- How a pass through a loop that may fail ends: a failure leaves the loop. -/
def passOf : Except ε (Pass σ ρ) → Pass σ (Except ε ρ)
  | .ok (.next s) => .next s
  | .ok (.done r) => .done (.ok r)
  | .error e => .done (.error e)

/-- `while (1) body`, leaving at the first pass that is done or fails. -/
def loop (body : σ → Prog ε (Pass σ ρ)) (s : σ) : Prog ε ρ :=
  ExceptT.mk (Comp.loop (fun s => passOf <$> ExceptT.run (body s)) s)

theorem returns_passOf {x : Prog ε (Pass σ ρ)} {p : Pass σ (Except ε ρ)} :
    (passOf <$> ExceptT.run x : Comp _).Returns p ↔ ∃ r, x.Gives r ∧ passOf r = p := by
  rw [map_eq_pure_bind, Comp.returns_bind]
  simp only [Comp.returns_pure]
  rfl

/-- **What a loop comes to, by its first pass.** -/
theorem gives_loop_iff {body : σ → Prog ε (Pass σ ρ)} {s : σ} {r : Except ε ρ} :
    (loop body s).Gives r ↔
      (∃ a, (body s).Gives (.ok (.done a)) ∧ .ok a = r) ∨
      (∃ e, (body s).Gives (.error e) ∧ .error e = r) ∨
      ∃ s', (body s).Gives (.ok (.next s')) ∧ (loop body s').Gives r := by
  show (Comp.loop _ s).Returns r ↔ _
  rw [Comp.loop_returns_iff]
  simp only [returns_passOf]
  constructor
  · rintro (⟨p, hp, hd⟩ | ⟨s', ⟨p, hp, hn⟩, hr⟩)
    · rcases p with e | (s' | a)
      · exact Or.inr (Or.inl ⟨e, hp, by cases hd; rfl⟩)
      · exact absurd hd (by simp [passOf])
      · exact Or.inl ⟨a, hp, by cases hd; rfl⟩
    · rcases p with e | (t | a)
      · exact absurd hn (by simp [passOf])
      · cases hn
        exact Or.inr (Or.inr ⟨s', hp, hr⟩)
      · exact absurd hn (by simp [passOf])
  · rintro (⟨a, ha, rfl⟩ | ⟨e, he, rfl⟩ | ⟨s', hs, hr⟩)
    · exact Or.inl ⟨_, ha, rfl⟩
    · exact Or.inl ⟨_, he, rfl⟩
    · exact Or.inr ⟨s', ⟨_, hs, rfl⟩, hr⟩

theorem gives_loop_done {body : σ → Prog ε (Pass σ ρ)} {s : σ} {a : ρ}
    (h : (body s).Gives (.ok (.done a))) {r : Except ε ρ} :
    (loop body s).Gives r ↔ .ok a = r := by
  rw [gives_loop_iff]
  constructor
  · rintro (⟨b, hb, hr⟩ | ⟨e, he, _⟩ | ⟨s', hs, _⟩)
    · cases h.unique hb
      exact hr
    · exact absurd (h.unique he) (by simp)
    · exact absurd (h.unique hs) (by simp)
  · intro hr
    exact Or.inl ⟨a, h, hr⟩

theorem gives_loop_error {body : σ → Prog ε (Pass σ ρ)} {s : σ} {e : ε}
    (h : (body s).Gives (.error e)) {r : Except ε ρ} :
    (loop body s).Gives r ↔ .error e = r := by
  rw [gives_loop_iff]
  constructor
  · rintro (⟨b, hb, _⟩ | ⟨e', he, hr⟩ | ⟨s', hs, _⟩)
    · exact absurd (h.unique hb) (by simp)
    · cases h.unique he
      exact hr
    · exact absurd (h.unique hs) (by simp)
  · intro hr
    exact Or.inr (Or.inl ⟨e, h, hr⟩)

/-- A pass that goes on can be taken off the front of a loop. -/
theorem gives_loop_next {body : σ → Prog ε (Pass σ ρ)} {s s' : σ}
    (h : (body s).Gives (.ok (.next s'))) {r : Except ε ρ} :
    (loop body s).Gives r ↔ (loop body s').Gives r := by
  rw [gives_loop_iff]
  constructor
  · rintro (⟨b, hb, _⟩ | ⟨e, he, _⟩ | ⟨t, ht, hr⟩)
    · exact absurd (h.unique hb) (by simp)
    · exact absurd (h.unique he) (by simp)
    · cases h.unique ht
      exact hr
  · intro hr
    exact Or.inr (Or.inr ⟨s', h, hr⟩)

theorem ComesTo.loop_done {body : σ → Prog ε (Pass σ ρ)} {s : σ} {a : ρ}
    (h : (body s).ComesTo (some (.ok (.done a)))) : (loop body s).ComesTo (some (.ok a)) := by
  intro r
  rw [gives_loop_done ((h _).mpr rfl)]
  simp

theorem ComesTo.loop_error {body : σ → Prog ε (Pass σ ρ)} {s : σ} {e : ε}
    (h : (body s).ComesTo (some (.error e))) : (loop body s).ComesTo (some (.error e)) := by
  intro r
  rw [gives_loop_error ((h _).mpr rfl)]
  simp

theorem ComesTo.loop_next {body : σ → Prog ε (Pass σ ρ)} {s s' : σ} {o : Outcome ε ρ}
    (h : (body s).ComesTo (some (.ok (.next s')))) (hl : (loop body s').ComesTo o) :
    (loop body s).ComesTo o := by
  intro r
  rw [gives_loop_next ((h _).mpr rfl)]
  exact hl r

/-- A loop that ends has a first pass that ends. -/
theorem Ends.of_loop {body : σ → Prog ε (Pass σ ρ)} {s : σ} (h : (loop body s).Ends) :
    (body s).Ends := by
  obtain ⟨r, hr⟩ := h
  rcases gives_loop_iff.mp hr with ⟨a, ha, _⟩ | ⟨e, he, _⟩ | ⟨s', hs, _⟩
  · exact ⟨_, ha⟩
  · exact ⟨_, he⟩
  · exact ⟨_, hs⟩

/-- **The divergence rule**: a loop never ends when, under an invariant, every pass that ends goes
on and keeps the invariant. -/
theorem not_loop_ends_of_inv {body : σ → Prog ε (Pass σ ρ)} (I : σ → Prop)
    (hI : ∀ s p, I s → (body s).Gives p → ∃ s', p = .ok (.next s') ∧ I s') {s : σ} (hs : I s) :
    ¬ (loop body s).Ends :=
  Comp.not_loop_ends_of_inv I (fun s p hs hp => by
    obtain ⟨r, hr, rfl⟩ := returns_passOf.mp hp
    obtain ⟨s', rfl, hs'⟩ := hI s r hs hr
    exact ⟨s', rfl, hs'⟩) hs

/-- **The termination rule** for loops that may fail. -/
theorem loop_ends_of_wf {body : σ → Prog ε (Pass σ ρ)} {r : σ → σ → Prop} (hwf : WellFounded r)
    (I : σ → Prop) (hbody : ∀ s, I s → ∃ p, (body s).Gives p ∧
      ∀ s', p = .ok (.next s') → I s' ∧ r s' s) {s : σ} (hs : I s) : (loop body s).Ends :=
  Comp.loop_ends_of_wf hwf I (fun s hs => by
    obtain ⟨p, hp, hnext⟩ := hbody s hs
    refine ⟨passOf p, returns_passOf.mpr ⟨p, hp, rfl⟩, fun s' hs' => hnext s' ?_⟩
    rcases p with e | (t | a)
    · cases hs'
    · cases hs'
      rfl
    · cases hs') hs

/-- **Induction over the passes** of a loop that may fail. -/
theorem loop_induction {body : σ → Prog ε (Pass σ ρ)} {motive : σ → Except ε ρ → Prop}
    (hdone : ∀ s a, (body s).Gives (.ok (.done a)) → motive s (.ok a))
    (herror : ∀ s e, (body s).Gives (.error e) → motive s (.error e))
    (hnext : ∀ s s' r, (body s).Gives (.ok (.next s')) → motive s' r → motive s r) {s : σ}
    {r : Except ε ρ} (h : (loop body s).Gives r) : motive s r := by
  refine Comp.loop_induction (fun s r hr => ?_) (fun s s' r hr ih => ?_) h
  · obtain ⟨p, hp, hpr⟩ := returns_passOf.mp hr
    rcases p with e | (t | a)
    · cases hpr
      exact herror s e hp
    · cases hpr
    · cases hpr
      exact hdone s a hp
  · obtain ⟨p, hp, hpr⟩ := returns_passOf.mp hr
    rcases p with e | (t | a)
    · cases hpr
    · cases hpr
      exact hnext s _ r hp ih
    · cases hpr

/-- Two passes that may fail end alike. -/
def PassRel {τ ω : Type} (R : σ → τ → Prop) (Q : Except ε ρ → Except ε ω → Prop)
    (p : Except ε (Pass σ ρ)) (q : Except ε (Pass τ ω)) : Prop :=
  Comp.PassRel R Q (passOf p) (passOf q)

/-- **The simulation rule** for loops that may fail. -/
theorem loop_sim {τ ω : Type} {body : σ → Prog ε (Pass σ ρ)} {body' : τ → Prog ε (Pass τ ω)}
    (R : σ → τ → Prop) (Q : Except ε ρ → Except ε ω → Prop)
    (hpass : ∀ s t p, R s t → (body s).Gives p → ∃ q, (body' t).Gives q ∧ PassRel R Q p q)
    {s : σ} {t : τ} {a : Except ε ρ} (hst : R s t) (h : (loop body s).Gives a) :
    ∃ b, (loop body' t).Gives b ∧ Q a b :=
  Comp.loop_sim R Q (fun s t p hst hp => by
    obtain ⟨p', hp', rfl⟩ := returns_passOf.mp hp
    obtain ⟨q, hq, hrel⟩ := hpass s t p' hst hp'
    exact ⟨passOf q, returns_passOf.mpr ⟨q, hq, rfl⟩, hrel⟩) hst h

end Prog
