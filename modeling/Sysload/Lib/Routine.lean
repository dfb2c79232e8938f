import Sysload.Lib.Comp

/-!
# Computations on a state

`Routine σ ε α` is a computation on a state `σ` that may run forever, fail with an `ε`, or return an
`α`. A failure keeps the state it happened in. `x.Runs s r s'` says that `x`, started in `s`, comes
to the end `r` in the state `s'`.

Results:
* `runs_bind` is the rule for sequencing, `runs_lift` the rule for a `Prog`, which has no state.
* `runs_cleanup` is the rule for code that is run on the way out, whatever happened before.
* `Runs.unique`: an action comes to one end in one state.
* `Keeps I x`: an action that keeps an invariant, and the rules for its parts.
-/

/-- A computation on a state that may run forever, fail, or return. -/
abbrev Routine (σ ε α : Type) := ExceptT ε (StateT σ Comp) α

namespace Routine

variable {σ ε α β : Type}

/-- Started in `s`, `x` comes to the end `r` in the state `s'`. -/
def Runs (x : Routine σ ε α) (s : σ) (r : Except ε α) (s' : σ) : Prop :=
  Comp.Returns (StateT.run (ExceptT.run x) s) (r, s')

/-- A computation without state, as an action. -/
def lift (x : Prog ε α) : Routine σ ε α :=
  ExceptT.mk fun s => ExceptT.run x >>= fun r => pure (r, s)

/-- Run `x`; then, whatever came of it, change the state by `f`. -/
def cleanup (x : Routine σ ε α) (f : Except ε α → σ → σ) : Routine σ ε α :=
  ExceptT.mk fun s => StateT.run (ExceptT.run x) s >>= fun p => pure (p.1, f p.1 p.2)

theorem Runs.unique {x : Routine σ ε α} {s s₁ s₂ : σ} {r₁ r₂ : Except ε α} (h₁ : x.Runs s r₁ s₁)
    (h₂ : x.Runs s r₂ s₂) : r₁ = r₂ ∧ s₁ = s₂ :=
  Prod.mk.inj (Comp.Returns.unique h₁ h₂)

@[simp] theorem runs_pure {a : α} {s s' : σ} {r : Except ε α} :
    (pure a : Routine σ ε α).Runs s r s' ↔ .ok a = r ∧ s = s' := by
  unfold Runs
  exact Comp.returns_pure.trans (Prod.mk.injEq .. ▸ Iff.rfl)

@[simp] theorem runs_throw {e : ε} {s s' : σ} {r : Except ε α} :
    (throw e : Routine σ ε α).Runs s r s' ↔ .error e = r ∧ s = s' := by
  unfold Runs
  exact Comp.returns_pure.trans (Prod.mk.injEq .. ▸ Iff.rfl)

@[simp] theorem runs_get {s s' : σ} {r : Except ε σ} :
    (get : Routine σ ε σ).Runs s r s' ↔ .ok s = r ∧ s = s' := by
  unfold Runs
  exact Comp.returns_pure.trans (Prod.mk.injEq .. ▸ Iff.rfl)

@[simp] theorem runs_modify {f : σ → σ} {s s' : σ} {r : Except ε PUnit} :
    (modify f : Routine σ ε PUnit).Runs s r s' ↔ .ok ⟨⟩ = r ∧ f s = s' := by
  unfold Runs
  exact Comp.returns_pure.trans (Prod.mk.injEq .. ▸ Iff.rfl)

/-- A computation without state keeps the state. -/
@[simp] theorem runs_lift {x : Prog ε α} {s s' : σ} {r : Except ε α} :
    (lift x : Routine σ ε α).Runs s r s' ↔ x.Gives r ∧ s = s' := by
  unfold Runs
  show (ExceptT.run x >>= fun r => pure (r, s)).Returns (r, s') ↔ _
  rw [Comp.returns_bind]
  simp only [Comp.returns_pure, Prod.mk.injEq]
  constructor
  · rintro ⟨a, ha, rfl, rfl⟩
    exact ⟨ha, rfl⟩
  · rintro ⟨hr, rfl⟩
    exact ⟨r, hr, rfl, rfl⟩

/-- **Sequencing**: a failure of the first part is the end of both, in the state it left. -/
theorem runs_bind {x : Routine σ ε α} {f : α → Routine σ ε β} {s s' : σ} {r : Except ε β} :
    (x >>= f).Runs s r s' ↔
      (∃ a s₁, x.Runs s (.ok a) s₁ ∧ (f a).Runs s₁ r s') ∨
        ∃ e, x.Runs s (.error e) s' ∧ .error e = r := by
  unfold Runs
  rw [ExceptT.run_bind, StateT.run_bind, Comp.returns_bind]
  constructor
  · rintro ⟨⟨p, s₁⟩, hp, hr⟩
    cases p with
    | ok a => exact Or.inl ⟨a, s₁, hp, hr⟩
    | error e =>
      obtain ⟨rfl, rfl⟩ := Prod.mk.inj (Comp.returns_pure.mp hr)
      exact Or.inr ⟨e, hp, rfl⟩
  · rintro (⟨a, s₁, ha, hr⟩ | ⟨e, he, rfl⟩)
    · exact ⟨(.ok a, s₁), ha, hr⟩
    · exact ⟨(.error e, s'), he, Comp.returns_pure.mpr rfl⟩

/-- A sequence that comes to a value does so by a value of its first part. -/
theorem runs_bind_ok {x : Routine σ ε α} {f : α → Routine σ ε β} {s s' : σ} {b : β} :
    (x >>= f).Runs s (.ok b) s' ↔ ∃ a s₁, x.Runs s (.ok a) s₁ ∧ (f a).Runs s₁ (.ok b) s' := by
  rw [runs_bind]
  simp

/-- Behind a part that comes to a value. -/
theorem runs_bind_of_ok {x : Routine σ ε α} {f : α → Routine σ ε β} {s s₁ s' : σ} {a : α}
    {r : Except ε β} (hx : x.Runs s (.ok a) s₁) :
    (x >>= f).Runs s r s' ↔ (f a).Runs s₁ r s' := by
  rw [runs_bind]
  constructor
  · rintro (⟨b, s₂, hb, h⟩ | ⟨e, he, _⟩)
    · obtain ⟨hab, rfl⟩ := hb.unique hx
      exact Except.ok.inj hab ▸ h
    · exact absurd (he.unique hx).1 (by simp)
  · exact fun h => Or.inl ⟨a, s₁, hx, h⟩

/-- What is done with the state is done with the one at hand. -/
theorem runs_get_bind {f : σ → Routine σ ε β} {s s' : σ} {r : Except ε β} :
    (get >>= f : Routine σ ε β).Runs s r s' ↔ (f s).Runs s r s' :=
  runs_bind_of_ok (runs_get.mpr ⟨rfl, rfl⟩)

/-- What follows a change of the state sees the state that is changed. -/
theorem runs_modify_bind {g : σ → σ} {f : PUnit → Routine σ ε β} {s s' : σ} {r : Except ε β} :
    (modify g >>= f : Routine σ ε β).Runs s r s' ↔ (f ⟨⟩).Runs (g s) r s' :=
  runs_bind_of_ok (runs_modify.mpr ⟨rfl, rfl⟩)

/-- **Cleaning up**: the end is that of the action, the state is changed on the way out. -/
theorem runs_cleanup {x : Routine σ ε α} {f : Except ε α → σ → σ} {s s' : σ} {r : Except ε α} :
    (cleanup x f).Runs s r s' ↔ ∃ s₁, x.Runs s r s₁ ∧ f r s₁ = s' := by
  unfold Runs
  show (StateT.run (ExceptT.run x) s >>= fun p => pure (p.1, f p.1 p.2)).Returns (r, s') ↔ _
  rw [Comp.returns_bind]
  simp only [Comp.returns_pure, Prod.mk.injEq]
  constructor
  · rintro ⟨⟨r₁, s₁⟩, h, rfl, rfl⟩
    exact ⟨s₁, h, rfl⟩
  · rintro ⟨s₁, h, rfl⟩
    exact ⟨(r, s₁), h, rfl, rfl⟩

/-! ## Invariants -/

/-- `x` keeps `I`, whatever it comes to. -/
def Keeps (I : σ → Prop) (x : Routine σ ε α) : Prop := ∀ s r s', I s → x.Runs s r s' → I s'

variable {I : σ → Prop}

theorem keeps_pure (a : α) : Keeps I (pure a : Routine σ ε α) := by
  intro s r s' hs hr
  obtain ⟨_, rfl⟩ := runs_pure.mp hr
  exact hs

theorem keeps_throw (e : ε) : Keeps I (throw e : Routine σ ε α) := by
  intro s r s' hs hr
  obtain ⟨_, rfl⟩ := runs_throw.mp hr
  exact hs

theorem keeps_get : Keeps I (get : Routine σ ε σ) := by
  intro s r s' hs hr
  obtain ⟨_, rfl⟩ := runs_get.mp hr
  exact hs

theorem keeps_modify {f : σ → σ} (hf : ∀ s, I s → I (f s)) :
    Keeps I (modify f : Routine σ ε PUnit) := by
  intro s r s' hs hr
  obtain ⟨_, rfl⟩ := runs_modify.mp hr
  exact hf s hs

/-- **Sequencing**: two parts that keep an invariant keep it together. -/
theorem Keeps.bind {x : Routine σ ε α} {f : α → Routine σ ε β} (hx : Keeps I x)
    (hf : ∀ a, Keeps I (f a)) : Keeps I (x >>= f) := by
  intro s r s' hs hr
  rcases runs_bind.mp hr with ⟨a, s₁, h₁, h₂⟩ | ⟨e, h₁, _⟩
  · exact hf a s₁ r s' (hx s _ s₁ hs h₁) h₂
  · exact hx s _ s' hs h₁

/-! ## Invariants and ends -/

/-- From a state with `I`, `x` comes to an end, and keeps `I`. -/
def Total (I : σ → Prop) (x : Routine σ ε α) : Prop :=
  ∀ s, I s → ∃ r s', x.Runs s r s' ∧ I s'

theorem Total.keeps {x : Routine σ ε α} (hx : Total I x) : Keeps I x := by
  intro s r s' hs hr
  obtain ⟨r₁, s₁, h₁, hs₁⟩ := hx s hs
  exact (hr.unique h₁).2 ▸ hs₁

theorem total_pure (a : α) : Total I (pure a : Routine σ ε α) :=
  fun s hs => ⟨_, s, runs_pure.mpr ⟨rfl, rfl⟩, hs⟩

theorem total_throw (e : ε) : Total I (throw e : Routine σ ε α) :=
  fun s hs => ⟨_, s, runs_throw.mpr ⟨rfl, rfl⟩, hs⟩

theorem total_get : Total I (get : Routine σ ε σ) :=
  fun s hs => ⟨_, s, runs_get.mpr ⟨rfl, rfl⟩, hs⟩

theorem total_modify {f : σ → σ} (hf : ∀ s, I s → I (f s)) :
    Total I (modify f : Routine σ ε PUnit) :=
  fun s hs => ⟨_, f s, runs_modify.mpr ⟨rfl, rfl⟩, hf s hs⟩

/-- **Sequencing** by the values that the first part comes to. -/
theorem Total.bind_of {x : Routine σ ε α} {f : α → Routine σ ε β} {J : σ → Prop}
    {s : σ} (hs : I s) (hx : Total I x) (hI : ∀ s, I s → J s)
    (hf : ∀ a s₁, x.Runs s (.ok a) s₁ → I s₁ → ∃ r s', (f a).Runs s₁ r s' ∧ J s') :
    ∃ r s', (x >>= f).Runs s r s' ∧ J s' := by
  obtain ⟨r, s₁, h₁, hs₁⟩ := hx s hs
  cases r with
  | error e => exact ⟨_, s₁, runs_bind.mpr (Or.inr ⟨e, h₁, rfl⟩), hI s₁ hs₁⟩
  | ok a =>
    obtain ⟨r, s₂, h₂, hs₂⟩ := hf a s₁ h₁ hs₁
    exact ⟨r, s₂, runs_bind.mpr (Or.inl ⟨a, s₁, h₁, h₂⟩), hs₂⟩

/-- **Sequencing**: two parts that come to an end do so together. -/
theorem Total.bind {x : Routine σ ε α} {f : α → Routine σ ε β} (hx : Total I x)
    (hf : ∀ a, Total I (f a)) : Total I (x >>= f) :=
  fun _ hs => hx.bind_of hs (fun _ h => h) fun a s₁ _ hs₁ => hf a s₁ hs₁

end Routine
