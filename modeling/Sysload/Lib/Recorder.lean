import Mathlib.Data.List.Basic

/-!
# Computations that record events

`Recorder ω ε α` is a computation that may fail with an `ε` or return an `α`. It sees the events
recorded so far and records further ones; none is taken back.

Results:
* `outcome_bind` is the rule for sequencing.
* `Emits P x`: `x` records only events with `P`, and the rules for its parts.
* `Succeeds P x`: besides, `x` comes to a value.
-/

/-- A computation that records events. -/
abbrev Recorder (ω ε α : Type) := ExceptT ε (StateM (List ω)) α

namespace Recorder

variable {ω ε α β : Type}

/-- What `x` comes to behind the events `h`. -/
def outcome (x : Recorder ω ε α) (h : List ω) : Except ε α × List ω := StateT.run (ExceptT.run x) h

/-- Record an event. -/
def record (e : ω) : Recorder ω ε Unit := modify fun h => h ++ [e]

@[simp] theorem outcome_pure (a : α) (h : List ω) :
    (pure a : Recorder ω ε α).outcome h = (.ok a, h) := rfl

@[simp] theorem outcome_throw (e : ε) (h : List ω) :
    (throw e : Recorder ω ε α).outcome h = (.error e, h) := rfl

@[simp] theorem outcome_get (h : List ω) : (get : Recorder ω ε (List ω)).outcome h = (.ok h, h) := rfl

@[simp] theorem outcome_record (e : ω) (h : List ω) :
    (record e : Recorder ω ε Unit).outcome h = (.ok (), h ++ [e]) := rfl

@[simp] theorem outcome_lift (r : Except ε α) (h : List ω) :
    (liftM r : Recorder ω ε α).outcome h = (r, h) := rfl

/-- **Sequencing**: a failure of the first part is the end of both. -/
theorem outcome_bind (x : Recorder ω ε α) (f : α → Recorder ω ε β) (h : List ω) :
    (x >>= f).outcome h = match x.outcome h with
      | (.ok a, h₁) => (f a).outcome h₁
      | (.error e, h₁) => (.error e, h₁) := by
  show StateT.run (ExceptT.run (x >>= f)) h = _
  rw [ExceptT.run_bind, StateT.run_bind]
  unfold outcome
  show (match StateT.run (ExceptT.run x) h with | (p, h₁) => _) = _
  rcases StateT.run (ExceptT.run x) h with ⟨a | e, h₁⟩
  · rfl
  · rfl

theorem outcome_bind_of_ok {x : Recorder ω ε α} {f : α → Recorder ω ε β} {h h₁ : List ω} {a : α}
    (hx : x.outcome h = (.ok a, h₁)) : (x >>= f).outcome h = (f a).outcome h₁ := by
  rw [outcome_bind, hx]

theorem outcome_bind_of_error {x : Recorder ω ε α} (f : α → Recorder ω ε β) {h h₁ : List ω} {e : ε}
    (hx : x.outcome h = (.error e, h₁)) : (x >>= f).outcome h = (.error e, h₁) := by
  rw [outcome_bind, hx]

/-- What is done with the events is done with those recorded so far. -/
@[simp] theorem outcome_get_bind (f : List ω → Recorder ω ε β) (h : List ω) :
    (get >>= f : Recorder ω ε β).outcome h = (f h).outcome h :=
  outcome_bind_of_ok (outcome_get h)

@[simp] theorem outcome_record_bind (e : ω) (f : Unit → Recorder ω ε β) (h : List ω) :
    (record e >>= f).outcome h = (f ()).outcome (h ++ [e]) :=
  outcome_bind_of_ok (outcome_record e h)

/-- A sequence that comes to a value does so by a value of its first part. -/
theorem outcome_bind_eq_ok {x : Recorder ω ε α} {f : α → Recorder ω ε β} {h h' : List ω} {b : β} :
    (x >>= f).outcome h = (.ok b, h') ↔
      ∃ a h₁, x.outcome h = (.ok a, h₁) ∧ (f a).outcome h₁ = (.ok b, h') := by
  constructor
  · intro hb
    rcases hx : x.outcome h with ⟨e | a, h₁⟩
    · rw [outcome_bind_of_error f hx] at hb
      cases hb
    · exact ⟨a, h₁, rfl, outcome_bind_of_ok hx ▸ hb⟩
  · rintro ⟨a, h₁, hx, hb⟩
    rw [outcome_bind_of_ok hx, hb]

/-! ## The events of a computation -/

/-- `x` records only events with `P`. -/
def Emits (P : ω → Prop) (x : Recorder ω ε α) : Prop :=
  ∀ h, ∃ l, (x.outcome h).2 = h ++ l ∧ ∀ e ∈ l, P e

variable {P : ω → Prop}

theorem emits_pure (a : α) : Emits P (pure a : Recorder ω ε α) :=
  fun h => ⟨[], (List.append_nil h).symm, List.forall_mem_nil P⟩

theorem emits_throw (e : ε) : Emits P (throw e : Recorder ω ε α) :=
  fun h => ⟨[], (List.append_nil h).symm, List.forall_mem_nil P⟩

theorem emits_lift (r : Except ε α) : Emits P (liftM r : Recorder ω ε α) :=
  fun h => ⟨[], (List.append_nil h).symm, List.forall_mem_nil P⟩

theorem emits_record {e : ω} (he : P e) : Emits P (record e : Recorder ω ε Unit) :=
  fun _ => ⟨[e], rfl, List.forall_mem_singleton.mpr he⟩

/-- **Sequencing**: the events of both parts. -/
theorem Emits.bind {x : Recorder ω ε α} {f : α → Recorder ω ε β} (hx : Emits P x)
    (hf : ∀ a, Emits P (f a)) : Emits P (x >>= f) := by
  intro h
  obtain ⟨l, hl, hP⟩ := hx h
  rcases hr : x.outcome h with ⟨e | a, h₁⟩
  · rw [hr] at hl
    exact ⟨l, (congrArg Prod.snd (outcome_bind_of_error f hr)).trans hl, hP⟩
  · obtain ⟨l', hl', hP'⟩ := hf a h₁
    rw [hr] at hl
    refine ⟨l ++ l', ?_, List.forall_mem_append.mpr ⟨hP, hP'⟩⟩
    rw [outcome_bind_of_ok hr, hl', show h₁ = h ++ l from hl, List.append_assoc]

theorem Emits.get_bind {f : List ω → Recorder ω ε β} (hf : ∀ h, Emits P (f h)) :
    Emits P (get >>= f : Recorder ω ε β) := by
  intro h
  rw [outcome_get_bind]
  exact hf h h

/-- `x` comes to a value, having recorded only events with `P`. -/
def Succeeds (P : ω → Prop) (x : Recorder ω ε α) : Prop :=
  ∀ h, ∃ a l, x.outcome h = (.ok a, h ++ l) ∧ ∀ e ∈ l, P e

theorem succeeds_pure (a : α) : Succeeds P (pure a : Recorder ω ε α) :=
  fun h => ⟨a, [], congrArg (Prod.mk _) (List.append_nil h).symm, List.forall_mem_nil P⟩

/-- Behind a part that comes to a value. -/
theorem Succeeds.bind_outcome {x : Recorder ω ε α} (hx : Succeeds P x) (f : α → Recorder ω ε β)
    (h : List ω) : ∃ a l, (x >>= f).outcome h = (f a).outcome (h ++ l) ∧ ∀ e ∈ l, P e := by
  obtain ⟨a, l, hr, hP⟩ := hx h
  exact ⟨a, l, outcome_bind_of_ok hr, hP⟩

theorem Succeeds.get_bind {f : List ω → Recorder ω ε β} (hf : ∀ h, Succeeds P (f h)) :
    Succeeds P (get >>= f : Recorder ω ε β) := by
  intro h
  rw [outcome_get_bind]
  exact hf h h

end Recorder
