import Mathlib.Algebra.GroupWithZero.Nat
import Mathlib.Tactic.Common

/-!
# Runs of a machine

A machine is a function `step` from states and events to states: `none` where the event cannot
happen. `run step s es` is the state after the events `es`.

Results:
* `run_inv`: the invariant rule for runs whose steps all meet a condition (`Along`).
* `run_eq_self`: runs of steps that change nothing.
* `run_congr`: runs of two machines whose steps are the same.
* `run_length_le`: a measure bounds the length of a run.
* `inevitable_of_measure`: a goal that every run comes to (`Inevitable`).
-/

variable {σ ε : Type}

/-- The state after a sequence of events. -/
def run (step : σ → ε → Option σ) : σ → List ε → Option σ
  | s, [] => some s
  | s, e :: es => (step s e).bind fun s' => run step s' es

/-- Every step of the run meets the condition `P`. -/
def Along (step : σ → ε → Option σ) (P : σ → ε → Prop) : σ → List ε → Prop
  | _, [] => True
  | s, e :: es => P s e ∧ ∀ s', step s e = some s' → Along step P s' es

theorem Along.cons {step : σ → ε → Option σ} {P : σ → ε → Prop} {s s₁ : σ} {e : ε} {es : List ε}
    (he : P s e) (hs : step s e = some s₁) (h : Along step P s₁ es) : Along step P s (e :: es) :=
  ⟨he, fun s' hs' => by
    obtain rfl := Option.some.inj (hs.symm.trans hs')
    exact h⟩

/-- Every run meets no condition at all. -/
theorem along_true (step : σ → ε → Option σ) :
    ∀ (s : σ) (es : List ε), Along step (fun _ _ => True) s es
  | _, [] => trivial
  | _, _ :: es => ⟨trivial, fun s' _ => along_true step s' es⟩

/-- A condition that the events of the run meet in every state. -/
theorem along_of_events {step : σ → ε → Option σ} {P : σ → ε → Prop} :
    ∀ {es : List ε} (s : σ), (∀ e ∈ es, ∀ s, P s e) → Along step P s es
  | [], _, _ => trivial
  | e :: _, s, h => ⟨h e List.mem_cons_self s, fun s' _ =>
    along_of_events s' fun e' he' => h e' (List.mem_cons_of_mem e he')⟩

/-- Two conditions that every step meets. -/
theorem Along.and {step : σ → ε → Option σ} {P Q : σ → ε → Prop} :
    ∀ {es : List ε} {s : σ}, Along step P s es → Along step Q s es →
      Along step (fun s e => P s e ∧ Q s e) s es
  | [], _, _, _ => trivial
  | _ :: _, _, hP, hQ => ⟨⟨hP.1, hQ.1⟩, fun s' hs' => (hP.2 s' hs').and (hQ.2 s' hs')⟩

/-- Conditions that are equivalent where the steps of a run meet another one. -/
theorem Along.congr {step : σ → ε → Option σ} {U P Q : σ → ε → Prop}
    (h : ∀ s e, U s e → (P s e ↔ Q s e)) :
    ∀ {es : List ε} {s : σ}, Along step U s es → (Along step P s es ↔ Along step Q s es)
  | [], _, _ => Iff.rfl
  | e :: _, s, hU => and_congr (h s e hU.1) <| forall_congr' fun s' => forall_congr' fun hs' =>
    Along.congr h (hU.2 s' hs')

/-- One sequence of events after another. -/
theorem run_append (step : σ → ε → Option σ) : ∀ (es es' : List ε) (s : σ),
    run step s (es ++ es') = (run step s es).bind fun s' => run step s' es'
  | [], _, _ => rfl
  | e :: es, es', s => by
    rw [List.cons_append, run, run, Option.bind_assoc]
    exact congrArg _ (funext fun s' => run_append step es es' s')

/-- Steps that change nothing change nothing together. -/
theorem run_eq_self {step : σ → ε → Option σ} : ∀ {es : List ε} {s : σ},
    Along step (fun s e => step s e = some s) s es → run step s es = some s
  | [], _, _ => rfl
  | _ :: _, s, h => Option.bind_eq_some_iff.mpr ⟨s, h.1, run_eq_self (h.2 s h.1)⟩

/-- Machines whose steps are the same where the steps of a run meet a condition. -/
theorem run_congr {step step' : σ → ε → Option σ} {P : σ → ε → Prop}
    (h : ∀ s e, P s e → step s e = step' s e) :
    ∀ {es : List ε} {s : σ}, Along step P s es → run step s es = run step' s es
  | [], _, _ => rfl
  | e :: es, s, halong => by
    rw [run, run, ← h s e halong.1]
    cases hs : step s e with
    | none => rfl
    | some s' => exact run_congr h (halong.2 s' hs)

/-- **The invariant rule**: what every step that meets the condition keeps holds after a run of such
steps. -/
theorem run_inv {step : σ → ε → Option σ} {P : σ → ε → Prop} (I : σ → Prop)
    (hstep : ∀ s e s', I s → P s e → step s e = some s' → I s') :
    ∀ {es : List ε} {s s' : σ}, I s → Along step P s es → run step s es = some s' → I s'
  | [], _, _, hs, _, hr => Option.some.inj hr ▸ hs
  | e :: _, s, _, hs, halong, hr => by
    obtain ⟨s₁, hs₁, hrest⟩ := Option.bind_eq_some_iff.mp hr
    exact run_inv I hstep (hstep s e s₁ hs halong.1 hs₁) (halong.2 s₁ hs₁) hrest

/-- **The rule for the length**: every step makes the measure smaller, except for what its event may
add. -/
theorem run_length_le {step : σ → ε → Option σ} (I : σ → Prop) (μ : σ → Nat) (cost : ε → Nat)
    (hstep : ∀ s e s', I s → step s e = some s' → I s' ∧ μ s' + 1 ≤ μ s + cost e) :
    ∀ {es : List ε} {s s' : σ}, I s → run step s es = some s' →
      es.length + μ s' ≤ μ s + (es.map cost).sum
  | [], _, _, _, hr => by
    rw [Option.some.inj hr]
    simp
  | e :: es, s, s', hs, hr => by
    obtain ⟨s₁, hs₁, hrest⟩ := Option.bind_eq_some_iff.mp hr
    obtain ⟨hinv, hlt⟩ := hstep s e s₁ hs hs₁
    have hlen := run_length_le I μ cost hstep hinv hrest
    simp only [List.length_cons, List.map_cons, List.sum_cons]
    omega

/-! ## What every run comes to -/

/-- The machine comes to a goal, whatever happens, and until then one of the events `own` can
happen. -/
inductive Inevitable (step : σ → ε → Option σ) (own : ε → Prop) (Goal : σ → Prop) : σ → Prop
  | now {s : σ} : Goal s → Inevitable step own Goal s
  | later {s : σ} : (∃ e s', own e ∧ step s e = some s') →
      (∀ e s', step s e = some s' → Inevitable step own Goal s') → Inevitable step own Goal s

/-- **The rule for goals**: where an invariant says that an event `own` can happen, and every step
makes the measure smaller, the goal is inevitable. -/
theorem inevitable_of_measure {step : σ → ε → Option σ} {own : ε → Prop} {Goal : σ → Prop}
    (I : σ → Prop) (μ : σ → Nat)
    (hprogress : ∀ s, I s → ¬ Goal s → ∃ e s', own e ∧ step s e = some s')
    (hstep : ∀ s e s', I s → ¬ Goal s → step s e = some s' → I s' ∧ μ s' < μ s) :
    ∀ s, I s → Inevitable step own Goal s := by
  intro s
  induction h : μ s using Nat.strongRecOn generalizing s with
  | ind m ih =>
    intro hs
    by_cases hgoal : Goal s
    · exact .now hgoal
    · refine .later (hprogress s hs hgoal) fun e s' he => ?_
      obtain ⟨hs', hlt⟩ := hstep s e s' hs hgoal he
      exact ih (μ s') (h ▸ hlt) s' rfl hs'
