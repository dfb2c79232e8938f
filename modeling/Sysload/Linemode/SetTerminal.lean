import Sysload.Lib.Run

/-!
# The settings of the terminal (`ui_linemode.c`)

`set_terminal` switches the echo and the line mode off for a password or for a single key, and on
again behind it. `term_status` is the record of that, and `set_terminal` is also what the handlers of
`SIGTERM`, `SIGINT` and `SIGQUIT` call before they exit, wherever the signal finds the program: the
user interface is terminated by a signal whenever another one was faster.

* A step is one system call or one assignment of `set_terminal`. A handler never returns, so that of
  the frames below it only the signals they block are left.
* A call of `tcgetattr` or `tcsetattr` may fail (`Event.fails`).
* `α` are the settings, and `raw` is what is switched off in them.

Source: `src/core/ui_linemode.c`, `set_terminal`, `sigtermhandler` and their callers `password`,
`keypressed` and `main`. Out of scope is `SIGKILL`.

Results:
* `step_settled`, `step_lost`: what the steps keep, and what they cannot mend.
* **`settings_restored_iff`**: at the exit the terminal is as it was, unless a signal has come between
  the call that switches and the assignment that records it.
-/

namespace Sysload.SetTerminal

/-! ## The program -/

/-- The signals with a handler. -/
inductive Signal where
  | sigterm
  | sigint
  | sigquit
  deriving DecidableEq, Repr

/-- Where `set_terminal` is. -/
inductive Place where
  | entry
  | get
  | set
  | mark
  | reset
  | clear
  deriving DecidableEq, Repr

/-- Where the program is: outside of `password` and `keypressed`, in their calls of `set_terminal`,
waiting for a key between the two, in a handler, or gone. -/
inductive Pc where
  | outside
  | setting (on : Bool) (place : Place)
  | getc
  | handler (place : Place)
  | exited
  deriving DecidableEq, Repr

/-- The settings of the terminal, `term_orig` and `term_status`. -/
structure Term (α : Type) where
  settings : α
  termOrig : α
  termStatus : Bool
  deriving DecidableEq, Repr

/-- The program and its terminal, and the signals that are blocked. -/
structure State (α : Type) where
  pc : Pc
  term : Term α
  blocked : List Signal
  deriving DecidableEq, Repr

/-- A prompt begins, `set_terminal` goes on, a system call fails, the last key of the prompt is there,
a signal comes, or the program is left. -/
inductive Event where
  | prompt
  | goesOn
  | fails
  | key
  | signal (sig : Signal)
  | exit
  deriving DecidableEq, Repr

section Program

variable {α : Type} (raw : α → α)

/-- `set_terminal(on)`, one step: where it goes on, or `none` at its end. -/
def setTerminal (on : Bool) (t : Term α) : Place → Term α × Option Place
  | .entry =>
    (t, if !t.termStatus && on then some .get
      else if t.termStatus && !on then some .reset
      else none)
  | .get => ({ t with termOrig := t.settings }, some .set)
  | .set => ({ t with settings := raw t.termOrig }, some .mark)
  | .mark => ({ t with termStatus := true }, none)
  | .reset => ({ t with settings := t.termOrig }, some .clear)
  | .clear => ({ t with termStatus := false }, none)

/-- The steps that are system calls. -/
def Place.isCall : Place → Bool
  | .get | .set | .reset => true
  | .entry | .mark | .clear => false

/-- Where the caller goes on, in or behind `set_terminal`. -/
def Pc.caller (on : Bool) : Option Place → Pc
  | some place => .setting on place
  | none => if on then .getc else .outside

/-- A handler exits behind `set_terminal`. -/
def Pc.ofHandler : Option Place → Pc
  | some place => .handler place
  | none => .exited

/-- One step. -/
def step (s : State α) : Event → Option (State α)
  | .prompt => if s.pc = .outside then some { s with pc := .setting true .entry } else none
  | .goesOn =>
    match s.pc with
    | .setting on place =>
      let (term, next) := setTerminal raw on s.term place
      some { s with pc := .caller on next, term := term }
    | .handler place =>
      let (term, next) := setTerminal raw false s.term place
      some { s with pc := .ofHandler next, term := term }
    | _ => none
  | .fails =>
    match s.pc with
    | .setting on place => if place.isCall then some { s with pc := .caller on none } else none
    | .handler place => if place.isCall then some { s with pc := .exited } else none
    | _ => none
  | .key => if s.pc = .getc then some { s with pc := .setting false .entry } else none
  | .signal sig =>
    if s.pc ≠ .exited ∧ sig ∉ s.blocked then
      some { s with pc := .handler .entry, blocked := sig :: s.blocked }
    else none
  | .exit => if s.pc = .outside then some { s with pc := .exited } else none

/-- The program begins: `term_orig` is not set yet. -/
def State.start (settings termOrig : α) : State α := ⟨.outside, ⟨settings, termOrig, false⟩, []⟩

end Program

/-! ## What is lost -/

section Restored

variable {α : Type} {raw : α → α} {settings : α} {s s' : State α} {e : Event}

/-- The call that brings the settings back works. -/
def ResetWorks (s : State α) (e : Event) : Prop :=
  e = .fails → s.pc ≠ .handler .reset ∧ ∀ on, s.pc ≠ .setting on .reset

/-- No signal comes between the call that switches and the assignment that records it. -/
def Recorded (s : State α) (e : Event) : Prop :=
  ∀ sig, e = .signal sig → s.pc ≠ .setting true .mark

/-- In `set_terminal`: what is known of the terminal that had these settings. -/
def Place.Settled (settings : α) (raw : α → α) (t : Term α) : Place → Prop
  | .entry =>
    (t.termStatus = false ∧ t.settings = settings) ∨ (t.termStatus = true ∧ t.termOrig = settings)
  | .get => t.termStatus = false ∧ t.settings = settings
  | .set => t.termStatus = false ∧ t.settings = settings ∧ t.termOrig = settings
  | .mark => t.termStatus = false ∧ t.settings = raw settings ∧ t.termOrig = settings
  | .reset => t.termStatus = true ∧ t.termOrig = settings
  | .clear => t.termStatus = true ∧ t.settings = settings ∧ t.termOrig = settings

/-- What is known of the terminal, wherever the program is. -/
def State.Settled (settings : α) (raw : α → α) (s : State α) : Prop :=
  match s.pc with
  | .outside => s.term.termStatus = false ∧ s.term.settings = settings
  | .setting on place => place.Settled settings raw s.term ∧
      (on = false → place ≠ .get ∧ place ≠ .set ∧ place ≠ .mark) ∧
      (on = true → place ≠ .reset ∧ place ≠ .clear)
  | .getc => Place.entry.Settled settings raw s.term
  | .handler place => place.Settled settings raw s.term ∧
      place ≠ .get ∧ place ≠ .set ∧ place ≠ .mark
  | .exited => s.term.settings = settings

/-- The settings are switched off and there is no record of it. -/
def State.Lost (settings : α) (raw : α → α) (s : State α) : Prop :=
  (s.pc = .handler .entry ∨ s.pc = .exited) ∧ s.term.termStatus = false ∧
    s.term.settings = raw settings

theorem settled_start (settings termOrig : α) :
    (State.start settings termOrig).Settled settings raw := ⟨rfl, rfl⟩

/-- Where a signal may come, its handler finds what `set_terminal` needs. -/
theorem Place.Settled.interrupted {place : Place} {t : Term α} (h : place.Settled settings raw t)
    (hmark : place ≠ .mark) : Place.entry.Settled settings raw t := by
  cases place with
  | entry => exact h
  | get => exact .inl h
  | set => exact .inl ⟨h.1, h.2.1⟩
  | mark => exact absurd rfl hmark
  | reset => exact .inr h
  | clear => exact .inr ⟨h.1, h.2.2⟩

/-- What `set_terminal` does first. -/
theorem setTerminal_entry (on : Bool) (t : Term α) :
    setTerminal raw on t .entry = (t, if t.termStatus = on then none
      else some (if on then .get else .reset)) := by
  unfold setTerminal
  cases t.termStatus <;> cases on <;> rfl

/-- **One step of `set_terminal`.** -/
theorem step_setting {on : Bool} {place : Place} {blocked : List Signal} {t : Term α}
    (hs : State.Settled settings raw ⟨.setting on place, t, blocked⟩) :
    State.Settled settings raw ⟨.caller on (setTerminal raw on t place).2,
      (setTerminal raw on t place).1, blocked⟩ := by
  obtain ⟨hplace, hoff, hon⟩ := hs
  cases place with
  | entry =>
    rw [setTerminal_entry]
    rcases hplace with ⟨hstatus, hsettings⟩ | ⟨hstatus, horig⟩
    · rw [show t.termStatus = false from hstatus]
      cases on with
      | false => exact ⟨hstatus, hsettings⟩
      | true => exact ⟨⟨hstatus, hsettings⟩, by simp, by simp⟩
    · rw [show t.termStatus = true from hstatus]
      cases on with
      | false => exact ⟨⟨hstatus, horig⟩, by simp, by simp⟩
      | true => exact .inr ⟨hstatus, horig⟩
  | get =>
    cases on with
    | false => exact absurd rfl (hoff rfl).1
    | true => exact ⟨⟨hplace.1, hplace.2, hplace.2⟩, by simp, by simp⟩
  | set =>
    cases on with
    | false => exact absurd rfl (hoff rfl).2.1
    | true => exact ⟨⟨hplace.1, congrArg raw hplace.2.2, hplace.2.2⟩, by simp, by simp⟩
  | mark =>
    cases on with
    | false => exact absurd rfl (hoff rfl).2.2
    | true => exact .inr ⟨rfl, hplace.2.2⟩
  | reset =>
    cases on with
    | false => exact ⟨⟨hplace.1, hplace.2, hplace.2⟩, by simp, by simp⟩
    | true => exact absurd rfl (hon rfl).1
  | clear =>
    cases on with
    | false => exact ⟨rfl, hplace.2.1⟩
    | true => exact absurd rfl (hon rfl).2

/-- One step of `set_terminal` in a handler. -/
theorem step_handler {place : Place} {blocked : List Signal} {t : Term α}
    (hs : State.Settled settings raw ⟨.handler place, t, blocked⟩) :
    State.Settled settings raw ⟨.ofHandler (setTerminal raw false t place).2,
      (setTerminal raw false t place).1, blocked⟩ := by
  obtain ⟨hplace, hget, hset, hmark⟩ := hs
  cases place with
  | entry =>
    rw [setTerminal_entry]
    rcases hplace with ⟨hstatus, hsettings⟩ | ⟨hstatus, horig⟩
    · rw [show t.termStatus = false from hstatus]
      exact hsettings
    · rw [show t.termStatus = true from hstatus]
      exact ⟨⟨hstatus, horig⟩, by simp, by simp, by simp⟩
  | get => exact absurd rfl hget
  | set => exact absurd rfl hset
  | mark => exact absurd rfl hmark
  | reset => exact ⟨⟨hplace.1, hplace.2, hplace.2⟩, by simp, by simp, by simp⟩
  | clear => exact hplace.2.1

/-- A failing call of `set_terminal` changes nothing. -/
theorem fails_setting {on : Bool} {place : Place} {blocked : List Signal} {t : Term α}
    (hs : State.Settled settings raw ⟨.setting on place, t, blocked⟩) (hcall : place.isCall = true)
    (hreset : place ≠ .reset) :
    State.Settled settings raw ⟨.caller on none, t, blocked⟩ := by
  obtain ⟨hplace, hoff, hon⟩ := hs
  cases on with
  | false =>
    cases place with
    | get => exact absurd rfl (hoff rfl).1
    | set => exact absurd rfl (hoff rfl).2.1
    | reset => exact absurd rfl hreset
    | entry | mark | clear => cases hcall
  | true =>
    refine hplace.interrupted fun hmark => ?_
    rw [hmark] at hcall
    cases hcall

/-- **Every step keeps what is known**, if it is recorded and brings the settings back. -/
theorem step_settled (hs : s.Settled settings raw) (hreset : ResetWorks s e)
    (hrecorded : Recorded s e) (h : step raw s e = some s') : s'.Settled settings raw := by
  obtain ⟨pc, t, blocked⟩ := s
  cases e with
  | prompt =>
    obtain ⟨hpc, h⟩ := Option.ite_none_right_eq_some.mp h
    obtain rfl : pc = .outside := hpc
    exact Option.some.inj h ▸ ⟨.inl hs, by simp, by simp⟩
  | goesOn =>
    cases pc with
    | setting on place => exact Option.some.inj h ▸ step_setting hs
    | handler place => exact Option.some.inj h ▸ step_handler hs
    | outside | getc | exited => cases h
  | fails =>
    cases pc with
    | setting on place =>
      obtain ⟨hcall, h⟩ := Option.ite_none_right_eq_some.mp h
      exact Option.some.inj h ▸ fails_setting hs hcall fun hplace =>
        (hreset rfl).2 on (hplace ▸ rfl)
    | handler place =>
      obtain ⟨hcall, h⟩ := Option.ite_none_right_eq_some.mp h
      obtain ⟨_, hget, hset, _⟩ := hs
      cases place with
      | reset => exact absurd rfl (hreset rfl).1
      | get => exact absurd rfl hget
      | set => exact absurd rfl hset
      | entry | mark | clear => cases hcall
    | outside | getc | exited => cases h
  | key =>
    obtain ⟨hpc, h⟩ := Option.ite_none_right_eq_some.mp h
    obtain rfl : pc = .getc := hpc
    exact Option.some.inj h ▸ ⟨hs, by simp, by simp⟩
  | signal sig =>
    obtain ⟨⟨hexited, _⟩, h⟩ := Option.ite_none_right_eq_some.mp h
    refine Option.some.inj h ▸ ⟨?_, by simp, by simp, by simp⟩
    cases pc with
    | outside => exact .inl hs
    | setting on place =>
      refine hs.1.interrupted fun hmark => ?_
      cases on with
      | false => exact (hs.2.1 rfl).2.2 hmark
      | true => exact hrecorded sig rfl (hmark ▸ rfl)
    | getc => exact hs
    | handler place => exact hs.1.interrupted hs.2.2.2
    | exited => exact absurd rfl hexited
  | exit =>
    obtain ⟨hpc, h⟩ := Option.ite_none_right_eq_some.mp h
    obtain rfl : pc = .outside := hpc
    exact Option.some.inj h ▸ hs.2

/-- A signal in between finds the settings switched off, and no record of it. -/
theorem lost_of_signal (hs : s.Settled settings raw) {sig : Signal}
    (hmark : s.pc = .setting true .mark) (h : step raw s (.signal sig) = some s') :
    s'.Lost settings raw := by
  obtain ⟨_, h⟩ := Option.ite_none_right_eq_some.mp h
  simp only [State.Settled, hmark] at hs
  exact Option.some.inj h ▸ ⟨.inl rfl, hs.1.1, hs.1.2.1⟩

/-- **What is lost stays lost.** -/
theorem step_lost (hs : s.Lost settings raw) (h : step raw s e = some s') :
    s'.Lost settings raw := by
  obtain ⟨pc, t, blocked⟩ := s
  obtain ⟨hpc, hstatus, hsettings⟩ := hs
  rcases hpc with hpc | hpc <;> obtain rfl : pc = _ := hpc
  · cases e with
    | goesOn =>
      have hend : setTerminal raw false t .entry = (t, none) := by
        rw [setTerminal_entry, if_pos hstatus]
      simp only [step, hend] at h
      exact Option.some.inj h ▸ ⟨.inr rfl, hstatus, hsettings⟩
    | signal sig =>
      obtain ⟨_, h⟩ := Option.ite_none_right_eq_some.mp h
      exact Option.some.inj h ▸ ⟨.inl rfl, hstatus, hsettings⟩
    | prompt | fails | key | exit => cases h
  · cases e with
    | signal sig => exact absurd h (by simp [step])
    | prompt | goesOn | fails | key | exit => cases h

/-- A run in which something is not recorded is lost at its end. -/
theorem recorded_or_lost {es : List Event} (hs : s.Settled settings raw)
    (hrun : run (step raw) s es = some s') (hreset : Along (step raw) ResetWorks s es) :
    Along (step raw) Recorded s es ∨ s'.Lost settings raw := by
  induction es generalizing s with
  | nil => exact Or.inl trivial
  | cons e es ih =>
    obtain ⟨s₁, hstep, hrest⟩ := Option.bind_eq_some_iff.mp hrun
    by_cases hrecorded : Recorded s e
    · have hnext := ih (step_settled hs hreset.1 hrecorded hstep) hrest (hreset.2 s₁ hstep)
      exact hnext.imp_left (.cons hrecorded hstep)
    · -- the handler finds nothing to bring back, and neither does any step behind it
      obtain ⟨sig, rfl, hmark⟩ : ∃ sig, e = .signal sig ∧ s.pc = .setting true .mark := by
        simpa [Recorded] using hrecorded
      exact Or.inr (run_inv (State.Lost settings raw) (fun _ _ _ h _ h' => step_lost h h')
        (lost_of_signal hs hmark hstep) (along_true _ _ _) hrest)

/-- **The settings at the exit.** In every run, with signals wherever they come, and with calls that
fail except those that bring the settings back: at the exit the terminal is as it was if and only if
no signal has come between the call that switches and the assignment that records it; after such a
signal it has the settings of the prompt. -/
theorem settings_restored_iff (hraw : raw settings ≠ settings) {termOrig : α} {es : List Event}
    (hrun : run (step raw) (.start settings termOrig) es = some s)
    (hreset : Along (step raw) ResetWorks (.start settings termOrig) es) (hexit : s.pc = .exited) :
    (s.term.settings = settings ↔ Along (step raw) Recorded (.start settings termOrig) es) ∧
      (¬ Along (step raw) Recorded (.start settings termOrig) es →
        s.term.settings = raw settings) := by
  have hstart := @settled_start α raw settings termOrig
  have hends := recorded_or_lost hstart hrun hreset
  refine ⟨⟨fun hrestored => ?_, fun hrecorded => ?_⟩, fun hnot => ?_⟩
  · exact hends.resolve_right fun hlost => hraw (hlost.2.2.symm.trans hrestored)
  · have hsettled : s.Settled settings raw := run_inv (State.Settled settings raw)
      (fun _ _ _ hs hboth h => step_settled hs hboth.1 hboth.2 h) hstart
      (hreset.and hrecorded) hrun
    simpa only [State.Settled, hexit] using hsettled
  · exact (hends.resolve_left hnot).2.2

end Restored

/-- The user interface is terminated while it waits for a key. -/
def waitingRun : List Event :=
  [.prompt, .goesOn, .goesOn, .goesOn, .goesOn, .signal .sigterm, .goesOn, .goesOn, .goesOn]

/-- It is terminated one step before that. -/
def switchingRun : List Event :=
  [.prompt, .goesOn, .goesOn, .goesOn, .signal .sigterm, .goesOn]

theorem settings_restored_iff_switchingRun :
    (∃ s, run (step fun _ => true) (.start false false) waitingRun = some s ∧
      s.term.settings = false) ∧
    ∃ s, run (step fun _ => true) (.start false false) switchingRun = some s ∧
      ¬ Along (step fun _ => true) Recorded (.start false false) switchingRun ∧
      s.term.settings = true := by
  refine ⟨⟨_, rfl, rfl⟩, ?_⟩
  obtain ⟨s, hrun⟩ : ∃ s, run (step fun _ => true) (.start false false) switchingRun = some s :=
    ⟨_, rfl⟩
  have hreset : Along (step fun _ => true) ResetWorks (.start false false) switchingRun :=
    along_of_events _ fun e he s hfails => by
      rw [hfails] at he
      exact absurd he (by decide)
  have hexit : s.pc = .exited := by
    obtain rfl := Option.some.inj hrun
    rfl
  obtain ⟨hiff, hlost⟩ := settings_restored_iff (by decide) hrun hreset hexit
  have hnot : ¬ Along (step fun _ => true) Recorded (.start false false) switchingRun := by
    intro hrecorded
    have hrestored := hiff.mpr hrecorded
    obtain rfl := Option.some.inj hrun
    cases hrestored
  exact ⟨s, hrun, hnot, hlost hnot⟩

end Sysload.SetTerminal
