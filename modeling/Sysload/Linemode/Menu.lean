import Sysload.Linemode.Terminal

/-!
# The menu of the line mode user interface (`ui_linemode.c`)

The menu loop of `main`: it reads a line, finds the boot entry that is selected, asks for the password
if the entry is locked, and does what the command says, round after round until a boot entry is to be
booted. That is emitted behind the loop, after its `pause`.

Source: `src/core/ui_linemode.c`, `main`. Out of scope are the layout of the menu and the signal to
the parent that stops the timeout.

Results:
* `total_round`: one round comes to an end, and nothing is done in it with a locked entry before its
  password was right.
* **`session_gated`**: so it is in every round of a session.
-/

namespace Sysload.Linemode

variable (config : CfgToplevel)

/-! ## One round -/

/-- The boot entry that a line selects, with the command: none if the line is blank, or if there is
no such entry. Without a number it is the default. -/
def selection (input : CStr) : Option (Char × Nat × CfgBentry) :=
  if isBlank input then none
  else
    let (command, number) := computeSelection input
    let selected := if number ≠ 0 then number - 1 else config.bootDefault
    if selected < 0 ∨ (config.bentryList.length : Int) - 1 < selected then none
    else (config.bentryList[selected.toNat]?).map fun bentry => (command, selected.toNat, bentry)

/-- A round as far as the selection: `fgets` leaves the buffer as it is at the end of input, and the
last character is cut off in either case. -/
def readSelection : UiM (Option (Char × Nat × CfgBentry)) := do
  let line ← fgets
  log (.delivered line)
  let t ← get
  match line.getD t.buffer with
  -- input[strlen(input) - 1] lies in front of the array
  | [] => throw .overrun
  | buffer => do
    setBuffer buffer.dropLast
    match selection config buffer.dropLast with
    | none => pure none
    | some (command, i, bentry) => do
      log (.selected i)
      pure (some (command, i, bentry))

/-- The password of a locked entry: whether the round goes on. -/
def unlock (i : Nat) (bentry : CfgBentry) : UiM Bool :=
  if bentry.locked ≠ 0 then do
    if ← password config.password then do
      log (.passwordOk i)
      pure true
    else pure false
  else pure true

/-- The end of the commands `i` and `m`: the boot entry is booted if the key is a `B`. -/
def confirm (source : Source) (bentry : Bentry) : UiM (Option (Source × Bentry)) := do
  printSelection source bentry
  let command ← keypressed
  if command = eof then pure none
  else if command = 'B' ∨ command = 'b' then
    pure (some (source, { bentry with
      title := some "manual_title".toList, label := some "manual_label".toList }))
  else pure none

/-- The command `m` up to the confirmation: `none` if the entry cannot be modified. -/
def modifyEntry (i : Nat) (temp : Bentry) : UiM (Option Bentry) :=
  match temp.action with
  | .kernelBoot => do
    printSelection (.entry i) temp
    let bentry ← getManBoot temp.action.toInt
    let root ← assignInput bentry.root temp.root
    let kernel ← assignInput bentry.kernel temp.kernel
    let initrd ← assignInput bentry.initrd temp.initrd
    let cmdline ← assignInput bentry.cmdline temp.cmdline
    let parmfile ← assignInput bentry.parmfile temp.parmfile
    pure (some { bentry with
      root := root, kernel := kernel, initrd := initrd, cmdline := cmdline, parmfile := parmfile })
  | .insfileBoot => do
    printSelection (.entry i) temp
    let bentry ← getManBoot temp.action.toInt
    let insfile ← deref bentry.insfile
    pure (some (if insfile.length = 0 then { bentry with insfile := temp.insfile } else bentry))
  | .bootmapBoot => do
    printSelection (.entry i) temp
    let bentry ← getManBoot temp.action.toInt
    let bootmap ← deref bentry.bootmap
    pure (some (if bootmap.length = 0 ∨ isBlank bootmap then { bentry with bootmap := temp.bootmap }
      else bentry))
  | .reboot | .halt | .shell | .exit => pure none

/-- The command, for an entry of the configuration: the boot entry with which the loop is left, if
it is. -/
def serve (i : Nat) (bentry : CfgBentry) (command : Char) : UiM (Option (Source × Bentry)) :=
  if command = 'd' ∨ command = 'D' then do
    printSelection (.entry i) (.ofConfig bentry)
    let _ ← keypressed
    pure none
  else if command = 'i' ∨ command = 'I' then do
    let bentry ← getManBoot (-1)
    confirm .manual bentry
  else if command = 'm' ∨ command = 'M' then do
    log (.modify i)
    match ← modifyEntry i (.ofConfig bentry) with
    | some bentry => confirm (.modified i) bentry
    | none => pure none
  else if command = nul then pure (some (.entry i, .ofConfig bentry))
  else pure none

/-- The pause of a boot entry: a line is read. -/
def pauseEntry (bentry : Bentry) : UiM Unit :=
  match bentry.pause with
  | none | some [] => pure ()
  | some _ => do
    let line ← fgets
    let t ← get
    setBuffer (line.getD t.buffer)

/-- Behind the loop: the pause, and the boot entry on standard output. -/
def finish (source : Source) (bentry : Bentry) : UiM Unit := do
  pauseEntry bentry
  log (.emitted source bentry)

/-- The end of a round: `true` if the loop is left. -/
def leave (left : Option (Source × Bentry)) : UiM Bool :=
  match left with
  | none => pure false
  | some (source, bentry) => do
    finish source bentry
    pure true

/-- One round of the menu loop, with what follows if it is the last: `true` if it is. -/
def round : UiM Bool := do
  match ← readSelection config with
  | none => pure false
  | some (command, i, bentry) =>
    if ← unlock config i bentry then
      let left ← serve i bentry command
      leave left
    else pure false

/-- The rounds of a session from a state on, with the state before each of them and its events. The
session ends with its last round, or goes on with another one. -/
inductive Session : Tty → List (Tty × List Event) → Prop
  | start (t : Tty) : Session t []
  | last {t t' : Tty} {r : Except Halt Bool} :
    (round config).Runs { t with events := [] } r t' → r ≠ .ok false →
    Session t [(t, t'.events)]
  | next {t t' : Tty} {rounds : List (Tty × List Event)} :
    (round config).Runs { t with events := [] } (.ok false) t' → Session t' rounds →
    Session t ((t, t'.events) :: rounds)

/-- The state before the first round. -/
def Tty.start (input : List Char) : Tty := ⟨input, [], []⟩

/-! ## Locked entries -/

/-- The entry of the configuration that a boot entry comes from. -/
def Source.ofConfig : Source → Option Nat
  | entry i | modified i => some i
  | manual => none

/-- The entry of the configuration whose parameters are shown, modified or emitted. -/
def Event.concerns : Event → Option Nat
  | shown source _ | emitted source _ => source.ofConfig
  | modify i => some i
  | delivered _ | selected _ | passwordOk _ => none

/-- Entry `i` is locked. -/
def Locked (i : Nat) : Prop := ∃ bentry, config.bentryList[i]? = some bentry ∧ bentry.locked ≠ 0

/-- Whenever something is done with a locked entry, its password was right before. -/
def Gated (events : List Event) : Prop :=
  ∀ before e after i, events = before ++ e :: after → e.concerns = some i → Locked config i →
    .passwordOk i ∈ before

variable {config}

theorem gated_nil : Gated config [] := by
  intro before e after i h
  exact absurd h (by simp)

/-- One more event. -/
theorem Gated.log {events : List Event} {e : Event} (h : Gated config events)
    (he : ∀ i, e.concerns = some i → Locked config i → .passwordOk i ∈ events) :
    Gated config (events ++ [e]) := by
  intro before e' after i heq hconcerns hlocked
  rcases List.eq_nil_or_concat after with rfl | ⟨after', x, rfl⟩
  · obtain ⟨rfl, hx⟩ := List.append_inj' heq rfl
    obtain rfl := List.head_eq_of_cons_eq hx
    exact he i hconcerns hlocked
  · rw [List.concat_eq_append, ← List.cons_append, ← List.append_assoc] at heq
    exact h before e' after' i (List.append_inj' heq rfl).1 hconcerns hlocked

/-- What holds behind the password of entry `i`. -/
def Unlocked (config : CfgToplevel) (i : Nat) (events : List Event) : Prop :=
  Gated config events ∧ (Locked config i → .passwordOk i ∈ events)

/-- What concerns no other entry. -/
def Event.About (i : Nat) (e : Event) : Prop := ∀ j, e.concerns = some j → j = i

theorem Unlocked.log {i : Nat} {events : List Event} {e : Event} (h : Unlocked config i events)
    (he : e.About i) : Unlocked config i (events ++ [e]) := by
  refine ⟨h.1.log fun j hj hlocked => ?_, fun hlocked => List.mem_append_left _ (h.2 hlocked)⟩
  obtain rfl := he j hj
  exact h.2 hlocked

/-- A source that is entry `i` of the configuration, or none of its entries. -/
def Source.Of (i : Nat) (source : Source) : Prop := ∀ j, source.ofConfig = some j → j = i

theorem Source.of_entry (i : Nat) : (Source.entry i).Of i := fun _ hj => (Option.some.inj hj).symm

theorem Source.of_modified (i : Nat) : (Source.modified i).Of i :=
  fun _ hj => (Option.some.inj hj).symm

theorem Source.of_manual (i : Nat) : Source.manual.Of i := fun _ hj => absurd hj (by simp [ofConfig])

/-- What can be observed of a command for entry `i`. -/
inductive Event.OfCommand (i : Nat) : Event → Prop
  | shown {source : Source} {bentry : Bentry} : source.Of i → OfCommand i (.shown source bentry)
  | modify : OfCommand i (.modify i)

theorem Event.OfCommand.about {i : Nat} {e : Event} (h : e.OfCommand i) : e.About i := by
  cases h with
  | shown h => exact h
  | modify => exact fun _ hj => (Option.some.inj hj).symm

section Total

open Routine

variable {P : List Event → Prop} {i : Nat}

/-- Up to the selection there are two events. -/
theorem total_readSelection (hdelivered : ∀ events line, P events → P (events ++ [.delivered line]))
    (hselected : ∀ events i, P events → P (events ++ [.selected i])) :
    Total (fun t => P t.events) (readSelection config) := by
  refine total_fgets.bind fun line => (total_log fun _ h => hdelivered _ _ h).bind fun _ =>
    total_get.bind fun t => ?_
  split
  · exact total_throw _
  · refine (total_setBuffer _).bind fun _ => ?_
    split
    · exact total_pure _
    · exact (total_log fun _ h => hselected _ _ h).bind fun _ => total_pure _

theorem total_unlock (hP : ∀ events, P events → P (events ++ [.passwordOk i]))
    (bentry : CfgBentry) : Total (fun t => P t.events) (unlock config i bentry) := by
  unfold unlock
  split
  · refine (total_password _).bind fun ok => ?_
    split
    · exact (total_log hP).bind fun _ => total_pure _
    · exact total_pure _
  · exact total_pure _

theorem total_confirm (hP : ∀ events e, P events → e.OfCommand i → P (events ++ [e]))
    {source : Source} (h : source.Of i) (bentry : Bentry) :
    Total (fun t => P t.events) (confirm source bentry) := by
  refine (total_log fun _ hevents => hP _ _ hevents (.shown h)).bind fun _ =>
    total_keypressed.bind fun command => ?_
  split
  · exact total_pure _
  · split <;> exact total_pure _

theorem total_modifyEntry (hP : ∀ events e, P events → e.OfCommand i → P (events ++ [e]))
    (temp : Bentry) : Total (fun t => P t.events) (modifyEntry i temp) := by
  have hshow : Total (fun t => P t.events) (printSelection (.entry i) temp) :=
    total_log fun _ hevents => hP _ _ hevents (.shown (Source.of_entry i))
  unfold modifyEntry
  split
  · exact hshow.bind fun _ => (total_getManBoot _).bind fun _ => (total_assignInput _ _).bind
      fun _ => (total_assignInput _ _).bind fun _ => (total_assignInput _ _).bind fun _ =>
      (total_assignInput _ _).bind fun _ => (total_assignInput _ _).bind fun _ => total_pure _
  · exact hshow.bind fun _ => (total_getManBoot _).bind fun _ => (total_deref _).bind fun _ =>
      total_pure _
  · exact hshow.bind fun _ => (total_getManBoot _).bind fun _ => (total_deref _).bind fun _ =>
      total_pure _
  all_goals exact total_pure _

/-- **A command** comes to an end, and is observed as one for the entry that is selected. -/
theorem total_serve (hP : ∀ events e, P events → e.OfCommand i → P (events ++ [e]))
    (bentry : CfgBentry) (command : Char) :
    Total (fun t => P t.events) (serve i bentry command) := by
  unfold serve
  split
  · exact (total_log fun _ hevents => hP _ _ hevents (.shown (Source.of_entry i))).bind fun _ =>
      total_keypressed.bind fun _ => total_pure _
  split
  · exact (total_getManBoot _).bind fun bentry => total_confirm hP (Source.of_manual i) bentry
  split
  · refine (total_log fun _ hevents => hP _ _ hevents .modify).bind fun _ =>
      (total_modifyEntry hP _).bind fun r => ?_
    split
    · exact total_confirm hP (Source.of_modified i) _
    · exact total_pure _
  split <;> exact total_pure _

theorem total_pauseEntry (bentry : Bentry) :
    Total (fun t => P t.events) (pauseEntry bentry) := by
  unfold pauseEntry
  split
  · exact total_pure _
  · exact total_pure _
  · exact total_fgets.bind fun line => total_get.bind fun t => total_setBuffer _

/-- The pause does not fail. -/
theorem pauseEntry_ok {bentry : Bentry} {t t' : Tty} {r : Except Halt Unit}
    (h : (pauseEntry bentry).Runs t r t') : r = .ok () := by
  unfold pauseEntry at h
  split at h
  · exact (runs_pure.mp h).1.symm
  · exact (runs_pure.mp h).1.symm
  · rw [runs_bind_of_ok (fgets_runs t), runs_get_bind] at h
    exact (runs_modify.mp h).1.symm

/-- **The end of a session**: the boot entry is emitted. -/
theorem leave_some (source : Source) (bentry : Bentry) (t : Tty) :
    ∃ t', (leave (some (source, bentry))).Runs t (.ok true) t' ∧
      t'.events = t.events ++ [.emitted source bentry] := by
  obtain ⟨r, t₁, hpause, hevents⟩ :=
    total_pauseEntry (P := fun events => events = t.events) bentry t rfl
  obtain rfl := pauseEntry_ok hpause
  have hfinish : (finish source bentry).Runs t (.ok ()) { t₁ with
      events := t₁.events ++ [.emitted source bentry] } :=
    (runs_bind_of_ok hpause).mpr (log_runs _ _)
  exact ⟨_, (runs_bind_of_ok hfinish).mpr (runs_pure.mpr ⟨rfl, rfl⟩), by rw [hevents]⟩

end Total

/-! ## What a round is made of -/

theorem selection_some {input : CStr} {command : Char} {i : Nat} {bentry : CfgBentry}
    (h : selection config input = some (command, i, bentry)) :
    config.bentryList[i]? = some bentry := by
  unfold selection at h
  by_cases hblank : isBlank input = true
  · rw [if_pos hblank] at h
    cases h
  · rw [if_neg hblank] at h
    dsimp only at h
    generalize (if (computeSelection input).2 ≠ 0 then (computeSelection input).2 - 1
      else config.bootDefault) = selected at h
    obtain ⟨_, h⟩ := Option.ite_none_left_eq_some.mp h
    obtain ⟨b, hb, heq⟩ := Option.map_eq_some_iff.mp h
    obtain ⟨_, hi, rfl⟩ := Prod.mk.inj heq |>.imp_right Prod.mk.inj
    exact hi ▸ hb

/-- An entry that is selected is one of the configuration. -/
theorem readSelection_some {t t' : Tty} {command : Char} {i : Nat} {bentry : CfgBentry}
    (h : (readSelection config).Runs t (.ok (some (command, i, bentry))) t') :
    config.bentryList[i]? = some bentry := by
  obtain ⟨line, t₁, _, h⟩ := Routine.runs_bind_ok.mp h
  obtain ⟨_, t₂, _, h⟩ := Routine.runs_bind_ok.mp h
  rw [Routine.runs_get_bind] at h
  split at h
  · exact absurd (Routine.runs_throw.mp h).1 (by simp)
  · obtain ⟨_, t₃, _, h⟩ := Routine.runs_bind_ok.mp h
    split at h
    · exact absurd (Routine.runs_pure.mp h).1 (by simp)
    · rename_i heq
      obtain ⟨_, t₄, _, h⟩ := Routine.runs_bind_ok.mp h
      obtain ⟨hr, _⟩ := Routine.runs_pure.mp h
      exact selection_some (heq.trans (Except.ok.inj hr))

/-- Where the round goes on, the password of a locked entry was right. -/
theorem unlock_true {i : Nat} {bentry : CfgBentry} {t t' : Tty} (hlocked : bentry.locked ≠ 0)
    (h : (unlock config i bentry).Runs t (.ok true) t') : .passwordOk i ∈ t'.events := by
  rw [unlock, if_pos hlocked] at h
  obtain ⟨ok, t₁, _, h⟩ := Routine.runs_bind_ok.mp h
  split at h
  · obtain ⟨_, t₂, hlog, h⟩ := Routine.runs_bind_ok.mp h
    obtain ⟨_, rfl⟩ := Routine.runs_modify.mp hlog
    obtain ⟨_, rfl⟩ := Routine.runs_pure.mp h
    exact List.mem_append_right _ List.mem_cons_self
  · exact absurd (Routine.runs_pure.mp h).1 (by simp)

theorem confirm_source {source source' : Source} {bentry bentry' : Bentry} {t t' : Tty}
    (h : (confirm source bentry).Runs t (.ok (some (source', bentry'))) t') : source' = source := by
  obtain ⟨_, t₁, _, h⟩ := Routine.runs_bind_ok.mp h
  obtain ⟨command, t₂, _, h⟩ := Routine.runs_bind_ok.mp h
  split at h
  · exact absurd (Routine.runs_pure.mp h).1 (by simp)
  · split at h
    · obtain ⟨hr, _⟩ := Routine.runs_pure.mp h
      exact (Prod.mk.inj (Option.some.inj (Except.ok.inj hr))).1.symm
    · exact absurd (Routine.runs_pure.mp h).1 (by simp)

/-- **The loop is left** with the entry that is selected, if there is no command, with a modification
of it, or with an entry that was typed in. -/
theorem serve_source {i : Nat} {bentry : CfgBentry} {command : Char} {t t' : Tty} {source : Source}
    {bentry' : Bentry} (h : (serve i bentry command).Runs t (.ok (some (source, bentry'))) t') :
    (command = nul ∧ source = .entry i ∧ bentry' = .ofConfig bentry ∧ t' = t) ∨
      (command ≠ nul ∧ (source = .modified i ∨ source = .manual)) := by
  have hnul : ∀ c : Char, c ≠ nul → command = c → command ≠ nul := fun c hc heq => heq ▸ hc
  unfold serve at h
  split at h
  · obtain ⟨_, t₁, _, h⟩ := Routine.runs_bind_ok.mp h
    obtain ⟨_, t₂, _, h⟩ := Routine.runs_bind_ok.mp h
    exact absurd (Routine.runs_pure.mp h).1 (by simp)
  split at h
  · rename_i hcommand
    obtain ⟨_, t₁, _, h⟩ := Routine.runs_bind_ok.mp h
    refine Or.inr ⟨?_, Or.inr (confirm_source h)⟩
    exact hcommand.elim (hnul 'i' (by decide)) (hnul 'I' (by decide))
  split at h
  · rename_i hcommand
    obtain ⟨_, t₁, _, h⟩ := Routine.runs_bind_ok.mp h
    obtain ⟨r, t₂, _, h⟩ := Routine.runs_bind_ok.mp h
    refine Or.inr ⟨hcommand.elim (hnul 'm' (by decide)) (hnul 'M' (by decide)), ?_⟩
    split at h
    · exact Or.inl (confirm_source h)
    · exact absurd (Routine.runs_pure.mp h).1 (by simp)
  split at h
  · rename_i hcommand
    obtain ⟨hr, rfl⟩ := Routine.runs_pure.mp h
    obtain ⟨rfl, rfl⟩ := Prod.mk.inj (Option.some.inj (Except.ok.inj hr))
    exact Or.inl ⟨hcommand, rfl, rfl, rfl⟩
  · exact absurd (Routine.runs_pure.mp h).1 (by simp)

/-- **One round** comes to an end, and nothing is done in it with a locked entry before its password
was right. -/
theorem total_round : Routine.Total (fun t => Gated config t.events) (round config) := by
  intro t ht
  have hread := @total_readSelection config (Gated config)
    (fun _ _ h => h.log fun _ hi => absurd hi (by simp [Event.concerns]))
    (fun _ _ h => h.log fun _ hi => absurd hi (by simp [Event.concerns]))
  refine hread.bind_of ht (fun _ h => h) fun found t₁ hread ht₁ => ?_
  cases found with
  | none => exact Routine.total_pure false t₁ ht₁
  | some found =>
    obtain ⟨command, i, bentry⟩ := found
    have hentry := readSelection_some hread
    have hunlock := @total_unlock config (Gated config) i
      (fun _ h => h.log fun _ hi => absurd hi (by simp [Event.concerns])) bentry
    refine hunlock.bind_of ht₁ (fun _ h => h) fun ok t₂ hunlock ht₂ => ?_
    cases ok with
    | false => exact Routine.total_pure false t₂ ht₂
    | true =>
      have hunlocked : Unlocked config i t₂.events := by
        refine ⟨ht₂, ?_⟩
        rintro ⟨bentry', hentry', hlocked⟩
        obtain rfl := Option.some.inj (hentry.symm.trans hentry')
        exact unlock_true hlocked hunlock
      have hserve := @total_serve (Unlocked config i) i (fun _ _ h he => h.log he.about) bentry command
      refine hserve.bind_of hunlocked (fun _ h => h.1) fun left t₃ hserve ht₃ => ?_
      cases left with
      | none => exact Routine.total_pure false t₃ ht₃.1
      | some left =>
        obtain ⟨source, bentry'⟩ := left
        have hof : source.Of i := by
          rcases serve_source hserve with ⟨_, rfl, _⟩ | ⟨_, rfl | rfl⟩
          · exact Source.of_entry i
          · exact Source.of_modified i
          · exact Source.of_manual i
        obtain ⟨t₄, hleave, hevents⟩ := leave_some source bentry' t₃
        refine ⟨_, t₄, hleave, ?_⟩
        rw [hevents]
        exact (ht₃.log (e := .emitted source bentry') hof).1

/-- **Locked entries are gated**: in every round of a session, whenever the parameters of a locked
entry are shown or modified, or the entry or a modification of it is emitted, its password was right
before in the same round. -/
theorem session_gated {t : Tty} {rounds : List (Tty × List Event)} (h : Session config t rounds) :
    ∀ round ∈ rounds, Gated config round.2 := by
  induction h with
  | start t => exact fun _ hmem => absurd hmem List.not_mem_nil
  | last hround _ =>
    intro round hmem
    obtain rfl := List.mem_singleton.mp hmem
    exact total_round.keeps _ _ _ gated_nil hround
  | next hround _ ih =>
    intro round hmem
    rcases List.mem_cons.mp hmem with rfl | hmem
    · exact total_round.keeps _ _ _ gated_nil hround
    · exact ih round hmem

/-- A boot entry that is locked. -/
def lockedEntry : CfgBentry :=
  { CfgBentry.init with title := ['a'], kernel := ['k'], locked := 1 }

/-- A configuration with that entry. -/
def lockedConfig : CfgToplevel :=
  { CfgToplevel.init with password := ['p', 'w'], bentryList := [lockedEntry] }

theorem lockedConfig_round : (round lockedConfig).Runs (.start ['1', '\n', 'p', 'w', '\n']) (.ok true)
    ⟨[], ['1'], [.delivered (some ['1', '\n']), .selected 0, .passwordOk 0,
      .emitted (.entry 0) (.ofConfig lockedEntry)]⟩ := ⟨0, rfl⟩

/-- The rule holds of a session in which the locked entry is selected by its number. -/
theorem session_gated_lockedConfig : Gated lockedConfig [.delivered (some ['1', '\n']), .selected 0,
    .passwordOk 0, .emitted (.entry 0) (.ofConfig lockedEntry)] := by
  have hlast : Session lockedConfig (.start ['1', '\n', 'p', 'w', '\n']) _ :=
    .last lockedConfig_round (by simp)
  exact session_gated hlast _ List.mem_cons_self

end Sysload.Linemode
