import Sysload.Linemode.Menu

/-!
# Modifying a boot entry (`ui_linemode.c`)

The command `m` shows an entry, asks for its new values, and keeps the old value of a line that is
empty. `get_man_boot` is called with the action of the entry as its type, but looks at the type only
to ask for an action if it is negative: for any other type its `action` is still 0, and it asks for the
five fields of `KERNEL_BOOT`.

Source: `src/core/ui_linemode.c`, `get_man_boot` and the command `m` of `main`.

Results:
* `asks_modifyEntry_kernel`: a kernel entry takes five lines.
* `modifyEntry_overrun`: for the other actions a field is read that was not asked for.
* **`modifyNothing_iff`**: to modify nothing changes nothing just for a kernel entry.
-/

namespace Sysload.Linemode

variable (config : CfgToplevel)

/-- The fields that `loader` uses for an action. -/
def usedFields : BootAction → List (Bentry → Option CStr)
  | .kernelBoot => [(·.root), (·.kernel), (·.initrd), (·.cmdline), (·.parmfile)]
  | .insfileBoot => [(·.root), (·.insfile), (·.cmdline)]
  | .bootmapBoot => [(·.root), (·.bootmap), (·.cmdline), (·.parmfile)]
  | .reboot | .halt | .shell | .exit => []

/-- In a round from `t`, entry `i` is selected with the command `m`, and the password was right if it
is locked: the round is in `t₁` then. -/
def Commanded (t : Tty) (i : Nat) (bentry : CfgBentry) (t₁ : Tty) : Prop :=
  ∃ command t₀, (command = 'm' ∨ command = 'M') ∧
    (readSelection config).Runs t (.ok (some (command, i, bentry))) t₀ ∧
    (unlock config i bentry).Runs t₀ (.ok true) t₁

/-- Each prompt for a new value is answered by an empty line, and a `B` comes behind the last one. -/
def AnsweredEmpty (i : Nat) (bentry : CfgBentry) (t : Tty) : Prop :=
  ∃ n rest, t.input = List.replicate n '\n' ++ 'B' :: rest ∧
    ∃ r t', (modifyEntry i (.ofConfig bentry)).Runs { t with events := t.events ++ [.modify i] } r t' ∧
      t'.input = 'B' :: rest

/-- The round from `t` is the last one, and emits entry `i` with the same action and the same value of
each field that is used for it. -/
def Unchanged (t : Tty) (i : Nat) (bentry : CfgBentry) : Prop :=
  ∃ t' entry, (round config).Runs t (.ok true) t' ∧
    t'.events.getLast? = some (.emitted (.modified i) entry) ∧
    entry.action = bentry.action ∧
    ∀ field ∈ usedFields bentry.action, field entry = field (.ofConfig bentry)

variable {config}

/-! ## Prompts -/

/-- `x` asks for `k` lines: of empty lines it reads `k`, if there are as many, else it reads on behind
them. -/
structure Asks {α : Type} (k : Nat) (x : UiM α) : Prop where
  shrinks : ∀ t r t', x.Runs t r t' → t'.input.length ≤ t.input.length
  prompts : ∀ n t r t' c rest, c ≠ '\n' → t.input = List.replicate n '\n' ++ c :: rest →
    x.Runs t r t' → t'.input = c :: rest → n = k

/-- `x` reads nothing. -/
def Quiet {α : Type} (x : UiM α) : Prop := ∀ t r t', x.Runs t r t' → t'.input = t.input

section Asks

variable {α β : Type}

theorem replicate_newline {n : Nat} {c : Char} {rest : List Char}
    (h : List.replicate n '\n' ++ c :: rest = c :: rest) : n = 0 := by
  have hlen := congrArg List.length h
  rw [List.length_append, List.length_replicate] at hlen
  omega

theorem quiet_pure (a : α) : Quiet (pure a) := by
  intro t r t' h
  rw [(Routine.runs_pure.mp h).2]

theorem quiet_deref (str : Option CStr) : Quiet (deref str) := by
  intro t r t' h
  cases str with
  | none => rw [(Routine.runs_throw.mp h).2]
  | some str => exact quiet_pure str t r t' h

theorem Quiet.bind {x : UiM α} {f : α → UiM β} (hx : Quiet x) (hf : ∀ a, Quiet (f a)) :
    Quiet (x >>= f) := by
  intro t r t' h
  rcases Routine.runs_bind.mp h with ⟨a, t₁, h₁, h₂⟩ | ⟨e, h₁, _⟩
  · exact (hf a t₁ r t' h₂).trans (hx t _ t₁ h₁)
  · exact hx t _ t' h₁

theorem quiet_assignInput (x y : Option CStr) : Quiet (assignInput x y) := by
  refine (quiet_deref x).bind fun str => ?_
  split
  · exact quiet_pure _
  · split <;> exact quiet_pure _

/-- What reads nothing asks for nothing. -/
theorem Quiet.asks {x : UiM α} (hx : Quiet x) : Asks 0 x where
  shrinks := fun t r t' h => Nat.le_of_eq (congrArg List.length (hx t r t' h))
  prompts := fun _ t r t' _ _ _ hinput h hrest =>
    replicate_newline (hinput.symm.trans ((hx t r t' h).symm.trans hrest))

/-- What reads nothing does not count behind the prompts. -/
theorem Asks.bind_quiet {k : Nat} {x : UiM α} {f : α → UiM β} (hx : Asks k x)
    (hf : ∀ a, Quiet (f a)) : Asks k (x >>= f) := by
  have hsplit : ∀ {t r t'}, (x >>= f).Runs t r t' →
      ∃ r₁ t₁, x.Runs t r₁ t₁ ∧ t'.input = t₁.input := by
    intro t r t' h
    rcases Routine.runs_bind.mp h with ⟨a, t₁, h₁, h₂⟩ | ⟨e, h₁, _⟩
    · exact ⟨_, t₁, h₁, hf a t₁ r t' h₂⟩
    · exact ⟨_, t', h₁, rfl⟩
  constructor
  · intro t r t' h
    obtain ⟨r₁, t₁, h₁, hinput⟩ := hsplit h
    exact hinput ▸ hx.shrinks t r₁ t₁ h₁
  · intro n t r t' c rest hc ht h hrest
    obtain ⟨r₁, t₁, h₁, hinput⟩ := hsplit h
    exact hx.prompts n t r₁ t₁ c rest hc ht h₁ (hinput ▸ hrest)

/-- Nor does it in front of them. -/
theorem Asks.quiet_bind {k : Nat} {x : UiM α} {f : α → UiM β} {a : α} {g : Tty → Tty}
    (hx : ∀ t, x.Runs t (.ok a) (g t)) (hg : ∀ t, (g t).input = t.input) (hf : Asks k (f a)) :
    Asks k (x >>= f) where
  shrinks := fun t r t' h =>
    hg t ▸ hf.shrinks (g t) r t' ((Routine.runs_bind_of_ok (hx t)).mp h)
  prompts := fun n t r t' c rest hc ht h hrest =>
    hf.prompts n (g t) r t' c rest hc ((hg t).trans ht) ((Routine.runs_bind_of_ok (hx t)).mp h) hrest

theorem getInput_emptyLine {t : Tty} {rest : List Char} (h : t.input = '\n' :: rest) :
    getInput.Runs t (.ok []) { t with input := rest } := by
  have hfgets := fgets_runs t
  rw [h] at hfgets
  exact (Routine.runs_bind_of_ok hfgets).mpr (Routine.runs_pure.mpr ⟨rfl, rfl⟩)

theorem getInput_input {t t' : Tty} {r : Except Halt CStr} (h : getInput.Runs t r t') :
    t'.input = (fgetsLine t.input).2 := by
  rw [getInput, Routine.runs_bind_of_ok (fgets_runs t)] at h
  split at h
  · rw [← (Routine.runs_throw.mp h).2]
  · rw [← (Routine.runs_throw.mp h).2]
  · rw [← (Routine.runs_pure.mp h).2]

theorem fgetsLine_length_lt {input : List Char} (h : input ≠ []) :
    (fgetsLine input).2.length < input.length := by
  rw [fgetsLine, if_neg h]
  exact takeLine_length_lt h

theorem getInput_shrinks {t t' : Tty} {r : Except Halt CStr} (h : getInput.Runs t r t') :
    t'.input.length ≤ t.input.length := by
  rw [getInput_input h]
  by_cases hempty : t.input = []
  · rw [hempty]
    exact Nat.le_refl _
  · exact Nat.le_of_lt (fgetsLine_length_lt hempty)

/-- **One more prompt.** -/
theorem asks_getInput {k : Nat} {f : CStr → UiM β} (hf : ∀ str, Asks k (f str)) :
    Asks (k + 1) (getInput >>= f) := by
  constructor
  · intro t r t' h
    rcases Routine.runs_bind.mp h with ⟨str, t₁, h₁, h₂⟩ | ⟨e, h₁, _⟩
    · exact Nat.le_trans ((hf str).shrinks t₁ r t' h₂) (getInput_shrinks h₁)
    · exact getInput_shrinks h₁
  · intro n t r t' c rest hc hinput h hrest
    cases n with
    | succ n =>
      rw [Routine.runs_bind_of_ok (getInput_emptyLine hinput)] at h
      exact congrArg Nat.succ ((hf []).prompts n _ r t' c rest hc rfl h hrest)
    | zero =>
      -- the line that is read is not empty, and cannot be read again
      have hlt : ∀ {r₁ t₁}, getInput.Runs t r₁ t₁ → t₁.input.length < t'.input.length := by
        intro r₁ t₁ h₁
        have hfgets := @fgetsLine_length_lt (c :: rest) (by simp)
        rw [getInput_input h₁, hinput, hrest]
        exact hfgets
      rcases Routine.runs_bind.mp h with ⟨str, t₁, h₁, h₂⟩ | ⟨e, h₁, _⟩
      · exact absurd ((hf str).shrinks t₁ r t' h₂) (Nat.not_le.mpr (hlt h₁))
      · exact absurd (hlt h₁) (Nat.lt_irrefl _)

end Asks

/-! ## The new values -/

/-- For the action of an entry nothing is asked but the fields of `KERNEL_BOOT`. -/
theorem getManAction_toInt (action : BootAction) : getManAction action.toInt = pure 0 := by
  cases action <;> rfl

theorem asks_getManBoot (action : BootAction) : Asks 5 (getManBoot action.toInt) := by
  rw [getManBoot, getManAction_toInt]
  refine Asks.quiet_bind (fun t => Routine.runs_pure.mpr ⟨rfl, rfl⟩) (fun t => rfl) ?_
  exact asks_getInput fun _ => asks_getInput fun _ => asks_getInput fun _ =>
    asks_getInput fun _ => asks_getInput fun _ => (quiet_pure _).asks

/-- **A kernel entry takes five lines.** -/
theorem asks_modifyEntry_kernel {i : Nat} {temp : Bentry} (haction : temp.action = .kernelBoot) :
    Asks 5 (modifyEntry i temp) := by
  unfold modifyEntry
  rw [haction]
  refine Asks.quiet_bind (log_runs _) (fun t => rfl) ?_
  refine (asks_getManBoot .kernelBoot).bind_quiet fun bentry => ?_
  exact (quiet_assignInput _ _).bind fun _ => (quiet_assignInput _ _).bind fun _ =>
    (quiet_assignInput _ _).bind fun _ => (quiet_assignInput _ _).bind fun _ =>
    (quiet_assignInput _ _).bind fun _ => quiet_pure _

/-- What five empty lines are made into. -/
theorem getManBoot_emptyLines (action : BootAction) {t : Tty} {rest : List Char}
    (hinput : t.input = List.replicate 5 '\n' ++ rest) :
    (getManBoot action.toInt).Runs t (.ok { Bentry.zero with
      root := some [], kernel := some [], initrd := some [], cmdline := some [],
      parmfile := some [] }) { t with input := rest } := by
  rw [getManBoot, getManAction_toInt]
  refine (Routine.runs_bind_of_ok (Routine.runs_pure.mpr ⟨rfl, rfl⟩)).mpr ?_
  refine (Routine.runs_bind_of_ok (getInput_emptyLine hinput)).mpr ?_
  refine (Routine.runs_bind_of_ok (getInput_emptyLine rfl)).mpr ?_
  refine (Routine.runs_bind_of_ok (getInput_emptyLine rfl)).mpr ?_
  refine (Routine.runs_bind_of_ok (getInput_emptyLine rfl)).mpr ?_
  refine (Routine.runs_bind_of_ok (getInput_emptyLine rfl)).mpr ?_
  exact Routine.runs_pure.mpr ⟨rfl, rfl⟩

/-- The old value is kept for an empty line. -/
theorem assignInput_empty (y : Option CStr) (t : Tty) :
    (assignInput (some []) y).Runs t (.ok y) t :=
  (Routine.runs_bind_of_ok (Routine.runs_pure.mpr ⟨rfl, rfl⟩)).mpr
    (Routine.runs_pure.mpr ⟨rfl, rfl⟩)

/-- **The kernel entry that is made of five empty lines** has the old values. -/
theorem modifyEntry_kernel {i : Nat} {temp : Bentry} (haction : temp.action = .kernelBoot) {t : Tty}
    {rest : List Char} (hinput : t.input = List.replicate 5 '\n' ++ rest) :
    (modifyEntry i temp).Runs t (.ok (some { Bentry.zero with
      root := temp.root, kernel := temp.kernel, initrd := temp.initrd, cmdline := temp.cmdline,
      parmfile := temp.parmfile }))
      { t with input := rest, events := t.events ++ [.shown (.entry i) temp] } := by
  unfold modifyEntry
  rw [haction]
  refine (Routine.runs_bind_of_ok (log_runs _ t)).mpr ?_
  have hlines := getManBoot_emptyLines .kernelBoot
    (t := { t with events := t.events ++ [.shown (.entry i) temp] }) hinput
  refine (Routine.runs_bind_of_ok hlines).mpr ?_
  refine (Routine.runs_bind_of_ok (assignInput_empty temp.root _)).mpr ?_
  refine (Routine.runs_bind_of_ok (assignInput_empty temp.kernel _)).mpr ?_
  refine (Routine.runs_bind_of_ok (assignInput_empty temp.initrd _)).mpr ?_
  refine (Routine.runs_bind_of_ok (assignInput_empty temp.cmdline _)).mpr ?_
  refine (Routine.runs_bind_of_ok (assignInput_empty temp.parmfile _)).mpr ?_
  exact Routine.runs_pure.mpr ⟨rfl, rfl⟩

/-- No insfile and no bootmap is asked for. -/
theorem getManBoot_null {action : BootAction} {t t' : Tty} {bentry : Bentry}
    (h : (getManBoot action.toInt).Runs t (.ok bentry) t') :
    bentry.insfile = none ∧ bentry.bootmap = none := by
  rw [getManBoot, getManAction_toInt, Routine.runs_bind_of_ok (Routine.runs_pure.mpr ⟨rfl, rfl⟩)] at h
  obtain ⟨root, t₁, _, h⟩ := Routine.runs_bind_ok.mp h
  obtain ⟨kernel, t₂, _, h⟩ := Routine.runs_bind_ok.mp h
  obtain ⟨initrd, t₃, _, h⟩ := Routine.runs_bind_ok.mp h
  obtain ⟨cmdline, t₄, _, h⟩ := Routine.runs_bind_ok.mp h
  obtain ⟨parmfile, t₅, _, h⟩ := Routine.runs_bind_ok.mp h
  obtain rfl := Except.ok.inj (Routine.runs_pure.mp h).1
  exact ⟨rfl, rfl⟩

/-- **The other actions**: whatever is typed, the modification does not come to a value. -/
theorem modifyEntry_overrun {i : Nat} {temp : Bentry}
    (haction : temp.action = .insfileBoot ∨ temp.action = .bootmapBoot) {t t' : Tty}
    {modified : Option Bentry} : ¬ (modifyEntry i temp).Runs t (.ok modified) t' := by
  intro h
  unfold modifyEntry at h
  rcases haction with haction | haction
  · simp only [haction] at h
    obtain ⟨_, t₁, _, h⟩ := Routine.runs_bind_ok.mp h
    obtain ⟨bentry, t₂, hbentry, h⟩ := Routine.runs_bind_ok.mp h
    obtain ⟨insfile, t₃, hinsfile, _⟩ := Routine.runs_bind_ok.mp h
    rw [(getManBoot_null hbentry).1] at hinsfile
    exact absurd (Routine.runs_throw.mp hinsfile).1 (by simp)
  · simp only [haction] at h
    obtain ⟨_, t₁, _, h⟩ := Routine.runs_bind_ok.mp h
    obtain ⟨bentry, t₂, hbentry, h⟩ := Routine.runs_bind_ok.mp h
    obtain ⟨bootmap, t₃, hbootmap, _⟩ := Routine.runs_bind_ok.mp h
    rw [(getManBoot_null hbentry).2] at hbootmap
    exact absurd (Routine.runs_throw.mp hbootmap).1 (by simp)

/-! ## The round -/

/-- A `B` confirms, with a title and a label for the parser. -/
theorem confirm_yes {source : Source} {bentry : Bentry} {t : Tty} {rest : List Char}
    (hinput : t.input = 'B' :: rest) :
    (confirm source bentry).Runs t
      (.ok (some (source, { bentry with
        title := some "manual_title".toList, label := some "manual_label".toList })))
      { t with input := rest, events := t.events ++ [.shown source bentry] } := by
  have hkey : keypressed.Runs { t with events := t.events ++ [.shown source bentry] } (.ok 'B')
      { t with input := rest, events := t.events ++ [.shown source bentry] } := by
    unfold keypressed
    rw [Routine.runs_get_bind, Routine.runs_bind_of_ok (setInput_runs _ _), hinput]
    exact Routine.runs_pure.mpr ⟨rfl, rfl⟩
  refine (Routine.runs_bind_of_ok (log_runs _ t)).mpr ((Routine.runs_bind_of_ok hkey).mpr ?_)
  rw [if_neg (by decide), if_pos (Or.inl rfl)]
  exact Routine.runs_pure.mpr ⟨rfl, rfl⟩

/-- The round goes on with the modification. -/
theorem Commanded.round {t t₁ t' : Tty} {i : Nat} {bentry : CfgBentry} {r : Except Halt Bool}
    (h : Commanded config t i bentry t₁) :
    (round config).Runs t r t' ↔
      ((modifyEntry i (.ofConfig bentry) >>= fun
          | some bentry => confirm (.modified i) bentry
          | none => pure none) >>= fun left => leave left).Runs
        { t₁ with events := t₁.events ++ [.modify i] } r t' := by
  obtain ⟨command, t₀, hcommand, hread, hunlock⟩ := h
  have hserve : serve i bentry command = (log (.modify i) >>= fun _ =>
      modifyEntry i (.ofConfig bentry) >>= fun
        | some bentry => confirm (.modified i) bentry
        | none => pure none) := by
    rcases hcommand with rfl | rfl <;> rfl
  unfold Linemode.round
  rw [Routine.runs_bind_of_ok hread, Routine.runs_bind_of_ok hunlock, if_pos rfl, hserve, bind_assoc,
    Routine.runs_bind_of_ok (log_runs _ t₁)]

/-- The last round has a modification. -/
theorem Commanded.modified {t t₁ t' : Tty} {i : Nat} {bentry : CfgBentry}
    (h : Commanded config t i bentry t₁) (hround : (Linemode.round config).Runs t (.ok true) t') :
    ∃ modified t₂, (modifyEntry i (.ofConfig bentry)).Runs
      { t₁ with events := t₁.events ++ [.modify i] } (.ok modified) t₂ := by
  obtain ⟨left, t₃, hleft, _⟩ := Routine.runs_bind_ok.mp (h.round.mp hround)
  obtain ⟨modified, t₂, hmodified, _⟩ := Routine.runs_bind_ok.mp hleft
  exact ⟨modified, t₂, hmodified⟩

/-- A modification that is confirmed is emitted. -/
theorem Commanded.emits {t t₁ t₂ : Tty} {i : Nat} {bentry : CfgBentry} {modified : Bentry}
    {rest : List Char} (h : Commanded config t i bentry t₁)
    (hmodify : (modifyEntry i (.ofConfig bentry)).Runs
      { t₁ with events := t₁.events ++ [.modify i] } (.ok (some modified)) t₂)
    (hinput : t₂.input = 'B' :: rest) :
    ∃ t', (Linemode.round config).Runs t (.ok true) t' ∧
      t'.events.getLast? = some (.emitted (.modified i) { modified with
        title := some "manual_title".toList, label := some "manual_label".toList }) := by
  have hconfirm := @confirm_yes (.modified i) modified t₂ rest hinput
  obtain ⟨t', hleave, hevents⟩ := leave_some (.modified i) { modified with
    title := some "manual_title".toList, label := some "manual_label".toList }
    { t₂ with input := rest, events := t₂.events ++ [.shown (.modified i) modified] }
  refine ⟨t', h.round.mpr ((Routine.runs_bind_of_ok ?_).mpr hleave), ?_⟩
  · exact (Routine.runs_bind_of_ok hmodify).mpr hconfirm
  · rw [hevents, List.getLast?_append]
    rfl

/-- **To modify nothing changes nothing**, and reads nothing that is not set, just for a kernel
entry. -/
theorem modifyNothing_iff {t t₁ : Tty} {i : Nat} {bentry : CfgBentry}
    (haction : bentry.action ∈ [.kernelBoot, .insfileBoot, .bootmapBoot])
    (hcommand : Commanded config t i bentry t₁) (hanswers : AnsweredEmpty i bentry t₁) :
    Unchanged config t i bentry ↔ bentry.action = .kernelBoot := by
  constructor
  · rintro ⟨t', entry, hround, _⟩
    by_contra hne
    have hother : bentry.action = .insfileBoot ∨ bentry.action = .bootmapBoot := by
      simpa [hne] using haction
    obtain ⟨modified, t₂, hmodified⟩ := hcommand.modified hround
    exact modifyEntry_overrun hother hmodified
  · intro hkernel
    obtain ⟨n, rest, hinput, r, t₂, hmodify, hrest⟩ := hanswers
    obtain rfl : n = 5 := (@asks_modifyEntry_kernel i (.ofConfig bentry) hkernel).prompts n
      { t₁ with events := t₁.events ++ [.modify i] } r t₂ 'B' rest (by decide) hinput hmodify hrest
    have hmodified := @modifyEntry_kernel i (.ofConfig bentry) hkernel
      { t₁ with events := t₁.events ++ [.modify i] } _ hinput
    obtain ⟨t', hround, hevents⟩ := hcommand.emits hmodified rfl
    refine ⟨t', _, hround, hevents, hkernel.symm, ?_⟩
    rw [hkernel]
    simp [usedFields, Bentry.ofConfig]

/-- What is typed for the locked entry: the command, the password, five empty lines and a `B`. -/
def lockedAnswers : List Char :=
  ['1', 'm', '\n', 'p', 'w', '\n', '\n', '\n', '\n', '\n', '\n', 'B']

theorem lockedAnswers_selected : (readSelection lockedConfig).Runs (.start lockedAnswers)
    (.ok (some ('m', 0, lockedEntry))) ⟨['p', 'w', '\n', '\n', '\n', '\n', '\n', '\n', 'B'],
      ['1', 'm'], [.delivered (some ['1', 'm', '\n']), .selected 0]⟩ := ⟨0, rfl⟩

theorem lockedAnswers_unlocked : (unlock lockedConfig 0 lockedEntry).Runs
    ⟨['p', 'w', '\n', '\n', '\n', '\n', '\n', '\n', 'B'], ['1', 'm'],
      [.delivered (some ['1', 'm', '\n']), .selected 0]⟩ (.ok true)
    ⟨['\n', '\n', '\n', '\n', '\n', 'B'], ['1', 'm'],
      [.delivered (some ['1', 'm', '\n']), .selected 0, .passwordOk 0]⟩ := ⟨0, rfl⟩

/-- The locked entry is unchanged, since it is a kernel entry. -/
theorem modifyNothing_iff_lockedAnswers :
    Unchanged lockedConfig (.start lockedAnswers) 0 lockedEntry := by
  have hmodified := @modifyEntry_kernel 0 (.ofConfig lockedEntry) rfl
    ⟨['\n', '\n', '\n', '\n', '\n', 'B'], ['1', 'm'],
      [.delivered (some ['1', 'm', '\n']), .selected 0, .passwordOk 0, .modify 0]⟩ ['B'] rfl
  exact (modifyNothing_iff (by simp [lockedEntry, CfgBentry.init])
    ⟨'m', _, Or.inl rfl, lockedAnswers_selected, lockedAnswers_unlocked⟩
    ⟨5, [], rfl, _, _, hmodified, rfl⟩).mpr rfl

/-- A boot entry with an insfile. -/
def insfileEntry : CfgBentry :=
  { CfgBentry.init with title := ['a'], insfile := ['f'], action := .insfileBoot }

/-- A configuration with that entry. -/
def insfileConfig : CfgToplevel := { CfgToplevel.init with bentryList := [insfileEntry] }

theorem insfileConfig_selected : (readSelection insfileConfig).Runs
    (.start ['1', 'm', '\n', '\n', '\n', '\n', '\n', '\n', 'B'])
    (.ok (some ('m', 0, insfileEntry))) ⟨['\n', '\n', '\n', '\n', '\n', 'B'], ['1', 'm'],
      [.delivered (some ['1', 'm', '\n']), .selected 0]⟩ := ⟨0, rfl⟩

/-- It is asked for the fields of a kernel entry, and reads `insfile`, which is `NULL`. -/
theorem insfileConfig_overrun : (modifyEntry 0 (.ofConfig insfileEntry)).Runs
    ⟨['\n', '\n', '\n', '\n', '\n', 'B'], ['1', 'm'],
      [.delivered (some ['1', 'm', '\n']), .selected 0, .modify 0]⟩ (.error .overrun)
    ⟨['B'], ['1', 'm'], [.delivered (some ['1', 'm', '\n']), .selected 0, .modify 0,
      .shown (.entry 0) (.ofConfig insfileEntry)]⟩ := ⟨0, rfl⟩

/-- **The insfile entry is lost**: it is modified with empty lines only, and is not emitted. -/
theorem insfileConfig_notUnchanged : ∃ t t₁, Commanded insfileConfig t 0 insfileEntry t₁ ∧
    AnsweredEmpty 0 insfileEntry t₁ ∧ ¬ Unchanged insfileConfig t 0 insfileEntry := by
  have hcommand : Commanded insfileConfig _ 0 insfileEntry _ :=
    ⟨'m', _, Or.inl rfl, insfileConfig_selected, Routine.runs_pure.mpr ⟨rfl, rfl⟩⟩
  refine ⟨_, _, hcommand, ⟨5, [], rfl, _, _, insfileConfig_overrun, rfl⟩, ?_⟩
  rintro ⟨t', entry, hround, _⟩
  obtain ⟨modified, t₂, hmodified⟩ := hcommand.modified hround
  exact modifyEntry_overrun (Or.inl rfl) hmodified

end Sysload.Linemode
