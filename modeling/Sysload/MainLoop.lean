import Sysload.Lib.Run
import Sysload.Linemode.Output
import Sysload.Loader.Loader
import Sysload.Parser.Truncated
import Sysload.UiControl.Selected
import Sysload.UiControl.Timeout

/-!
# The main loop (`sysload.c`)

`main` parses the configuration and then goes round and round: `userinterface()` comes back with a boot
entry, `loader()` tries to boot it, and if that returns, its error message is the startup message of
the next round. A round starts the user interfaces anew; they find the configuration in the
environment.

* What the handler has left in `rcvd_sig`, and whether an alarm is still to come, is arbitrary at the
  beginning of a round.
* The parser of boot entries keeps its state from round to round (`ParserState`); `parse` is what it
  makes of a string.
* A user interface of the module `linemode` is a session of `ui_linemode`; the others write what they
  like.

Source: `src/core/sysload.c`, `main`. Out of scope are its options and the console.

Results:
* **`picked_entry_booted`**: in every round `loader()` gets the default after an alarm, or what a user
  interface has written that exited successfully; where that is `ui_linemode`, an entry that was picked
  by number boots what it would boot itself.
* **`stop_for_good`**: a call that has seen a request to stop the timeout does not return the default,
  nor does a call of a later round.
-/

namespace Sysload.MainLoop

open Sysload.Parser Sysload.UiControl

/-! ## Rounds -/

/-- What outlives a round of the main loop. -/
structure State where
  config : CfgToplevel
  startupMsg : CStr
  environ : Environ
  parser : ParserState
  sys : Sys

/-- The state before the first round: if the configuration could not be loaded it is blank. The scanner
is as the parse of the configuration has left it. -/
def State.start (parsed : Parsed) (environ : Environ) (scan : Scanner) (sys : Sys) : State :=
  match parsed.errmsg with
  | none => ⟨parsed.config, [], environ, ⟨scan, 0⟩, sys⟩
  | some errmsg =>
    ⟨.init, "Error loading configuration data:\n".toList ++ errmsg ++
      "\nContinuing with blank configuration\n".toList, environ, ⟨scan, 0⟩, sys⟩

/-- The environment of the user interfaces of a round. -/
def State.clientEnviron (m : State) : Environ :=
  cfgSetEnv m.config (cfgSetEnvStr "STARTUP_MESSAGE".toList m.startupMsg m.environ)

/-- The configuration that `ui_linemode` finds there. -/
def State.clientConfig (m : State) : CfgToplevel := cfgGetEnv m.clientEnviron .init

/-- The startup message behind `loader()`, where it returns. -/
def startupMsg : Except Stop Unit → Option CStr
  | .ok () => some "Error starting selected configuration. Please try again.\n".toList
  | .error (.errmsg msg) =>
    some ("Unable to start selected configuration:\n".toList ++ msg.toList ++
      "\nPlease try again.\n".toList)
  | .error _ => none

section Round

variable (parse : ParserState → CStr → Option CfgBentry × ParserState) (t : Target)

/-- A call of `userinterface()` that has started its user interfaces, up to its return. -/
structure Userinterface (m : State) where
  outputs : Fin m.config.uiList.length → List Char
  rcvdSig : Option Signal
  armed : Bool
  events : List (SigEvent m.config.uiList.length)
  final : SigState m.config.uiList.length ParserState
  runs : run (sigStep m.config parse) (.start outputs m.config rcvdSig armed m.parser) events =
    some final
  returned : final.returned = true
  linemode : ∀ i : Fin m.config.uiList.length, m.config.uiList[i].module = "linemode".toList →
    ∃ input rounds, Linemode.Session m.clientConfig (.start input) rounds ∧
      outputs i = Linemode.sessionOutput rounds
  text : ∀ i, nul ∉ outputs i

variable {parse}

/-- The boot entry with which `userinterface()` returns, if it does. -/
def Userinterface.boot? {m : State} (ui : Userinterface parse m) : Option CfgBentry :=
  ui.final.result.bind Result.boot?

/-- The state behind a round. A request to stop the timeout that was seen changes the configuration. -/
def State.next (m : State) (ui : Userinterface parse m) (msg : CStr) (sys : Sys) : State where
  config := { m.config with
    timeout := if 0 < m.config.timeout ∧ ui.final.loop.endtime = 0 then 0 else m.config.timeout }
  startupMsg := msg
  environ := m.clientEnviron
  parser := ui.final.parser
  sys := sys

variable (parse)

/-- The states before the rounds of a run. -/
inductive Reaches (m₀ : State) : State → Prop
  | start : Reaches m₀ m₀
  | round {m : State} {ui : Userinterface parse m} {boot : CfgBentry} {os : Os}
    {r : Except Stop Unit} {msg : CStr} {sys : Sys} (hreach : Reaches m₀ m)
    (hboot : ui.boot? = some boot) (hloader : (loader t os boot).Runs m.sys r sys)
    (hmsg : startupMsg r = some msg) : Reaches m₀ (m.next ui msg sys)

end Round

/-! ## What rounds leave alone -/

section Config

variable {parse : ParserState → CStr → Option CfgBentry × ParserState} {t : Target} {m₀ m : State}

/-- A round changes nothing of the configuration but the timeout. -/
theorem Reaches.config (h : Reaches parse t m₀ m) :
    m.config.bootDefault = m₀.config.bootDefault ∧ m.config.bentryList = m₀.config.bentryList := by
  induction h with
  | start => exact ⟨rfl, rfl⟩
  | round hreach hboot hloader hmsg ih => exact ih

/-- A timeout that is off stays off. -/
theorem Reaches.timeout_le (h : Reaches parse t m₀ m) (hoff : m₀.config.timeout ≤ 0) :
    m.config.timeout ≤ 0 := by
  induction h with
  | start => exact hoff
  | round hreach hboot hloader hmsg ih =>
    unfold State.next
    dsimp only
    split
    · exact le_refl _
    · exact ih

end Config

/-! ## What the user interfaces find -/

/-- A configuration that was written to the environment has its boot entries there. -/
theorem clientConfig_bentryList (m : State) : m.clientConfig.bentryList = m.config.bentryList := by
  have hcount : cfgGetEnvInt m.clientEnviron "BENTRY_COUNT".toList 0 =
      m.config.bentryList.length := cfgGetEnvInt_cfgSetEnv _ (by simp [toplevelAssignments])
  unfold State.clientConfig cfgGetEnv
  dsimp only
  rw [hcount, Int.toNat_natCast]
  refine List.ext_getElem (by simp [CfgToplevel.init]) fun i hi hi' => ?_
  have hentry : cfgGetEnvBentry m.clientEnviron i = m.config.bentryList[i] :=
    cfgGetEnvBentry_cfgSetEnv (List.getElem?_eq_getElem hi')
  simpa [CfgToplevel.init] using hentry

/-! ## What the loader gets -/

/-- No value of the entry contains a line break. -/
def OneLine (b : CfgBentry) : Prop := ∀ f : BentryField, '\n' ∉ f.get b

/-- What the boot methods look at is the same. -/
theorem loader_congr {t : Target} {os : Os} {b b' : CfgBentry} (h : SameUsed b b') :
    loader t os b' = loader t os b := by
  obtain ⟨haction, -, -, hfields⟩ := h
  unfold loader bootAction
  rw [haction]
  cases hcase : b.action with
  | kernelBoot =>
    rw [hcase] at hfields
    have hroot : b'.root = b.root := hfields .root (by decide)
    have hkernel : b'.kernel = b.kernel := hfields .kernel (by decide)
    have hinitrd : b'.initrd = b.initrd := hfields .initrd (by decide)
    have hcmdline : b'.cmdline = b.cmdline := hfields .cmdline (by decide)
    have hparmfile : b'.parmfile = b.parmfile := hfields .parmfile (by decide)
    simp only [actionKernelBoot, kernelBoot, hroot, hkernel, hinitrd, hcmdline, hparmfile]
  | insfileBoot =>
    rw [hcase] at hfields
    have hroot : b'.root = b.root := hfields .root (by decide)
    have hinsfile : b'.insfile = b.insfile := hfields .insfile (by decide)
    have hcmdline : b'.cmdline = b.cmdline := hfields .cmdline (by decide)
    simp only [actionInsfileBoot, insfileBoot, loadInsfileComponents, loadInsfile, hroot, hinsfile,
      hcmdline]
  | bootmapBoot =>
    rw [hcase] at hfields
    have hroot : b'.root = b.root := hfields .root (by decide)
    have hbootmap : b'.bootmap = b.bootmap := hfields .bootmap (by decide)
    have hcmdline : b'.cmdline = b.cmdline := hfields .cmdline (by decide)
    have hparmfile : b'.parmfile = b.parmfile := hfields .parmfile (by decide)
    simp only [actionBootmapBoot, Bootmap.bootBootmapDisk, Bootmap.bootObjects,
      Bootmap.prepareConfigCommandLine, hroot, hbootmap, hcmdline, hparmfile]
  | reboot | halt | shell | exit => rfl

/-! ## What was picked -/

section Picked

variable {env : Env} {msgs : Messages} {scan : Scanner} {str : CStr} {boot e : CfgBentry}

/-- What is left of a session without a boot entry is not parsed. -/
theorem not_parsed_nil (hmode : scan.mode = .initial) (hstack : scan.stack = []) :
    ¬ Yields (parseSysloadBootEntry env msgs scan []) (.ok (.ok boot)) :=
  unclosed_not_parsed (unclosed_of_notMem List.not_mem_nil List.not_mem_nil) hmode hstack
    List.not_mem_nil

/-- **The entry that was picked** is the entry that is parsed, as far as its action goes. -/
theorem sameUsed_of_picked (hmode : scan.mode = .initial) (hstack : scan.stack = [])
    (hentry : BentryOk False e) (hfields : ∀ f : BentryField, f.Ok (f.get e))
    (hrepeatable : Repeatable e) (hline : OneLine e) (hstr : str <+: cfgBentryPrint e)
    (h : Yields (parseSysloadBootEntry env msgs scan str) (.ok (.ok boot))) : SameUsed e boot := by
  have hok : PrintedOk e := ⟨hentry.title, hentry.label, fun f _ => hfields f⟩
  have hne := printedOptions_ne_nil hentry fun haction => (hrepeatable.kernel haction).2.2
  obtain ⟨-, rfl⟩ := beginning_parsed hok hrepeatable.title hne (fun f _ => hline f) hmode hstack
    hstr h
  exact (sameUsed_reprinted hentry).mpr ⟨fun haction =>
    ⟨(hrepeatable.kernel haction).1, (hrepeatable.kernel haction).2.1⟩, hrepeatable.insfile⟩

end Picked

section Booted

variable {env₀ : Env} {env : Nat → Env} {msgs : Messages} {t : Target} {scan scan' : Scanner}
  {uri onlyUi : CStr} {file : Except CStr (List Char)} {parsed : Parsed} {environ : Environ}
  {sys : Sys} {m : State} {boot : CfgBentry}

/-- The entries of the first state are those of the configuration file, if it could be loaded. -/
theorem start_bentryList {e : CfgBentry}
    (h : e ∈ (State.start parsed environ scan sys).config.bentryList) :
    e ∈ parsed.config.bentryList := by
  unfold State.start at h
  split at h
  · exact h
  · exact absurd h List.not_mem_nil

/-- **What is booted is what was picked.** In every round, if `userinterface()` returns a boot entry,
that is the default of the configuration, after an alarm, and the timeout was not off; or it is what is
parsed from bytes that one user interface has written, which exited successfully. If that is
`ui_linemode`, these bytes are the output of a session in which its user has picked an entry, with the
password if it is locked; and if it was picked by number, what `loader()` does is what it does for the
entry of the configuration file. -/
theorem picked_entry_booted (hload : NulFree env₀) (hstack : scan.stack = [])
    (hfile : ∀ text, file = .ok text → nul ∉ text)
    (hparsed : (parseSysload env₀ msgs scan uri onlyUi file).Gives (.ok (scan', parsed)))
    (hreach : Reaches (parseEntry env msgs) t (.start parsed environ scan' sys) m)
    (ui : Userinterface (parseEntry env msgs) m)
    (hfresh : Along (sigStep m.config (parseEntry env msgs)) (ParsesIn ParserState.Fresh)
      (.start ui.outputs m.config ui.rcvdSig ui.armed m.parser) ui.events)
    (hboot : ui.boot? = some boot) :
    (0 < m.config.timeout ∧ ui.final.alarmed = true ∧ IsDefault m.config boot) ∨
      ∃ i str call, (ui.final.loop.clients i).process = .reaped (.exited 0) ∧
        str <+: ui.outputs i ∧
        Yields (parseSysloadBootEntry (env call) msgs .fresh str) (.ok (.ok boot)) ∧
        (m.config.uiList[i].module = "linemode".toList →
          ∃ input rounds source bentry, Linemode.Session m.clientConfig (.start input) rounds ∧
            ui.outputs i = Linemode.sessionOutput rounds ∧
            Linemode.Picked m.clientConfig source bentry rounds ∧
            ∀ k, source = .entry k → ∃ e ∈ parsed.config.bentryList,
              m.config.bentryList[k]? = some e ∧
              (Repeatable e → OneLine e →
                SameUsed e boot ∧ ∀ os, loader t os boot = loader t os e)) := by
  obtain ⟨result, hresult, hresultBoot⟩ := Option.bind_eq_some_iff.mp hboot
  cases result with
  | failed => cases hresultBoot
  | timedOut b =>
    cases hresultBoot
    exact Or.inl ⟨timedOut_timeout ui.runs hresult, timedOut_default ui.text hfresh ui.runs hresult⟩
  | selected b =>
    cases hresultBoot
    obtain ⟨i, str, call, hexit, hstr, hyields⟩ :=
      selected_selectedBy ui.text hfresh ui.runs hresult
    refine Or.inr ⟨i, str, call, hexit, hstr, hyields, fun hmodule => ?_⟩
    obtain ⟨input, rounds, hsession, houtput⟩ := ui.linemode i hmodule
    rw [houtput] at hstr
    rcases Linemode.session_output hsession with hnil | ⟨source, bentry, hprint, hpicked⟩
    · rw [hnil] at hstr
      obtain rfl := List.prefix_nil.mp hstr
      exact absurd hyields (not_parsed_nil rfl rfl)
    refine ⟨input, rounds, source, bentry, hsession, houtput, hpicked, ?_⟩
    rintro k rfl
    obtain ⟨e, he, rfl⟩ := hpicked.left
    rw [clientConfig_bentryList] at he
    have hmem : e ∈ parsed.config.bentryList :=
      start_bentryList (hreach.config.2 ▸ List.mem_of_getElem? he)
    refine ⟨e, hmem, he, fun hrepeatable hline => ?_⟩
    rw [hprint] at hstr
    have hsame := sameUsed_of_picked rfl rfl
      (parseSysload_bentryOk (fun h => h.elim) (fun h => h.elim) hparsed hmem)
      (parseSysload_fields hload hstack hfile hparsed hmem) hrepeatable hline hstr hyields
    exact ⟨hsame, fun os => loader_congr hsame⟩

end Booted

/-- A configuration with a timeout, a user interface on the console and one boot entry. -/
def consoleText : List Char :=
  "timeout 5\nuserinterface linemode /dev/console\n".toList ++ kernelText ['a']

/-- What is parsed from it. -/
def consoleParsed : Parsed :=
  ⟨none, { kernelParsed ['a'] |>.config with
    timeout := 5, uiList := [⟨"linemode".toList, "/dev/console".toList⟩] }, []⟩

/-- The scanner behind it. -/
def consoleScanner : Scanner := ⟨.initial, 7, [], []⟩

theorem consoleText_parsed : (parseSysload Answers.blank.env .short .fresh [] []
    (.ok consoleText)).Gives (.ok (consoleScanner, consoleParsed)) := ⟨80, by rfl⟩

/-- A machine on which nothing can be included, in every parse. -/
def blankEnv (_ : Nat) : Env := Answers.blank.env

/-- The parser behind the configuration. -/
def consoleParser : ParserState := ⟨consoleScanner, 0⟩

/-- The parser behind the text of the boot entry, once and twice. -/
def pickedParser : ParserState := ⟨⟨.initial, 11, [], []⟩, 1⟩

def pickedTwiceParser : ParserState := ⟨⟨.initial, 15, [], []⟩, 2⟩

theorem parseEntry_picked : parseEntry blankEnv .short consoleParser (kernelText ['a']) =
    (some (kernelBentry ['a']), pickedParser) := parseEntry_of_accepted ⟨60, by rfl⟩

theorem parseEntry_pickedTwice : parseEntry blankEnv .short pickedParser (kernelText ['a']) =
    (some (kernelBentry ['a']), pickedTwiceParser) := parseEntry_of_accepted ⟨60, by rfl⟩

/-- The parser, with these two calls written out. -/
def consoleParse (p : ParserState) (str : CStr) : Option CfgBentry × ParserState :=
  if p = consoleParser ∧ str = kernelText ['a'] then (some (kernelBentry ['a']), pickedParser)
  else if p = pickedParser ∧ str = kernelText ['a'] then
    (some (kernelBentry ['a']), pickedTwiceParser)
  else parseEntry blankEnv .short p str

theorem parseEntry_eq_consoleParse : parseEntry blankEnv .short = consoleParse := by
  funext p str
  unfold consoleParse
  split
  · rename_i h
    rw [h.1, h.2]
    exact parseEntry_picked
  · split
    · rename_i h
      rw [h.1, h.2]
      exact parseEntry_pickedTwice
    · rfl

/-- The state in front of the first round. -/
def consoleState : State := .start consoleParsed (fun _ => none) consoleScanner .boot

/-- The entry is picked by its number. -/
theorem kernelBentry_session {config : CfgToplevel} (h : config.bentryList = [kernelBentry ['a']]) :
    Linemode.Session config (.start ['1', '\n'])
      [(.start ['1', '\n'], [.delivered (some ['1', '\n']), .selected 0,
        .emitted (.entry 0) (.ofConfig (kernelBentry ['a']))])] := by
  obtain ⟨bootDefault, timeout, password, uiList, bentryList⟩ := config
  obtain rfl : bentryList = [kernelBentry ['a']] := h
  have hround : (Linemode.round ⟨bootDefault, timeout, password, uiList, [kernelBentry ['a']]⟩).Runs
      (.start ['1', '\n']) (.ok true) ⟨[], ['1'], [.delivered (some ['1', '\n']), .selected 0,
        .emitted (.entry 0) (.ofConfig (kernelBentry ['a']))]⟩ := ⟨0, rfl⟩
  have hlast : Linemode.Session _ (.start ['1', '\n']) _ := .last hround (by simp)
  exact hlast

/-- The user types the number, which stops the timeout, and the user interface writes the entry and
exits. -/
def consoleEvents : List (SigEvent 1) :=
  [.build, .select, .sigusr1, .check, .loop (.write (Fin.last 0) (kernelText ['a'])),
    .loop (.exit (Fin.last 0) (.exited 0)), .build, .select, .ready, .loop .read,
    .loop (.reap (Fin.last 0)), .loop .reapedAll, .parse, .ret]

/-- The state behind these steps. -/
def consoleFinal : Option (SigState 1 ParserState) :=
  run (sigStep consoleState.config consoleParse)
    (.start (fun _ => kernelText ['a']) consoleState.config none false consoleParser) consoleEvents

/-- The call of `userinterface()`. -/
def consoleCall : Userinterface (parseEntry blankEnv .short) consoleState where
  outputs _ := kernelText ['a']
  rcvdSig := none
  armed := false
  events := consoleEvents
  final := consoleFinal.get rfl
  runs := parseEntry_eq_consoleParse ▸ (Option.some_get rfl).symm
  returned := rfl
  linemode _ _ := ⟨_, _, kernelBentry_session (clientConfig_bentryList consoleState), rfl⟩
  text _ := by decide

theorem consoleCall_fresh : Along (sigStep consoleState.config (parseEntry blankEnv .short))
    (ParsesIn ParserState.Fresh) (.start consoleCall.outputs consoleState.config consoleCall.rcvdSig
      consoleCall.armed consoleState.parser) consoleCall.events := by
  show Along (sigStep consoleState.config (parseEntry blankEnv .short)) (ParsesIn ParserState.Fresh)
    (.start (fun _ => kernelText ['a']) consoleState.config none false consoleParser) consoleEvents
  rw [parseEntry_eq_consoleParse]
  exact .cons trivial rfl <| .cons trivial rfl <| .cons trivial rfl <| .cons trivial rfl <|
    .cons trivial rfl <| .cons trivial rfl <| .cons trivial rfl <| .cons trivial rfl <|
    .cons trivial rfl <| .cons trivial rfl <| .cons trivial rfl <| .cons trivial rfl <|
    .cons (fun _ _ _ _ => ⟨rfl, rfl⟩) rfl <| .cons trivial rfl trivial

theorem picked_entry_booted_consoleCall :
    (0 < consoleState.config.timeout ∧ consoleCall.final.alarmed = true ∧
        IsDefault consoleState.config (kernelBentry ['a'])) ∨
      ∃ i str call, (consoleCall.final.loop.clients i).process = .reaped (.exited 0) ∧
        str <+: consoleCall.outputs i ∧
        Yields (parseSysloadBootEntry (blankEnv call) .short .fresh str)
          (.ok (.ok (kernelBentry ['a']))) ∧
        (consoleState.config.uiList[i].module = "linemode".toList →
          ∃ input rounds source bentry,
            Linemode.Session consoleState.clientConfig (.start input) rounds ∧
            consoleCall.outputs i = Linemode.sessionOutput rounds ∧
            Linemode.Picked consoleState.clientConfig source bentry rounds ∧
            ∀ k, source = .entry k → ∃ e ∈ consoleParsed.config.bentryList,
              consoleState.config.bentryList[k]? = some e ∧
              (Repeatable e → OneLine e → SameUsed e (kernelBentry ['a']) ∧
                ∀ os, loader s390x os (kernelBentry ['a']) = loader s390x os e)) := by
  have hload : NulFree Answers.blank.env := fun _ _ _ h => by cases h
  have hfile : ∀ text, Except.ok (ε := CStr) consoleText = .ok text → nul ∉ text := by
    rintro text h
    cases h
    decide
  exact picked_entry_booted hload rfl hfile consoleText_parsed .start consoleCall consoleCall_fresh rfl

/-! ## A stopped timeout -/

section Stopped

variable {parse : ParserState → CStr → Option CfgBentry × ParserState} {t : Target} {m : State}

/-- **Stopped for good**: in a call of `userinterface()` a request to stop the timeout was seen. Then
neither this call nor one of a later round returns the default. -/
theorem stop_for_good {ui : Userinterface parse m}
    (hseen : SeesStop m.config parse
      (.start ui.outputs m.config ui.rcvdSig ui.armed m.parser) ui.events) :
    (∀ boot, ui.final.result ≠ some (.timedOut boot)) ∧
      ∀ msg sys m', Reaches parse t (m.next ui msg sys) m' →
        ∀ (ui' : Userinterface parse m') boot, ui'.final.result ≠ some (.timedOut boot) := by
  have htiming := seesStop_timing hseen ui.runs
  have hend : ui.final.loop.endtime = 0 := Nat.le_zero.mp htiming.endtime
  constructor
  · intro boot hresult
    exact absurd (htiming.timedOut boot hresult).1 (by omega)
  · intro msg sys m' hreach ui' boot hresult
    have hoff : (m.next ui msg sys).config.timeout ≤ 0 := by
      unfold State.next
      dsimp only
      rw [hend]
      split
      · exact le_refl _
      · rename_i hnot
        exact not_lt.mp fun hpos => hnot ⟨hpos, rfl⟩
    have hpos := timedOut_timeout ui'.runs hresult
    have hle := hreach.timeout_le hoff
    omega

end Stopped

/-- The state behind the first round, in which the entry could not be booted. -/
def laterState : State := consoleState.next consoleCall [] .boot

/-- The state behind the same steps in the second round. -/
def laterFinal : Option (SigState 1 ParserState) :=
  run (sigStep laterState.config consoleParse)
    (.start (fun _ => kernelText ['a']) laterState.config (some .sigusr1) false pickedParser)
    consoleEvents

/-- The call of the second round. -/
def laterCall : Userinterface (parseEntry blankEnv .short) laterState where
  outputs _ := kernelText ['a']
  rcvdSig := some .sigusr1
  armed := false
  events := consoleEvents
  final := laterFinal.get rfl
  runs := parseEntry_eq_consoleParse ▸ (Option.some_get rfl).symm
  returned := rfl
  linemode _ _ := ⟨_, _, kernelBentry_session (clientConfig_bentryList laterState), rfl⟩
  text _ := by decide

theorem stop_for_good_laterCall : (∀ boot, consoleCall.final.result ≠ some (.timedOut boot)) ∧
    ∀ boot, laterCall.final.result ≠ some (.timedOut boot) := by
  have hseen : SeesStop consoleState.config (parseEntry blankEnv .short)
      (.start consoleCall.outputs consoleState.config consoleCall.rcvdSig consoleCall.armed
        consoleState.parser) consoleCall.events := by
    show SeesStop consoleState.config (parseEntry blankEnv .short)
      (.start (fun _ => kernelText ['a']) consoleState.config none false consoleParser) consoleEvents
    rw [parseEntry_eq_consoleParse]
    exact ⟨[.build, .select, .sigusr1], _, _, rfl, rfl, rfl⟩
  obtain ⟨hfirst, hlater⟩ := @stop_for_good _ s390x _ consoleCall hseen
  exact ⟨hfirst, hlater [] .boot laterState .start laterCall⟩

end Sysload.MainLoop
