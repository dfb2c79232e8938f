import Mathlib.Data.List.Infix
import Sysload.Parser.Independence
import Sysload.UiControl.Signals

/-!
# Only clean clients decide (`ui_control.c`, `parser_sysload.c`)

When a client has exited with status 0, `check_input_from_client` gives the string that was collected
from it to `parse_sysload_boot_entry`. The scanner keeps its start condition and its suspended buffers
from one call to the next, in static variables. So the second call may go on in what the first one has
left: after a syntax error in an included file, with the rest of the other client's text.

* `parseEntry` is the call, with the scanner and with the number of calls so far: each call finds the
  files that it includes as they are then. Where it follows a null pointer nothing is selected.
* What a client has selected (`SelectedBy`) is said without what earlier calls have left: it is the
  entry that a new process parses from the bytes of this client alone.

Source: `src/core/ui_control.c`, `check_input_from_client` and `userinterface`;
`src/core/parser_sysload.c`, `parse_sysload_boot_entry`. Out of scope is what a process does behind
undefined behaviour.

Results:
* `parseEntry_eq_some_iff`: what a call selects.
* **`only_clean_clients_decide`**: if no call finds the scanner in another state than a new process,
  the entry that is returned is the default, after an alarm, or the one of a client that exited with
  status 0.
* **`suspended_selected`**: a client that has written nothing selects the entry of another one, whose
  text was rejected.
-/

namespace Sysload.UiControl

open Sysload.Parser

/-! ## The parser -/

/-- What the parser of boot entries keeps from call to call. -/
structure ParserState where
  scan : Scanner
  calls : Nat
  deriving DecidableEq, Repr

/-- The scanner is in the state of a new process, but for the line number. -/
def ParserState.Fresh (p : ParserState) : Prop := p.scan.mode = .initial ∧ p.scan.stack = []

theorem parseSysloadBootEntry_ends (env : Env) (msgs : Messages) (scan : Scanner) (str : CStr) :
    (parseSysloadBootEntry env msgs scan str).Ends := by
  obtain ⟨r, hr⟩ := yyparse_ends env msgs (.start scan none (cstr str))
  cases r with
  | error stop => exact ⟨.error stop, Prog.gives_bind.mpr (.inr ⟨stop, hr, rfl⟩)⟩
  | ok r =>
    cases hbentry : firstBentry r.1 r.2.ctx with
    | error stop =>
      exact ⟨.error stop, Prog.gives_bind.mpr (.inl ⟨r, hr, Prog.gives_bind.mpr
        (.inr ⟨stop, Prog.gives_lift.mpr hbentry, rfl⟩)⟩)⟩
    | ok bentry =>
      exact ⟨.ok (r.2.scan, bentry), Prog.gives_bind.mpr (.inl ⟨r, hr, Prog.gives_bind.mpr
        (.inl ⟨bentry, Prog.gives_lift.mpr hbentry, Prog.gives_pure.mpr rfl⟩)⟩)⟩

section Calls

variable (env : Nat → Env) (msgs : Messages)

/-- The call of `parse_sysload_boot_entry`. -/
def parseEntry (p : ParserState) (str : CStr) : Option CfgBentry × ParserState :=
  match (parseSysloadBootEntry (env p.calls) msgs p.scan str).value
    (parseSysloadBootEntry_ends _ _ _ _) with
  | .ok (scan, .ok boot) => (some boot, ⟨scan, p.calls + 1⟩)
  | .ok (scan, .error _) => (none, ⟨scan, p.calls + 1⟩)
  | .error _ => (none, ⟨p.scan, p.calls + 1⟩)

variable {env msgs} {p : ParserState} {str : CStr} {boot : CfgBentry}

theorem parseEntry_of_accepted {scan : Scanner}
    (h : (parseSysloadBootEntry (env p.calls) msgs p.scan str).Gives (.ok (scan, .ok boot))) :
    parseEntry env msgs p str = (some boot, ⟨scan, p.calls + 1⟩) := by
  rw [parseEntry, (Prog.value_eq_iff _).mpr h]

theorem parseEntry_of_rejected {scan : Scanner} {errmsg : CStr}
    (h : (parseSysloadBootEntry (env p.calls) msgs p.scan str).Gives (.ok (scan, .error errmsg))) :
    parseEntry env msgs p str = (none, ⟨scan, p.calls + 1⟩) := by
  rw [parseEntry, (Prog.value_eq_iff _).mpr h]

/-- **What a call selects** is what `parse_sysload_boot_entry` returns. -/
theorem parseEntry_eq_some_iff : (parseEntry env msgs p str).1 = some boot ↔
    Yields (parseSysloadBootEntry (env p.calls) msgs p.scan str) (.ok (.ok boot)) := by
  obtain ⟨r, hr⟩ := parseSysloadBootEntry_ends (env p.calls) msgs p.scan str
  have hyields : Yields (parseSysloadBootEntry (env p.calls) msgs p.scan str) (.ok (.ok boot)) ↔
      r.map Prod.snd = .ok (.ok boot) := by
    constructor
    · rintro ⟨r', hr', hmap⟩
      rwa [hr.unique hr']
    · exact fun hmap => ⟨r, hr, hmap⟩
  rw [hyields]
  rcases r with stop | ⟨scan, errmsg | boot'⟩
  · rw [parseEntry, (Prog.value_eq_iff _).mpr hr]
    exact iff_of_false (by simp) (by simp [Except.map])
  · rw [parseEntry_of_rejected hr]
    exact iff_of_false (by simp) (by simp [Except.map])
  · rw [parseEntry_of_accepted hr]
    simp [Except.map]

end Calls

/-! ## Only clean clients decide -/

section Clients

variable {n : Nat} (env : Nat → Env) (msgs : Messages) (config : CfgToplevel)

/-- The entry is that of one client, which exited with status 0: a new process parses it from the bytes
that this client has written, or from the first of them. -/
def SelectedBy (outputs : Fin n → List Char) (clients : Fin n → UiInfo) (boot : CfgBentry) : Prop :=
  ∃ i str call, (clients i).process = .reaped (.exited 0) ∧ str <+: outputs i ∧
    Yields (parseSysloadBootEntry (env call) msgs .fresh str) (.ok (.ok boot))

section Run

variable {env msgs config} {outputs : Fin n → List Char} {rcvdSig : Option Signal} {armed : Bool}
  {parser : ParserState} {es : List (SigEvent n)} {s : SigState n ParserState} {boot : CfgBentry}
  (hnul : ∀ i, nul ∉ outputs i)
  (hfresh : Along (sigStep config (parseEntry env msgs)) (ParsesIn ParserState.Fresh)
    (.start outputs config rcvdSig armed parser) es)
  (hrun : run (sigStep config (parseEntry env msgs)) (.start outputs config rcvdSig armed parser) es =
    some s)
include hnul hfresh hrun

theorem timedOut_default (hresult : s.result = some (.timedOut boot)) :
    s.alarmed = true ∧ IsDefault config boot :=
  (run_resultInv hnul hfresh hrun).timedOut boot hresult

theorem selected_selectedBy (hresult : s.result = some (.selected boot)) :
    SelectedBy env msgs outputs s.loop.clients boot := by
  obtain ⟨i, p, str, hexit, hstr, ⟨hmode, hstack⟩, hparse⟩ :=
    (run_resultInv hnul hfresh hrun).selected boot hresult
  exact ⟨i, str, p.calls, hexit, hstr,
    (bootEntryIndependent_of hmode hstack _ _ _).mp (parseEntry_eq_some_iff.mp hparse)⟩

/-- **Only clean clients decide**, where no call of the parser goes on in what an earlier one has left.
When `userinterface()` returns a boot entry, it is the default, whose index is in range, after an
alarm; or it is what is parsed from bytes that one client has written, in their order and with no others
among them, and this client exited with status 0. -/
theorem only_clean_clients_decide {r : Result} (hresult : s.returned = true ∧ s.result = some r)
    (hboot : r.boot? = some boot) :
    (s.alarmed = true ∧ IsDefault config boot) ∨ SelectedBy env msgs outputs s.loop.clients boot := by
  cases r with
  | timedOut b =>
    cases hboot
    exact .inl (timedOut_default hnul hfresh hrun hresult.2)
  | selected b =>
    cases hboot
    exact .inr (selected_selectedBy hnul hfresh hrun hresult.2)
  | failed => cases hboot

end Run

end Clients

/-! ## Two runs -/

/-- A function, with its value at one place written out. -/
theorem eq_ite_of {α β γ : Type} [DecidableEq α] [DecidableEq β] {f : α → β → γ} {a : α} {b : β}
    {c : γ} (h : f a b = c) : f = fun x y => if x = a ∧ y = b then c else f x y := by
  funext x y
  by_cases hxy : x = a ∧ y = b
  · rw [if_pos hxy, hxy.1, hxy.2, h]
  · rw [if_neg hxy]

/-- The parser before its first call. -/
def firstCall : ParserState := ⟨.fresh, 0⟩

/-- The text of a boot entry that reboots. -/
def rebootLine : List Char := "boot_entry \x7btitle a\nreboot\x7d".toList

/-- The boot entry. -/
def rebootBentry : CfgBentry := { CfgBentry.init with title := ['a'], action := .reboot }

/-- A run of one client that writes this text and exits with status 0. -/
def selectingRun : List (SigEvent 1) :=
  [.loop (.write (Fin.last 0) rebootLine), .loop (.exit (Fin.last 0) (.exited 0)), .build, .select,
    .ready, .loop .read, .loop (.reap (Fin.last 0)), .loop .reapedAll, .parse, .ret]

theorem parseEntry_rebootLine : parseEntry (fun _ => Answers.blank.env) .short firstCall rebootLine =
    (some rebootBentry, ⟨⟨.initial, 2, [], []⟩, 1⟩) :=
  parseEntry_of_accepted ⟨40, by decide +kernel⟩

theorem only_clean_clients_decide_selectingRun : ∃ s,
    run (sigStep .init (parseEntry (fun _ => Answers.blank.env) .short))
      (.start (fun _ => rebootLine) .init none false firstCall) selectingRun = some s ∧
    ((s.alarmed = true ∧ IsDefault .init rebootBentry) ∨
      SelectedBy (fun _ => Answers.blank.env) .short (fun _ => rebootLine) s.loop.clients
        rebootBentry) := by
  have hparse := eq_ite_of parseEntry_rebootLine
  have hrun : ∃ s, run (sigStep .init (parseEntry (fun _ => Answers.blank.env) .short))
      (.start (fun _ => rebootLine) .init none false firstCall) selectingRun = some s ∧
      s.returned = true ∧ s.result = some (.selected rebootBentry) := by
    rw [hparse]
    exact ⟨_, rfl, rfl, rfl⟩
  have hfresh : Along (sigStep .init (parseEntry (fun _ => Answers.blank.env) .short))
      (ParsesIn ParserState.Fresh) (.start (fun _ => rebootLine) .init none false firstCall)
      selectingRun := by
    rw [hparse]
    exact .cons trivial rfl <| .cons trivial rfl <| .cons trivial rfl <| .cons trivial rfl <|
      .cons trivial rfl <| .cons trivial rfl <| .cons trivial rfl <| .cons trivial rfl <|
      .cons (fun _ _ _ _ => ⟨rfl, rfl⟩) rfl <| .cons trivial rfl trivial
  obtain ⟨s, hs, hresult⟩ := hrun
  exact ⟨s, hs, only_clean_clients_decide (fun _ => by decide) hfresh hs hresult rfl⟩

/-- A machine on which one file can be included. There is a closing brace in it. -/
def braceEnv : Env :=
  ⟨[], fun _ _ => false, fun _ uri => if uri = "file:///x".toList then some ['\x7d'] else none⟩

/-- The text of the boot entry behind the `include`. -/
def includingText : List Char := "include file:///x\n".toList ++ rebootLine

/-- The parser behind this text: it is rejected in the file, and the rest of it is suspended. -/
def suspendedCall : ParserState := ⟨⟨.initial, 1, [], [⟨'\n' :: rebootLine, 1⟩]⟩, 1⟩

/-- The first of two clients writes this text, the second writes nothing. -/
def twoOutputs (i : Fin 2) : List Char := if i.val = 0 then includingText else []

/-- Both clients exit with status 0. -/
def twoClientsRun : List (SigEvent 2) :=
  let first : Fin 2 := (Fin.last 0).castSucc
  let second : Fin 2 := Fin.last 1
  [.loop (.write first includingText), .loop (.exit first (.exited 0)),
    .loop (.exit second (.exited 0)), .build, .select, .ready, .loop .read, .loop (.reap first),
    .loop (.reap second), .loop .reapedAll, .parse, .loop .read, .loop .reapedAll, .parse, .ret]

theorem parseEntry_including :
    parseEntry (fun _ => braceEnv) .short firstCall includingText = (none, suspendedCall) := by
  have hrejected : (parseSysloadBootEntry braceEnv .short .fresh includingText).Gives
      (.ok (suspendedCall.scan, .error "Error parsing boot entry.".toList)) :=
    ⟨40, by decide +kernel⟩
  exact parseEntry_of_rejected hrejected

theorem parseEntry_suspended : parseEntry (fun _ => braceEnv) .short suspendedCall [] =
    (some rebootBentry, ⟨⟨.initial, 3, [], []⟩, 2⟩) :=
  parseEntry_of_accepted ⟨40, by decide +kernel⟩

/-- Nothing that the first client has written is a boot entry. -/
theorem beginnings_rejected : (includingText.inits.all fun str =>
    match (ExceptT.run (parseSysloadBootEntry braceEnv .short .fresh str)).run 50 with
    | some (.ok (_, .error _)) => true
    | _ => false) = true := by
  decide +kernel

/-- **The entry of a client whose text was rejected** is selected by one that has written nothing. -/
theorem suspended_selected : (∀ i, nul ∉ twoOutputs i) ∧ ∃ s,
    run (sigStep .init (parseEntry (fun _ => braceEnv) .short))
      (.start twoOutputs .init none false firstCall) twoClientsRun = some s ∧
    s.returned = true ∧ s.result = some (.selected rebootBentry) ∧
    ¬ ((s.alarmed = true ∧ IsDefault .init rebootBentry) ∨
      SelectedBy (fun _ => braceEnv) .short twoOutputs s.loop.clients rebootBentry) := by
  have hrun : ∃ s, run (sigStep .init (parseEntry (fun _ => braceEnv) .short))
      (.start twoOutputs .init none false firstCall) twoClientsRun = some s ∧
      s.returned = true ∧ s.result = some (.selected rebootBentry) := by
    rw [eq_ite_of parseEntry_including, eq_ite_of parseEntry_suspended]
    exact ⟨_, rfl, rfl, rfl⟩
  obtain ⟨s, hs, hreturned, hselected⟩ := hrun
  refine ⟨by decide, s, hs, hreturned, hselected, ?_⟩
  rintro (⟨-, hdefault⟩ | ⟨i, str, _, -, hstr, ⟨r, hr, hmap⟩⟩)
  · simp [IsDefault, CfgToplevel.init] at hdefault
  · have hbeginning : str <+: includingText := by
      unfold twoOutputs at hstr
      split at hstr
      · exact hstr
      · exact List.prefix_nil.mp hstr ▸ List.nil_prefix
    have hrejected := List.all_eq_true.mp beginnings_rejected str ((List.mem_inits _ _).mpr hbeginning)
    split at hrejected
    · rename_i scan errmsg hgives
      obtain rfl := Prog.Gives.unique hr ⟨50, hgives⟩
      cases hmap
    · cases hrejected

end Sysload.UiControl
