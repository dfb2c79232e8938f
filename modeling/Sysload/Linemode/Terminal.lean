import Sysload.Lib.Routine
import Sysload.Environment
import Mathlib.Data.List.TakeDrop
import Mathlib.Data.List.TakeWhile

/-!
# The terminal of the line mode user interface (`ui_linemode.c`)

What `ui_linemode` reads from its terminal: lines (`fgets`), keys and passwords (`getc`), and the
fields of a boot entry. The terminal is the list of the characters that are still to be read; behind
it there is the end of input, for ever.

* A string that is read ends at its first NUL. A `char` that holds `EOF` is the character 255.
* `Halt.overrun` is a use of memory that was never written, or lies outside, and of a `NULL` pointer.
* What is printed is left out, but for `print_selection` and the entry on standard output: these are
  events, as are the results of `fgets` and `password` in the menu loop and what is selected there.
* The menu, the attributes of the terminal and the signal to the parent change nothing here.

Source: `src/core/ui_linemode.c`, `password`, `keypressed`, `compute_selection`, `print_selection`,
`get_input` and `get_man_boot`. Out of scope are the texts of the prompts.

Results:
* `password_true`: what has to be typed for `CFG_RETURN_OK`.
* `total_getManBoot` and its kin: each part comes to an end, and leaves the events alone.
-/

namespace Sysload.Linemode

/-! ## State and events -/

/-- How `ui_linemode` ends but for a return: by a use of memory that is not its own, or by reading at
the end of input for ever. -/
inductive Halt where
  | overrun
  | forever
  deriving DecidableEq, Repr

/-- `struct cfg_bentry`, where a string may be `NULL`. -/
structure Bentry where
  title : Option CStr
  label : Option CStr
  root : Option CStr
  kernel : Option CStr
  initrd : Option CStr
  cmdline : Option CStr
  parmfile : Option CStr
  insfile : Option CStr
  bootmap : Option CStr
  locked : Int
  pause : Option CStr
  action : BootAction
  deriving DecidableEq, Repr

/-- A boot entry of the configuration: no string is `NULL`. -/
def Bentry.ofConfig (b : CfgBentry) : Bentry :=
  ⟨some b.title, some b.label, some b.root, some b.kernel, some b.initrd, some b.cmdline,
    some b.parmfile, some b.insfile, some b.bootmap, b.locked, some b.pause, b.action⟩

/-- A boot entry behind `memset`. -/
def Bentry.zero : Bentry :=
  ⟨none, none, none, none, none, none, none, none, none, 0, none, .kernelBoot⟩

/-- Where a boot entry comes from: from the configuration, from the command `m` for an entry of the
configuration, or from the command `i`. -/
inductive Source where
  | entry (i : Nat)
  | modified (i : Nat)
  | manual
  deriving DecidableEq, Repr

/-- What can be observed: in the menu loop `fgets` has returned, an entry is selected, its password
was right, it is to be modified; a boot entry is shown with `print_selection` or emitted with
`cfg_bentry_print`. -/
inductive Event where
  | delivered (line : Option CStr)
  | selected (i : Nat)
  | passwordOk (i : Nat)
  | modify (i : Nat)
  | shown (source : Source) (bentry : Bentry)
  | emitted (source : Source) (bentry : Bentry)
  deriving DecidableEq, Repr

/-- What is still to be read from the terminal, the string in the array `input` of `main`, and what
was observed. -/
structure Tty where
  input : List Char
  buffer : CStr
  events : List Event
  deriving DecidableEq, Repr

/-- What `ui_linemode` does. -/
abbrev UiM (α : Type) := Routine Tty Halt α

def log (e : Event) : UiM Unit := modify fun t => { t with events := t.events ++ [e] }

def setInput (input : List Char) : UiM Unit := modify fun t => { t with input := input }

def setBuffer (buffer : CStr) : UiM Unit := modify fun t => { t with buffer := buffer }

/-! ## Reading -/

/-- Up to `n` characters, to the end of the line at most, and what is behind them. -/
def takeLine : Nat → List Char → List Char × List Char
  | 0, input => ([], input)
  | _ + 1, [] => ([], [])
  | n + 1, c :: input =>
    if c = '\n' then ([c], input)
    else (c :: (takeLine n input).1, (takeLine n input).2)

theorem takeLine_length_le (n : Nat) (input : List Char) :
    (takeLine n input).2.length ≤ input.length := by
  induction n generalizing input with
  | zero => exact Nat.le_refl _
  | succ n ih =>
    cases input with
    | nil => exact Nat.le_refl _
    | cons c input =>
      rw [takeLine]
      split
      · exact Nat.le_succ _
      · exact Nat.le_succ_of_le (ih input)

theorem takeLine_length_lt {input : List Char} (h : input ≠ []) :
    (takeLine (cfgStrMaxLen - 1) input).2.length < input.length := by
  cases input with
  | nil => exact absurd rfl h
  | cons c input =>
    show (takeLine (510 + 1) (c :: input)).2.length < _
    rw [takeLine]
    split
    · exact Nat.lt_succ_self _
    · exact Nat.lt_succ_of_le (takeLine_length_le 510 input)

/-- `fgets(buffer, CFG_STR_MAX_LEN, c_in)`: the string in the buffer, or `none` for `NULL`, and what is
still to be read. -/
def fgetsLine (input : List Char) : Option CStr × List Char :=
  if input = [] then (none, [])
  else (some (cstr (takeLine (cfgStrMaxLen - 1) input).1), (takeLine (cfgStrMaxLen - 1) input).2)

/-- `fgets`. -/
def fgets : UiM (Option CStr) := do
  let t ← get
  setInput (fgetsLine t.input).2
  pure (fgetsLine t.input).1

theorem log_runs (e : Event) (t : Tty) :
    (log e).Runs t (.ok ()) { t with events := t.events ++ [e] } :=
  Routine.runs_modify.mpr ⟨rfl, rfl⟩

theorem setBuffer_runs (buffer : CStr) (t : Tty) :
    (setBuffer buffer).Runs t (.ok ()) { t with buffer := buffer } :=
  Routine.runs_modify.mpr ⟨rfl, rfl⟩

theorem setInput_runs (input : List Char) (t : Tty) :
    (setInput input).Runs t (.ok ()) { t with input := input } :=
  Routine.runs_modify.mpr ⟨rfl, rfl⟩

theorem fgets_runs (t : Tty) :
    fgets.Runs t (.ok (fgetsLine t.input).1) { t with input := (fgetsLine t.input).2 } :=
  Routine.runs_get_bind.mpr ((Routine.runs_bind_of_ok (setInput_runs _ t)).mpr
    (Routine.runs_pure.mpr ⟨rfl, rfl⟩))

/-- `EOF`, and `CFG_RETURN_ERROR`, as a `char`. -/
def eof : Char := Char.ofNat 255

/-- `keypressed`. -/
def keypressed : UiM Char := do
  let t ← get
  setInput t.input.tail
  pure (t.input.headD eof)

/-- `password`: `true` for `CFG_RETURN_OK`. It reads up to the end of the line; at the end of input
`getc` returns `EOF` for ever, and from 512 characters on the end of the string is written behind the
array. -/
def password (passwd : CStr) : UiM Bool := do
  let t ← get
  match t.input.span fun c => c != '\n' with
  | (_, []) => throw .forever
  | (typed, _ :: input) =>
    setInput input
    if cfgStrMaxLen ≤ typed.length then throw .overrun
    else pure (passwd == cstr typed)

/-- The first line of the input is the password. -/
def Typed (passwd : CStr) (input : List Char) : Prop :=
  ∃ typed rest, input = typed ++ '\n' :: rest ∧ '\n' ∉ typed ∧ typed.length < cfgStrMaxLen ∧
    passwd = cstr typed

/-- A line, and what is behind it. -/
theorem span_line {line : List Char} (h : '\n' ∉ line) (rest : List Char) :
    ((line ++ '\n' :: rest).span fun c => c != '\n') = (line, '\n' :: rest) := by
  have hall : ∀ c ∈ line, (c != '\n') = true := fun c hc => bne_iff_ne.mpr fun heq => h (heq ▸ hc)
  rw [List.span_eq_takeWhile_dropWhile, List.takeWhile_append_of_pos hall,
    List.dropWhile_append_of_pos hall, List.takeWhile_cons_of_neg (by simp),
    List.dropWhile_cons_of_neg (by simp), List.append_nil]

theorem password_typed {typed rest : List Char} {t : Tty} (hinput : t.input = typed ++ '\n' :: rest)
    (hline : '\n' ∉ typed) (hlen : typed.length < cfgStrMaxLen) :
    (password (cstr typed)).Runs t (.ok true) { t with input := rest } := by
  unfold password
  rw [Routine.runs_get_bind, hinput, span_line hline]
  refine (Routine.runs_bind_of_ok (setInput_runs rest t)).mpr ?_
  rw [if_neg (Nat.not_le.mpr hlen)]
  exact Routine.runs_pure.mpr ⟨by rw [beq_self_eq_true], rfl⟩

/-- **`password` returns `CFG_RETURN_OK`** if the password is typed, and shorter than the array. -/
theorem password_true {passwd : CStr} {t : Tty} :
    (∃ t', (password passwd).Runs t (.ok true) t') ↔ Typed passwd t.input := by
  constructor
  · rintro ⟨t', h⟩
    unfold password at h
    rw [Routine.runs_get_bind] at h
    split at h
    · exact absurd (Routine.runs_throw.mp h).1 (by simp)
    · rename_i typed c rest hspan
      obtain ⟨_, t₁, _, h⟩ := Routine.runs_bind_ok.mp h
      rw [List.span_eq_takeWhile_dropWhile] at hspan
      obtain ⟨htyped, hrest⟩ := Prod.mk.inj hspan
      split at h
      · exact absurd (Routine.runs_throw.mp h).1 (by simp)
      · rename_i hlen
        have hpasswd := beq_iff_eq.mp (Except.ok.inj (Routine.runs_pure.mp h).1)
        have hc : c = '\n' := by
          have hne := List.head_dropWhile_not (fun c => c != '\n') (l := t.input) (by rw [hrest]; simp)
          simpa [hrest] using hne
        refine ⟨typed, rest, ?_, fun hmem => ?_, Nat.not_le.mp hlen, hpasswd⟩
        · rw [← hc, ← htyped, ← hrest, List.takeWhile_append_dropWhile]
        · have hne := List.mem_takeWhile_imp (htyped ▸ hmem)
          exact absurd rfl (bne_iff_ne.mp hne)
  · rintro ⟨typed, rest, hinput, hline, hlen, rfl⟩
    exact ⟨_, password_typed hinput hline hlen⟩

/-! ## Selections -/

/-- A string without the blanks in front. -/
def skipBlanks (str : CStr) : CStr := str.dropWhile fun c => c == ' '

/-- A number of blanks. -/
def blanks (n : Nat) : CStr := List.replicate n ' '

theorem mem_blanks {a : Nat} {c : Char} (h : c ∈ blanks a) : c = ' ' := List.eq_of_mem_replicate h

theorem skipBlanks_blanks (n : Nat) (str : CStr) : skipBlanks (blanks n ++ str) = skipBlanks str :=
  List.dropWhile_append_of_pos fun _ hc => by rw [List.eq_of_mem_replicate hc]; rfl

theorem skipBlanks_cons {c : Char} (h : c ≠ ' ') (str : CStr) :
    skipBlanks (c :: str) = c :: str :=
  List.dropWhile_cons_of_neg (by simpa using h)

/-- `compute_selection`: the command, and the number of the selection. -/
def computeSelection (line : CStr) : Char × Int :=
  let input := skipBlanks line
  match scanInt input with
  | some selection =>
    match skipBlanks (input.dropWhile Char.isDigit) with
    | [] => (nul, selection)
    | cmd :: _ => (cmd, selection)
  | none =>
    match input with
    | [] => (nul, 0)
    | cmd :: rest =>
      match skipBlanks rest with
      | [] => (cmd, 0)
      | rest => (cmd, (scanInt rest).getD 0)

/-! ## Boot entries -/

/-- `print_selection`: it prints the strings that are not `NULL`. -/
def printSelection (source : Source) (bentry : Bentry) : UiM Unit := log (.shown source bentry)

/-- `get_input`: a line without its last character. At the end of input the array `line` was never
written, and an empty string has no last character. -/
def getInput : UiM CStr := do
  match ← fgets with
  | none => throw .overrun
  | some [] => throw .overrun
  | some line => pure line.dropLast

/-- The loop of `get_man_boot` over the lines, until one is the number of an action. At the end of
input the array keeps its content, if it has any. -/
def askAction (written : Bool) (input : List Char) : Except Halt Int × List Char :=
  if _h : input = [] then (.error (if written then .forever else .overrun), [])
  else
    let line := cstr (takeLine (cfgStrMaxLen - 1) input).1
    let rest := (takeLine (cfgStrMaxLen - 1) input).2
    let action := (scanInt line).getD 0
    if action < 1 ∨ 3 < action then askAction true rest else (.ok action, rest)
  termination_by input.length
  decreasing_by exact takeLine_length_lt _h

/-- `get_man_boot` up to its switch: the action is asked for if the type is negative, and 0 for all
other types. -/
def getManAction (type : Int) : UiM Int :=
  if type < 0 then do
    let t ← get
    setInput (askAction false t.input).2
    match (askAction false t.input).1 with
    | .ok action => pure (action - 1)
    | .error halt => throw halt
  else pure 0

/-- `get_man_boot`. -/
def getManBoot (type : Int) : UiM Bentry := do
  let action ← getManAction type
  match action with
  | 0 => do
    let root ← getInput
    let kernel ← getInput
    let initrd ← getInput
    let cmdline ← getInput
    let parmfile ← getInput
    pure { Bentry.zero with
      root := some root, kernel := some kernel, initrd := some initrd, cmdline := some cmdline
      parmfile := some parmfile, action := .kernelBoot }
  | 1 => do
    let insfile ← getInput
    pure { Bentry.zero with insfile := some insfile, action := .insfileBoot }
  | 2 => do
    let bootmap ← getInput
    pure { Bentry.zero with bootmap := some bootmap, action := .bootmapBoot }
  | _ => do
    let root ← getInput
    let kernel ← getInput
    let initrd ← getInput
    let cmdline ← getInput
    pure { Bentry.zero with
      root := some root, kernel := some kernel, initrd := some initrd, cmdline := some cmdline
      action := .kernelBoot }

/-- Nothing but blanks: `strlen(str) == strspn(str, " ")`. -/
def isBlank (str : CStr) : Bool := str.all fun c => c == ' '

/-- `strlen` of a string that may be `NULL`. -/
def deref (str : Option CStr) : UiM CStr :=
  match str with
  | none => throw .overrun
  | some str => pure str

/-- `assign_input`: the old value for an empty line, `NULL` for one of blanks. -/
def assignInput (x y : Option CStr) : UiM (Option CStr) := do
  let str ← deref x
  if str.length = 0 then pure y else if isBlank str then pure none else pure (some str)

/-! ## What is observed -/

section Total

open Routine

variable {P : List Event → Prop}

/-- An event is added to those before. -/
theorem total_log {e : Event} (h : ∀ events, P events → P (events ++ [e])) :
    Total (fun t => P t.events) (log e) := total_modify fun t => h t.events

theorem total_setInput (input : List Char) : Total (fun t => P t.events) (setInput input) :=
  total_modify fun _ ht => ht

theorem total_setBuffer (buffer : CStr) : Total (fun t => P t.events) (setBuffer buffer) :=
  total_modify fun _ ht => ht

theorem total_fgets : Total (fun t => P t.events) fgets :=
  total_get.bind fun _ => (total_setInput _).bind fun _ => total_pure _

theorem total_keypressed : Total (fun t => P t.events) keypressed :=
  total_get.bind fun _ => (total_setInput _).bind fun _ => total_pure _

theorem total_password (passwd : CStr) : Total (fun t => P t.events) (password passwd) := by
  refine total_get.bind fun t => ?_
  split
  · exact total_throw _
  · refine (total_setInput _).bind fun _ => ?_
    split
    · exact total_throw _
    · exact total_pure _

theorem total_getInput : Total (fun t => P t.events) getInput := by
  refine total_fgets.bind fun line => ?_
  split
  · exact total_throw _
  · exact total_throw _
  · exact total_pure _

theorem total_getManAction (type : Int) : Total (fun t => P t.events) (getManAction type) := by
  unfold getManAction
  split
  · refine total_get.bind fun t => (total_setInput _).bind fun _ => ?_
    split
    · exact total_pure _
    · exact total_throw _
  · exact total_pure _

theorem total_getManBoot (type : Int) : Total (fun t => P t.events) (getManBoot type) := by
  refine (total_getManAction type).bind fun action => ?_
  split
  · exact total_getInput.bind fun _ => total_getInput.bind fun _ => total_getInput.bind fun _ =>
      total_getInput.bind fun _ => total_getInput.bind fun _ => total_pure _
  · exact total_getInput.bind fun _ => total_pure _
  · exact total_getInput.bind fun _ => total_pure _
  · exact total_getInput.bind fun _ => total_getInput.bind fun _ => total_getInput.bind fun _ =>
      total_getInput.bind fun _ => total_pure _

theorem total_deref (str : Option CStr) : Total (fun t => P t.events) (deref str) := by
  cases str with
  | none => exact total_throw _
  | some str => exact total_pure str

theorem total_assignInput (x y : Option CStr) : Total (fun t => P t.events) (assignInput x y) := by
  refine (total_deref x).bind fun str => ?_
  split
  · exact total_pure _
  · split <;> exact total_pure _

end Total

end Sysload.Linemode
