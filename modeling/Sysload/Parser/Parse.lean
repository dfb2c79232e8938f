import Sysload.Parser.Scanner
import Sysload.Machine

/-!
# Parsing (`parser_sysload.c`, `yyparse`)

`pass` is one match of the scanner and what the parser does with the token, if there is one; `yyparse`
repeats it. The three entry points give the scanner a new text and start the parser. The state of the
scanner outlives them: it is an argument and part of the result.

With a syntax error bison calls `yyerror` with a text of its own, of which the model only knows what it
depends on (`Messages`). `yyerror` uses its message as a format of `fprintf`; a conversion in it has no
argument, which C leaves undefined.

Source: `src/core/parser_sysload.c`, `parse_sysload`, `parse_sysload_boot_entry` and
`parse_kernel_argument`; `src/core/sysload.conf.l`, `yyerror`. Out of scope are
`parser_open_incl_uri`, whose result is an argument here, and the debug output.
-/

namespace Sysload.Parser

open Comp (Pass)

/-! ## The error message -/

/-- The texts of bison for a syntax error, from the state of the parser and the token, `none` at the end
of the input. They are made of the names of tokens. -/
structure Messages where
  text : Control → Option Kind → CStr
  plain : ∀ c k, '%' ∉ text c k

/-- The text without details. -/
def Messages.short : Messages := ⟨fun _ _ => "syntax error".toList, fun _ _ => by simp⟩

/-- A machine on which no test succeeds and nothing can be loaded. -/
def Answers.blank : Answers := ⟨[], fun _ => false, fun _ => none⟩

/-- A boot entry that reboots. -/
def rebootText : List Char := "boot_entry \x7b\ntitle a\nreboot\n\x7d\n".toList

/-- A format without conversions. -/
def formatPlain : CStr → Bool
  | [] => true
  | '%' :: '%' :: format => formatPlain format
  | c :: format => c != '%' && formatPlain format

/-- The token of an event. -/
def Event.kind : Event → Option Kind
  | .token t _ => some t.kind
  | .eof => none

/-- `yytext` at an event. -/
def Event.yytext : Event → CStr
  | .token _ yytext => yytext
  | .eof => []

/-- The message that `yyerror` builds. -/
def errorText (msg yytext : CStr) (lineno : Nat) : CStr :=
  "uri:???URI???:".toList ++ msg ++ " near symbol '".toList ++ yytext ++ '\'' :: " in line ".toList ++
    printInt lineno ++ ['\n']

/-- `yyerror`. -/
def ParserContext.yyerror (c : ParserContext) (msg yytext : CStr) (lineno : Nat) :
    Except Stop ParserContext :=
  if formatPlain (errorText msg yytext lineno) then
    .ok { c with errmsg := errorText msg yytext lineno }
  else .error .overrun

theorem formatPlain_append {a : CStr} (ha : '%' ∉ a) (b : CStr) :
    formatPlain (a ++ b) = formatPlain b := by
  induction a with
  | nil => rfl
  | cons c a ih =>
    rw [List.mem_cons, not_or] at ha
    rw [List.cons_append, formatPlain, ih ha.2]
    · simp [Ne.symm ha.1]
    · rintro _ rfl
      exact absurd rfl ha.1

/-- What comes behind a character that is no `%` does not matter if it is plain. -/
theorem formatPlain_behind {a b : CStr} {c : Char} (hc : c ≠ '%') (hb : '%' ∉ b) :
    formatPlain (a ++ c :: b) = formatPlain (a ++ [c]) := by
  fun_induction formatPlain a with
  | case1 =>
    have hplain : '%' ∉ [c] := by simpa using Ne.symm hc
    have hsplit : c :: b = [c] ++ b := rfl
    rw [List.nil_append, List.nil_append, hsplit, formatPlain_append hplain,
      ← List.append_nil [c], formatPlain_append hplain, ← List.append_nil b, formatPlain_append hb]
  | case2 format ih => simpa [formatPlain] using ih
  | case3 d format hd ih =>
    -- a `%` of the format is not followed by another one on either side
    have hnext : ∀ rest, ∀ tail, d = '%' → format ++ c :: rest = '%' :: tail → False := by
      intro rest tail hpercent heq
      cases format with
      | nil => exact hc (List.cons.inj heq).1
      | cons e format => exact hd format hpercent (by rw [(List.cons.inj heq).1])
    rw [List.cons_append, List.cons_append, formatPlain, formatPlain, ih]
    · exact hnext []
    · exact hnext b

theorem printInt_plain (n : Nat) : '%' ∉ printInt n := by
  intro h
  exact absurd (isDigit_toDigits _ h) (by decide)

theorem formatPlain_between {p msg q r n e : CStr} (hp : '%' ∉ p) (hmsg : '%' ∉ msg) (hq : '%' ∉ q)
    (hr : '%' ∉ r) (hn : '%' ∉ n) (he : '%' ∉ e) (y : CStr) :
    formatPlain (p ++ msg ++ q ++ y ++ '\'' :: r ++ n ++ e) = formatPlain (y ++ ['\'']) := by
  have htail : '%' ∉ r ++ (n ++ e) := by simp [hr, hn, he]
  simp only [List.append_assoc, List.cons_append]
  rw [formatPlain_append hp, formatPlain_append hmsg, formatPlain_append hq,
    formatPlain_behind (by decide) htail]

/-- The message tells its line. -/
theorem errorText_lineno {msg yytext : CStr} {m n : Nat}
    (h : errorText msg yytext m = errorText msg yytext n) : m = n := by
  have hline := printInt_injective (List.append_cancel_left (List.append_cancel_right h))
  exact Int.ofNat.inj hline

/-- Whether the message of `yyerror` is a format without conversions is decided by `yytext`. -/
theorem formatPlain_errorText {msg : CStr} (hmsg : '%' ∉ msg) (yytext : CStr) (lineno : Nat) :
    formatPlain (errorText msg yytext lineno) = formatPlain (yytext ++ ['\'']) :=
  formatPlain_between (by decide) hmsg (by decide) (by decide) (printInt_plain lineno) (by decide)
    yytext

/-! ## The parser -/

/-- What becomes of the parser at an event. -/
inductive Verdict where
  | shifted (c : Control)
  | accepted
  | rejected
  deriving DecidableEq, Repr

/-- The actions that are run at an event, and what becomes of the parser. -/
def Control.take (c : Control) : Event → List Act × Verdict
  | .token t _ =>
    match (c.shift t).2 with
    | some c' => ((c.shift t).1, .shifted c')
    | none => ((c.shift t).1, .rejected)
  | .eof => (c.finish.1, if c.finish.2 then .accepted else .rejected)

/-- The scanner, the parser and the parser context. -/
structure Parse where
  scan : Scanner
  control : Control
  ctx : ParserContext
  deriving DecidableEq, Repr

section Run

variable (env : Env) (msgs : Messages)

/-- What the scanner does next. -/
def Parse.flexStep (s : Parse) : Scanner × Option Event :=
  s.scan.flexStep s.ctx.active (env.openInclUri s.ctx.executed)

/-- What the parser does with an event. -/
def Parse.take (s : Parse) (e : Event) : Except Stop (Pass Parse (Bool × Parse)) := do
  let ctx ← execAll env (s.control.take e).1 s.ctx
  match (s.control.take e).2 with
  | .shifted c => pure (.next { s with control := c, ctx := ctx })
  | .accepted => pure (.done (true, { s with ctx := ctx }))
  | .rejected =>
    let ctx ← ctx.yyerror (msgs.text s.control e.kind) e.yytext s.scan.lineno
    pure (.done (false, { s with ctx := ctx }))

/-- The parser only goes on with a token. -/
theorem Control.take_eof (c c' : Control) : (c.take .eof).2 ≠ .shifted c' := by
  show (if c.finish.2 then Verdict.accepted else .rejected) ≠ _
  split <;> simp

/-- One match of the scanner, with what the parser does then. -/
def Parse.pass (s : Parse) : Except Stop (Pass Parse (Bool × Parse)) :=
  match (s.flexStep env).2 with
  | none => .ok (.next { s with scan := (s.flexStep env).1 })
  | some e => Parse.take env msgs { s with scan := (s.flexStep env).1 } e

/-- What a pass can be. -/
inductive Passes (s : Parse) : Except Stop (Pass Parse (Bool × Parse)) → Prop where
  | skipped (hevent : (s.flexStep env).2 = none) :
    Passes s (.ok (.next { s with scan := (s.flexStep env).1 }))
  | stopped {e : Event} {stop : Stop} (hevent : (s.flexStep env).2 = some e)
    (hexec : execAll env (s.control.take e).1 s.ctx = .error stop) : Passes s (.error stop)
  | shifted {e : Event} {ctx : ParserContext} {c : Control}
    (hevent : (s.flexStep env).2 = some e)
    (hexec : execAll env (s.control.take e).1 s.ctx = .ok ctx)
    (hverdict : (s.control.take e).2 = .shifted c) :
    Passes s (.ok (.next ⟨(s.flexStep env).1, c, ctx⟩))
  | accepted {e : Event} {ctx : ParserContext} (hevent : (s.flexStep env).2 = some e)
    (hexec : execAll env (s.control.take e).1 s.ctx = .ok ctx)
    (hverdict : (s.control.take e).2 = .accepted) :
    Passes s (.ok (.done (true, ⟨(s.flexStep env).1, s.control, ctx⟩)))
  | rejected {e : Event} {ctx ctx' : ParserContext} (hevent : (s.flexStep env).2 = some e)
    (hexec : execAll env (s.control.take e).1 s.ctx = .ok ctx)
    (hverdict : (s.control.take e).2 = .rejected)
    (hmsg : ctx.yyerror (msgs.text s.control e.kind) e.yytext (s.flexStep env).1.lineno = .ok ctx') :
    Passes s (.ok (.done (false, ⟨(s.flexStep env).1, s.control, ctx'⟩)))
  | garbled {e : Event} {ctx : ParserContext} {stop : Stop}
    (hevent : (s.flexStep env).2 = some e)
    (hexec : execAll env (s.control.take e).1 s.ctx = .ok ctx)
    (hverdict : (s.control.take e).2 = .rejected)
    (hmsg : ctx.yyerror (msgs.text s.control e.kind) e.yytext (s.flexStep env).1.lineno =
      .error stop) : Passes s (.error stop)

variable {env msgs} in
theorem Passes.pass_eq {s : Parse} {r : Except Stop (Pass Parse (Bool × Parse))}
    (h : Passes env msgs s r) : s.pass env msgs = r := by
  unfold Parse.pass
  cases h with
  | skipped hevent => rw [hevent]
  | stopped hevent hexec =>
    rw [hevent]
    simp only [Parse.take, hexec]
    rfl
  | shifted hevent hexec hverdict =>
    rw [hevent]
    simp only [Parse.take, hexec, hverdict]
    rfl
  | accepted hevent hexec hverdict =>
    rw [hevent]
    simp only [Parse.take, hexec, hverdict]
    rfl
  | rejected hevent hexec hverdict hmsg =>
    rw [hevent]
    simp only [Parse.take, hexec, hverdict, bind, Except.bind, hmsg]
    rfl
  | garbled hevent hexec hverdict hmsg =>
    rw [hevent]
    simp only [Parse.take, hexec, hverdict, bind, Except.bind, hmsg]

theorem exists_passes (s : Parse) : ∃ r, Passes env msgs s r := by
  cases hevent : (s.flexStep env).2 with
  | none => exact ⟨_, .skipped hevent⟩
  | some e =>
    cases hexec : execAll env (s.control.take e).1 s.ctx with
    | error stop => exact ⟨_, .stopped hevent hexec⟩
    | ok ctx =>
      cases hverdict : (s.control.take e).2 with
      | shifted c => exact ⟨_, .shifted hevent hexec hverdict⟩
      | accepted => exact ⟨_, .accepted hevent hexec hverdict⟩
      | rejected =>
        cases hmsg : ctx.yyerror (msgs.text s.control e.kind) e.yytext
            (s.flexStep env).1.lineno with
        | error stop => exact ⟨_, .garbled hevent hexec hverdict hmsg⟩
        | ok ctx' => exact ⟨_, .rejected hevent hexec hverdict hmsg⟩

/-- **A pass is one of these.** -/
theorem passes_pass (s : Parse) : Passes env msgs s (s.pass env msgs) := by
  obtain ⟨r, hr⟩ := exists_passes env msgs s
  rwa [hr.pass_eq]

/-- `yyparse`: whether the input is accepted, and what is left behind. -/
def yyparse (s : Parse) : Prog Stop (Bool × Parse) :=
  Prog.loop (fun s => liftM (s.pass env msgs)) s

section Steps

variable {env msgs} {s : Parse} {x : Scanner}

/-- A step of the scanner without a token. -/
theorem yyparse_skip (hflex : s.flexStep env = (x, none)) {r : Except Stop (Bool × Parse)} :
    (yyparse env msgs s).Gives r ↔ (yyparse env msgs { s with scan := x }).Gives r := by
  have hpass := (@Passes.skipped env msgs s (by rw [hflex])).pass_eq
  rw [hflex] at hpass
  exact Prog.gives_loop_next (Prog.gives_lift.mpr hpass)

/-- A token that is shifted. -/
theorem yyparse_shift {e : Event} {ctx : ParserContext} {c : Control}
    (hflex : s.flexStep env = (x, some e))
    (hexec : execAll env (s.control.take e).1 s.ctx = .ok ctx)
    (hverdict : (s.control.take e).2 = .shifted c) {r : Except Stop (Bool × Parse)} :
    (yyparse env msgs s).Gives r ↔ (yyparse env msgs ⟨x, c, ctx⟩).Gives r := by
  have hpass := (@Passes.shifted env msgs s e ctx c (by rw [hflex]) hexec hverdict).pass_eq
  rw [hflex] at hpass
  exact Prog.gives_loop_next (Prog.gives_lift.mpr hpass)

/-- An action that stops. -/
theorem yyparse_stop {e : Event} {stop : Stop} (hflex : s.flexStep env = (x, some e))
    (hexec : execAll env (s.control.take e).1 s.ctx = .error stop) :
    (yyparse env msgs s).Gives (.error stop) := by
  have hpass := (@Passes.stopped env msgs s e stop (by rw [hflex]) hexec).pass_eq
  exact (Prog.gives_loop_error (Prog.gives_lift.mpr hpass)).mpr rfl

/-- A syntax error without actions before it. -/
theorem yyparse_reject {e : Event} (hflex : s.flexStep env = (x, some e))
    (hacts : (s.control.take e).1 = []) (hverdict : (s.control.take e).2 = .rejected)
    (hplain : formatPlain (e.yytext ++ ['\'']) = true) :
    (yyparse env msgs s).Gives (.ok (false, ⟨x, s.control, { s.ctx with
      errmsg := errorText (msgs.text s.control e.kind) e.yytext x.lineno }⟩)) := by
  have hexec : execAll env (s.control.take e).1 s.ctx = .ok s.ctx := by rw [hacts]; rfl
  have hmsg : s.ctx.yyerror (msgs.text s.control e.kind) e.yytext (s.flexStep env).1.lineno =
      .ok _ := if_pos ((formatPlain_errorText (msgs.plain _ _) _ _).trans hplain)
  have hpass := (@Passes.rejected env msgs s e _ _ (by rw [hflex]) hexec hverdict hmsg).pass_eq
  rw [hflex] at hpass
  exact (Prog.gives_loop_done (Prog.gives_lift.mpr hpass)).mpr rfl

/-- An accepted input has no error message. -/
theorem yyparse_accepted {s' : Parse} (h : (yyparse env msgs s).Gives (.ok (true, s')))
    (msgs' : Messages) : (yyparse env msgs' s).Gives (.ok (true, s')) := by
  suffices H : ∀ r, (yyparse env msgs s).Gives r → r = .ok (true, s') →
      (yyparse env msgs' s).Gives (.ok (true, s')) from H _ h rfl
  intro r hr
  refine Prog.loop_induction (motive := fun s r => r = .ok (true, s') →
    (yyparse env msgs' s).Gives (.ok (true, s'))) (fun s a ha heq => ?_)
    (fun s e _ heq => by cases heq) (fun s t r ht ih heq => ?_) hr
  · have hpass := passes_pass env msgs s
    rw [Prog.gives_lift.mp ha] at hpass
    cases heq
    cases hpass with
    | accepted hevent hexec hverdict =>
      exact (Prog.gives_loop_done (Prog.gives_lift.mpr
        (Passes.accepted hevent hexec hverdict).pass_eq)).mpr rfl
  · have hpass := passes_pass env msgs s
    rw [Prog.gives_lift.mp ht] at hpass
    cases hpass with
    | skipped hevent =>
      exact (Prog.gives_loop_next (Prog.gives_lift.mpr
        (Passes.skipped hevent).pass_eq)).mpr (ih heq)
    | shifted hevent hexec hverdict =>
      exact (Prog.gives_loop_next (Prog.gives_lift.mpr
        (Passes.shifted hevent hexec hverdict).pass_eq)).mpr (ih heq)

end Steps

variable {env msgs} in
/-- What every step of the scanner keeps, a parse keeps. -/
theorem yyparse_scan_inv (I : Scanner → Prop)
    (hstep : ∀ active load s, I s → I (s.flexStep active load).1) {s s' : Parse} {accepted : Bool}
    (hs : I s.scan) (h : (yyparse env msgs s).Gives (.ok (accepted, s'))) : I s'.scan := by
  suffices H : ∀ r, (yyparse env msgs s).Gives r → I s.scan →
      ∀ accepted s', r = .ok (accepted, s') → I s'.scan from H _ h hs _ _ rfl
  intro r hr
  refine Prog.loop_induction (motive := fun s r => I s.scan → ∀ (accepted : Bool) (s' : Parse),
    r = .ok (accepted, s') → I s'.scan) (fun s a ha hs accepted s' heq => ?_)
    (fun s e _ _ _ _ heq => by cases heq) (fun s t r ht ih hs => ih ?_) hr
  · have hpass := passes_pass env msgs s
    rw [Prog.gives_lift.mp ha] at hpass
    cases heq
    cases hpass with
    | accepted _ _ _ => exact hstep _ _ _ hs
    | rejected _ _ _ _ => exact hstep _ _ _ hs
  · have hpass := passes_pass env msgs s
    rw [Prog.gives_lift.mp ht] at hpass
    cases hpass with
    | skipped _ => exact hstep _ _ _ hs
    | shifted _ _ _ => exact hstep _ _ _ hs

theorem execAll_inv {I : ParserContext → Prop}
    (hexec : ∀ c d a, I c → exec env c a = .ok d → I d) {as : List Act} {c d : ParserContext}
    (hc : I c) (h : execAll env as c = .ok d) : I d := by
  induction as generalizing c with
  | nil =>
    cases h
    exact hc
  | cons a as ih =>
    obtain ⟨e, he, hrest⟩ := execAll_cons_eq_ok.mp h
    exact ih (hexec c e a hc he) hrest

variable {env msgs} in
/-- What every action keeps, a parse keeps. -/
theorem yyparse_ctx_inv (I : ParserContext → Prop)
    (hexec : ∀ c d a, I c → exec env c a = .ok d → I d)
    (hmsg : ∀ c msg, I c → I { c with errmsg := msg }) {s s' : Parse} {accepted : Bool}
    (hs : I s.ctx) (h : (yyparse env msgs s).Gives (.ok (accepted, s'))) : I s'.ctx := by
  suffices H : ∀ r, (yyparse env msgs s).Gives r → I s.ctx →
      ∀ accepted s', r = .ok (accepted, s') → I s'.ctx from H _ h hs _ _ rfl
  intro r hr
  refine Prog.loop_induction (motive := fun s r => I s.ctx → ∀ (accepted : Bool) (s' : Parse),
    r = .ok (accepted, s') → I s'.ctx) (fun s a ha hs accepted s' heq => ?_)
    (fun s e _ _ _ _ heq => by cases heq) (fun s t r ht ih hs => ih ?_) hr
  · have hpass := passes_pass env msgs s
    rw [Prog.gives_lift.mp ha] at hpass
    cases heq
    cases hpass with
    | accepted _ hacts _ => exact execAll_inv env hexec hs hacts
    | rejected _ hacts _ htext =>
      unfold ParserContext.yyerror at htext
      split at htext
      · cases htext
        exact hmsg _ _ (execAll_inv env hexec hs hacts)
      · cases htext
  · have hpass := passes_pass env msgs s
    rw [Prog.gives_lift.mp ht] at hpass
    cases hpass with
    | skipped _ => exact hs
    | shifted _ hacts _ => exact execAll_inv env hexec hs hacts

/-! ## The entry points -/

/-- The parser in front of a text. -/
def Parse.start (scan : Scanner) (args : Option CStr) (text : List Char) : Parse :=
  ⟨scan.restart text, .start, .init args⟩

/-- What a parse of a configuration comes to. -/
structure Parsed where
  errmsg : Option CStr
  config : CfgToplevel
  executed : List Command
  deriving DecidableEq, Repr

/-- The default boot entry: an index, or else a label. -/
def resolveDefault (config : CfgToplevel) (bootDefault : CStr) : Except CStr Int :=
  match if bootDefault.all Char.isDigit then scanInt bootDefault else none with
  | some idx =>
    if idx < 0 ∨ config.bentryList.length ≤ idx then .error "Invalid default boot index.".toList
    else .ok idx
  | none =>
    match config.bentryList.findIdx? fun bentry => decide (bootDefault = bentry.label) with
    | some idx => .ok idx
    | none => .error "Invalid default boot label.".toList

/-- The end of `parse_sysload`. -/
def parsedOf (uri : CStr) (accepted : Bool) (c : ParserContext) : Parsed :=
  if accepted then
    match resolveDefault c.toplevel c.bootDefault with
    | .ok idx => ⟨none, { c.toplevel with bootDefault := idx }, c.executed⟩
    | .error msg => ⟨some msg, c.toplevel, c.executed⟩
  else
    ⟨some ("Error parsing config URI '".toList ++ uri ++ "': ".toList ++ c.errmsg), c.toplevel,
      c.executed⟩

/-- `parse_sysload`. `file` is the text at the URI, or why it cannot be had. -/
def parseSysload (scan : Scanner) (uri onlyUi : CStr) (file : Except CStr (List Char)) :
    Prog Stop (Scanner × Parsed) :=
  match file with
  | .error msg =>
    pure (scan, ⟨some ("Error accessing config file '".toList ++ uri ++ "': ".toList ++ msg), .init,
      []⟩)
  | .ok text => do
    let r ← yyparse env msgs (.start scan (some onlyUi) text)
    pure (r.2.scan, parsedOf uri r.1 r.2.ctx)

/-- The end of `parse_sysload_boot_entry`: it reads the first boot entry. -/
def firstBentry (accepted : Bool) (c : ParserContext) : Except Stop (Except CStr CfgBentry) :=
  if accepted then
    match c.toplevel.bentryList with
    | [] => .error .overrun
    | bentry :: _ => .ok (.ok bentry)
  else .ok (.error "Error parsing boot entry.".toList)

/-- `parse_sysload_boot_entry`. The string ends at the first `NUL`; `args` is `NULL`. -/
def parseSysloadBootEntry (scan : Scanner) (str : List Char) :
    Prog Stop (Scanner × Except CStr CfgBentry) := do
  let r ← yyparse env msgs (.start scan none (cstr str))
  let bentry ← liftM (firstBentry r.1 r.2.ctx)
  pure (r.2.scan, bentry)

/-- `parse_kernel_argument`; `args` is `NULL`. -/
def parseKernelArgument (scan : Scanner) (karg : List Char) : Prog Stop (Scanner × List Command) := do
  let r ← yyparse env msgs (.start scan none (cstr karg))
  pure (r.2.scan, r.2.ctx.executed)

end Run

end Sysload.Parser
