import Sysload.Parser.Termination

/-!
# One parse after another

The start condition, the line number and the suspended buffers of the scanner outlive a parse, and
the entry points only replace the buffer. `Left` are the states in which earlier parses can leave the
scanner. The next parse is as in a new process exactly when the scanner is in `INITIAL` with no buffer
suspended and, for `parse_sysload`, whose error messages have a line number, in line 1
(`next_parse_independent_iff`).

* A suspended buffer goes on with the line break behind its `include` (`left_atLineEnd`).
* The line number has no influence but in the error message (`yyparse_sameLines`).
* In another start condition the first word of a boot entry is no keyword (`otherMode_rejects`); with a
  buffer suspended an `exec` statement at the end of the input gets the rest of that buffer's line
  (`exec_suspended`).

Source: `src/core/sysload.conf.l`, its static variables; `src/core/parser_sysload.c`, the entry
points.
-/

namespace Sysload.Parser

open Lexer
open Comp (Pass)

/-! ## What earlier parses leave -/

/-- The states of the scanner behind any parses in a process. -/
inductive Left (msgs : Messages) : Scanner → Prop where
  | fresh : Left msgs .fresh
  | kernelArgument {env : Env} {scan scan' : Scanner} {karg : List Char} {executed : List Command}
    (h : Left msgs scan) (hrun : (parseKernelArgument env msgs scan karg).Gives
      (.ok (scan', executed))) : Left msgs scan'
  | sysload {env : Env} {scan scan' : Scanner} {uri onlyUi : CStr}
    {file : Except CStr (List Char)} {p : Parsed} (h : Left msgs scan)
    (hrun : (parseSysload env msgs scan uri onlyUi file).Gives (.ok (scan', p))) : Left msgs scan'
  | bootEntry {env : Env} {scan scan' : Scanner} {str : List Char} {result : Except CStr CfgBentry}
    (h : Left msgs scan) (hrun : (parseSysloadBootEntry env msgs scan str).Gives
      (.ok (scan', result))) : Left msgs scan'

/-- What a call comes to, without the scanner it leaves behind. -/
def Yields {α : Type} (x : Prog Stop (Scanner × α)) (r : Except Stop α) : Prop :=
  ∃ r', x.Gives r' ∧ r'.map Prod.snd = r

/-- The next `parse_sysload` does what it does in a new process. -/
def SysloadIndependent (msgs : Messages) (scan : Scanner) : Prop :=
  ∀ (env : Env) (uri onlyUi : CStr) (file : Except CStr (List Char)) (r : Except Stop Parsed),
    Yields (parseSysload env msgs scan uri onlyUi file) r ↔
      Yields (parseSysload env msgs .fresh uri onlyUi file) r

/-- The next `parse_sysload_boot_entry` does what it does in a new process. -/
def BootEntryIndependent (msgs : Messages) (scan : Scanner) : Prop :=
  ∀ (env : Env) (str : List Char) (r : Except Stop (Except CStr CfgBentry)),
    Yields (parseSysloadBootEntry env msgs scan str) r ↔
      Yields (parseSysloadBootEntry env msgs .fresh str) r

/-! ## Suspended buffers -/

/-- The suspended buffers go on with a line break. -/
def AtLineEnd (s : Scanner) : Prop := ∀ saved ∈ s.stack, ∃ rest, saved.text = '\n' :: rest

/-- Only the rule for the URI of an include opens one. -/
theorem incl_rule : rules.all (fun r => r.action != .incl ||
    decide (r = ruleEol [.includemode] anyLine .incl)) = true := by
  rfl

/-- A rule with `$` stops in front of the line break. -/
theorem drop_of_eol {p : Pattern} {w : List Char} {n : Nat}
    (h : w.take n ∈ (Pattern.seq p (chr '\n')).lang) (hn : n ≤ w.length) :
    ∃ rest, w.drop (n - 1) = '\n' :: rest := by
  obtain ⟨u, _, v, hv, huv⟩ := Language.mem_mul.mp h
  obtain rfl := mem_lang_chr.mp hv
  have hlen : n = u.length + 1 := by
    have := congrArg List.length huv
    rw [List.length_append, List.length_take, Nat.min_eq_left hn] at this
    exact this.symm
  have hw : w = u ++ '\n' :: w.drop n := by
    have happ := List.take_append_drop n w
    rwa [← huv, List.append_assoc, List.singleton_append, eq_comm] at happ
  refine ⟨w.drop n, ?_⟩
  rw [hw, hlen, Nat.add_sub_cancel, List.drop_left, ← hlen, ← hw]

theorem flexStep_atLineEnd {active : Bool} {load : CStr → Option (List Char)} (s : Scanner)
    (h : AtLineEnd s) : AtLineEnd (s.flexStep active load).1 := by
  rcases s.flexStep_cases active load with ⟨_, _, heq⟩ | ⟨saved, stack, _, hstack, heq⟩ |
    ⟨c, rest, _, heq⟩ | ⟨n, r, hmatch, heq⟩
  · rwa [heq]
  · rw [heq]
    intro saved' hmem
    exact h saved' (by rw [hstack]; exact List.mem_cons_of_mem _ hmem)
  · rwa [heq]
  · rw [heq]
    cases haction : r.action with
    | incl =>
      show AtLineEnd (Scanner.include active load _ _)
      rcases Scanner.include_cases active load
        { s with text := s.text.drop (r.taken n), mode := .initial }
        (dropBlanks (cstr (s.text.take (r.taken n)))) with hskip | ⟨_, _, content, _, hopen⟩
      · rwa [hskip]
      · rw [hopen]
        intro saved hmem
        rcases List.mem_cons.mp hmem with rfl | hmem
        · have hrule := List.all_eq_true.mp incl_rule r hmatch.rule
          rw [haction] at hrule
          obtain rfl : r = ruleEol [.includemode] anyLine .incl := by simpa using hrule
          exact drop_of_eol hmatch.lang hmatch.length
        · exact h saved hmem
    | _ => exact h

/-- **A suspended buffer goes on with a line break.** -/
theorem left_atLineEnd {msgs : Messages} {scan : Scanner} (h : Left msgs scan) : AtLineEnd scan := by
  induction h with
  | fresh => exact fun saved hmem => absurd hmem List.not_mem_nil
  | kernelArgument _ hrun ih =>
    obtain ⟨⟨accepted, s⟩, hr, hpure⟩ := Prog.gives_bind_eq_ok.mp hrun
    cases Prog.gives_pure.mp hpure
    exact yyparse_scan_inv AtLineEnd (fun _ _ s hs => flexStep_atLineEnd s hs) ih hr
  | @sysload env scan scan' uri onlyUi file p _ hrun ih =>
    cases file with
    | error msg =>
      cases Prog.gives_pure.mp hrun
      exact ih
    | ok text =>
      obtain ⟨⟨accepted, s⟩, hr, hpure⟩ := Prog.gives_bind_eq_ok.mp hrun
      cases Prog.gives_pure.mp hpure
      exact yyparse_scan_inv AtLineEnd (fun _ _ s hs => flexStep_atLineEnd s hs) ih hr
  | bootEntry _ hrun ih =>
    obtain ⟨⟨accepted, s⟩, hr, hrest⟩ := Prog.gives_bind_eq_ok.mp hrun
    obtain ⟨result, _, hpure⟩ := Prog.gives_bind_eq_ok.mp hrest
    cases Prog.gives_pure.mp hpure
    exact yyparse_scan_inv AtLineEnd (fun _ _ s hs => flexStep_atLineEnd s hs) ih hr

/-! ## Line numbers -/

/-- Two scanners that differ in line numbers only. -/
structure SameText (s t : Scanner) : Prop where
  mode : t.mode = s.mode
  text : t.text = s.text
  stack : t.stack.map Saved.text = s.stack.map Saved.text

section Lines

variable {active : Bool} {load : CStr → Option (List Char)} {s t : Scanner}

theorem include_sameText (h : SameText s t) (uri : CStr) :
    SameText (s.include active load uri) (t.include active load uri) := by
  have hlength : t.stack.length = s.stack.length := by
    simpa using congrArg List.length h.stack
  unfold Scanner.include
  rw [hlength]
  by_cases hdepth : maxInclDepth ≤ s.stack.length
  · rwa [if_pos hdepth, if_pos hdepth]
  rw [if_neg hdepth, if_neg hdepth]
  by_cases hactive : (!active) = true
  · rwa [if_pos hactive, if_pos hactive]
  rw [if_neg hactive, if_neg hactive]
  cases load uri with
  | none => exact h
  | some content => exact ⟨h.mode, rfl, congrArg₂ List.cons h.text h.stack⟩

theorem act_sameText (h : SameText s t) (yytext : List Char) (a : Action) :
    (t.act active load yytext a).2 = (s.act active load yytext a).2 ∧
      SameText (s.act active load yytext a).1 (t.act active load yytext a).1 := by
  have hmode : ∀ next : Option Mode, next.getD t.mode = next.getD s.mode := by
    rw [h.mode]
    exact fun _ => rfl
  cases a with
  | token k val next => exact ⟨rfl, hmode next, h.text, h.stack⟩
  | less k n next => exact ⟨rfl, rfl, congrArg (yytext.drop n ++ ·) h.text, h.stack⟩
  | char next => exact ⟨rfl, hmode next, h.text, h.stack⟩
  | string => exact ⟨rfl, rfl, h.text, h.stack⟩
  | skip next => exact ⟨rfl, hmode next, h.text, h.stack⟩
  | newline => exact ⟨rfl, rfl, h.text, h.stack⟩
  | incl =>
    have hinitial : SameText { s with mode := .initial } { t with mode := .initial } :=
      ⟨rfl, h.text, h.stack⟩
    exact ⟨rfl, include_sameText hinitial _⟩

theorem flexStep_sameText (h : SameText s t) :
    (t.flexStep active load).2 = (s.flexStep active load).2 ∧
      SameText (s.flexStep active load).1 (t.flexStep active load).1 := by
  cases htext : s.text with
  | nil =>
    have htext' : t.text = [] := h.text.trans htext
    cases hstack : s.stack with
    | nil =>
      have hstack' : t.stack = [] := List.map_eq_nil_iff.mp (h.stack.trans (by rw [hstack]; rfl))
      unfold Scanner.flexStep
      rw [htext, htext', hstack, hstack']
      exact ⟨rfl, h⟩
    | cons saved stack =>
      have hmap : t.stack.map Saved.text = saved.text :: stack.map Saved.text := by
        rw [h.stack, hstack]
        rfl
      obtain ⟨saved', stack', hstack', hsaved, hrest⟩ := List.map_eq_cons_iff.mp hmap
      unfold Scanner.flexStep
      rw [htext, htext', hstack, hstack']
      exact ⟨rfl, h.mode, hsaved, hrest⟩
  | cons c rest =>
    have htext' : t.text = c :: rest := h.text.trans htext
    cases hpick : pick (rulesOf s.mode) (c :: rest) with
    | none =>
      rw [Scanner.flexStep_of_none htext hpick,
        Scanner.flexStep_of_none htext' (by rw [h.mode, hpick])]
      exact ⟨rfl, h.mode, rfl, h.stack⟩
    | some match_ =>
      obtain ⟨n, r⟩ := match_
      rw [Scanner.flexStep_of_pick htext hpick,
        Scanner.flexStep_of_pick htext' (by rw [h.mode, hpick]), h.text]
      have hdrop : SameText { s with text := s.text.drop (r.taken n) }
          { t with text := s.text.drop (r.taken n) } := ⟨h.mode, rfl, h.stack⟩
      exact act_sameText hdrop _ _

end Lines

section SameLines

variable {env : Env} {msgs : Messages}

/-- Two parses that differ in line numbers only. -/
structure SameButLines (s t : Parse) : Prop where
  scan : SameText s.scan t.scan
  control : t.control = s.control
  ctx : t.ctx = s.ctx

/-- They end alike; a rejected input only has another error message. -/
def EndSame : Except Stop (Bool × Parse) → Except Stop (Bool × Parse) → Prop
  | .ok (accepted, s), .ok (accepted', t) => accepted' = accepted ∧ (accepted → t.ctx = s.ctx)
  | .error stop, .error stop' => stop' = stop
  | _, _ => False

theorem flexStep_sameLines {s t : Parse} (h : SameButLines s t) :
    (t.flexStep env).2 = (s.flexStep env).2 ∧ SameText (s.flexStep env).1 (t.flexStep env).1 := by
  unfold Parse.flexStep
  rw [h.ctx]
  exact flexStep_sameText h.scan

theorem pass_sameLines {s t : Parse} (h : SameButLines s t) :
    Prog.PassRel SameButLines EndSame (s.pass env msgs) (t.pass env msgs) := by
  obtain ⟨hevents, hscan⟩ := @flexStep_sameLines env _ _ h
  cases hevent : (s.flexStep env).2 with
  | none =>
    rw [hevent] at hevents
    rw [(Passes.skipped hevent).pass_eq, (Passes.skipped hevents).pass_eq]
    exact ⟨hscan, h.control, h.ctx⟩
  | some e =>
    rw [hevent] at hevents
    cases hexec : execAll env (s.control.take e).1 s.ctx with
    | error stop =>
      have hexec' : execAll env (t.control.take e).1 t.ctx = .error stop := by
        rw [h.control, h.ctx, hexec]
      rw [(Passes.stopped hevent hexec).pass_eq, (Passes.stopped hevents hexec').pass_eq]
      exact rfl
    | ok ctx =>
      have hexec' : execAll env (t.control.take e).1 t.ctx = .ok ctx := by
        rw [h.control, h.ctx, hexec]
      cases hverdict : (s.control.take e).2 with
      | shifted c =>
        have hverdict' : (t.control.take e).2 = .shifted c := by rw [h.control, hverdict]
        rw [(Passes.shifted hevent hexec hverdict).pass_eq,
          (Passes.shifted hevents hexec' hverdict').pass_eq]
        exact ⟨hscan, rfl, rfl⟩
      | accepted =>
        have hverdict' : (t.control.take e).2 = .accepted := by rw [h.control, hverdict]
        rw [(Passes.accepted hevent hexec hverdict).pass_eq,
          (Passes.accepted hevents hexec' hverdict').pass_eq]
        exact ⟨rfl, fun _ => rfl⟩
      | rejected =>
        have hverdict' : (t.control.take e).2 = .rejected := by rw [h.control, hverdict]
        have hplain := formatPlain_errorText (msgs.plain s.control e.kind) e.yytext
        by_cases hnear : formatPlain (e.yytext ++ ['\'']) = true
        · have hmsg : ∀ n, ctx.yyerror (msgs.text s.control e.kind) e.yytext n = .ok _ :=
            fun n => if_pos ((hplain n).trans hnear)
          have hmsg' := hmsg (t.flexStep env).1.lineno
          rw [← h.control] at hmsg'
          rw [(Passes.rejected hevent hexec hverdict (hmsg _)).pass_eq,
            (Passes.rejected hevents hexec' hverdict' hmsg').pass_eq]
          exact ⟨rfl, fun h => by cases h⟩
        · have hmsg : ∀ n, ctx.yyerror (msgs.text s.control e.kind) e.yytext n =
              .error .overrun := fun n => if_neg (by rwa [hplain n])
          have hmsg' := hmsg (t.flexStep env).1.lineno
          rw [← h.control] at hmsg'
          rw [(Passes.garbled hevent hexec hverdict (hmsg _)).pass_eq,
            (Passes.garbled hevents hexec' hverdict' hmsg').pass_eq]
          exact rfl

/-- **The line number has no influence** but in an error message. -/
theorem yyparse_sameLines {s t : Parse} (h : SameButLines s t) {r : Except Stop (Bool × Parse)}
    (hr : (yyparse env msgs s).Gives r) : ∃ r', (yyparse env msgs t).Gives r' ∧ EndSame r r' := by
  refine Prog.loop_sim SameButLines EndSame (fun s t p hst hp => ?_) h hr
  obtain rfl := Prog.gives_lift.mp hp
  exact ⟨_, Prog.gives_lift.mpr rfl, pass_sameLines hst⟩

end SameLines

/-! ## Nothing left behind -/

section Clean

variable {msgs : Messages} {scan scan' : Scanner}

theorem yields_of_sameText (h : SameText scan scan') {env : Env} {str : List Char}
    {r : Except Stop (Except CStr CfgBentry)}
    (hr : Yields (parseSysloadBootEntry env msgs scan str) r) :
    Yields (parseSysloadBootEntry env msgs scan' str) r := by
  obtain ⟨r', hr', rfl⟩ := hr
  have hstart : SameButLines (.start scan none (cstr str)) (.start scan' none (cstr str)) :=
    ⟨⟨h.mode, rfl, h.stack⟩, rfl, rfl⟩
  rcases Prog.gives_bind.mp hr' with ⟨⟨accepted, s⟩, hs, hrest⟩ | ⟨stop, hs, rfl⟩
  · obtain ⟨q, hq, hend⟩ := yyparse_sameLines hstart hs
    rcases q with stop | ⟨accepted', t⟩
    · exact hend.elim
    · obtain ⟨rfl, hctx⟩ := hend
      have hfirst : firstBentry accepted' t.ctx = firstBentry accepted' s.ctx := by
        cases accepted' with
        | false => rfl
        | true => rw [hctx rfl]
      rcases Prog.gives_bind.mp hrest with ⟨bentry, hbentry, hpure⟩ | ⟨stop, hstop, rfl⟩
      · cases Prog.gives_pure.mp hpure
        refine ⟨.ok (t.scan, bentry), Prog.gives_bind_eq_ok.mpr ⟨_, hq, ?_⟩, rfl⟩
        refine Prog.gives_bind_eq_ok.mpr ⟨bentry, Prog.gives_lift.mpr ?_, Prog.gives_pure.mpr rfl⟩
        exact hfirst.trans (Prog.gives_lift.mp hbentry)
      · refine ⟨.error stop, Prog.gives_bind.mpr (Or.inl ⟨_, hq, ?_⟩), rfl⟩
        refine Prog.gives_bind.mpr (Or.inr ⟨stop, Prog.gives_lift.mpr ?_, rfl⟩)
        exact hfirst.trans (Prog.gives_lift.mp hstop)
  · obtain ⟨q, hq, hend⟩ := yyparse_sameLines hstart hs
    rcases q with stop' | ⟨accepted', t⟩
    · obtain rfl : stop' = stop := hend
      exact ⟨.error stop', Prog.gives_bind.mpr (Or.inr ⟨stop', hq, rfl⟩), rfl⟩
    · exact hend.elim

theorem bootEntryIndependent_of (hmode : scan.mode = .initial) (hstack : scan.stack = []) :
    BootEntryIndependent msgs scan := by
  intro env str r
  constructor
  · intro hr
    have hsame : SameText (scan.restart (cstr str)) (Scanner.fresh.restart (cstr str)) :=
      ⟨hmode.symm, rfl, congrArg (List.map Saved.text) hstack.symm⟩
    exact yields_of_sameText hsame hr
  · intro hr
    have hsame : SameText (Scanner.fresh.restart (cstr str)) (scan.restart (cstr str)) :=
      ⟨hmode, rfl, congrArg (List.map Saved.text) hstack⟩
    exact yields_of_sameText hsame hr

theorem sysloadIndependent_of (hmode : scan.mode = .initial) (hstack : scan.stack = [])
    (hlineno : scan.lineno = 1) : SysloadIndependent msgs scan := by
  obtain ⟨mode, lineno, text, stack⟩ := scan
  obtain rfl : mode = .initial := hmode
  obtain rfl : stack = [] := hstack
  obtain rfl : lineno = 1 := hlineno
  intro env uri onlyUi file r
  cases file with
  | ok text => rfl
  | error msg =>
    constructor
    · rintro ⟨r', hr', rfl⟩
      cases Prog.gives_pure.mp hr'
      exact ⟨_, Prog.gives_pure.mpr rfl, rfl⟩
    · rintro ⟨r', hr', rfl⟩
      cases Prog.gives_pure.mp hr'
      exact ⟨_, Prog.gives_pure.mpr rfl, rfl⟩

end Clean

/-! ## Something left behind -/

/-- A step within a buffer, where nothing can be included, does not depend on the line and on the
suspended buffers. -/
theorem flexStep_local {active : Bool} {load : CStr → Option (List Char)}
    (hload : ∀ uri, load uri = none) (mode : Mode) (lineno : Nat) {text : List Char}
    (stack : List Saved) (htext : text ≠ []) {x : Scanner} {e : Option Event}
    (hx : (⟨mode, 0, text, []⟩ : Scanner).flexStep active load = (x, e)) :
    (⟨mode, lineno, text, stack⟩ : Scanner).flexStep active load =
      (⟨x.mode, lineno + x.lineno, x.text, stack⟩, e) := by
  cases text with
  | nil => exact absurd rfl htext
  | cons c rest =>
    cases hpick : pick (rulesOf mode) (c :: rest) with
    | none =>
      have hecho : ∀ n st, (⟨mode, n, c :: rest, st⟩ : Scanner).flexStep active load =
          (⟨mode, n, rest, st⟩, none) := fun n st => Scanner.flexStep_of_none rfl hpick
      rw [hecho] at hx
      cases hx
      exact hecho lineno stack
    | some match_ =>
      obtain ⟨n, r⟩ := match_
      have hstep : ∀ l st, (⟨mode, l, c :: rest, st⟩ : Scanner).flexStep active load =
          Scanner.act active load ⟨mode, l, (c :: rest).drop (r.taken n), st⟩
            ((c :: rest).take (r.taken n)) r.action := fun l st => Scanner.flexStep_of_pick rfl hpick
      rw [hstep] at hx ⊢
      cases haction : r.action with
      | incl =>
        rw [haction] at hx
        have hskip : ∀ (s : Scanner) (uri : CStr), s.include active load uri = s := by
          intro s uri
          rcases s.include_cases active load uri with h | ⟨_, _, content, hcontent, _⟩
          · exact h
          · rw [hload] at hcontent
            cases hcontent
        unfold Scanner.act at hx ⊢
        rw [hskip] at hx ⊢
        cases hx
        rfl
      | newline =>
        rw [haction] at hx
        cases hx
        simp [Scanner.act]
      | _ =>
        rw [haction] at hx
        cases hx
        rfl

section Blank

variable {msgs : Messages} {s : Parse} {mode : Mode} {lineno : Nat} {text : List Char}
  {stack : List Saved} {x : Scanner} {e : Option Event}

theorem blank_openInclUri (executed : List Command) (uri : CStr) :
    Answers.blank.env.openInclUri executed uri = none := by
  unfold Env.openInclUri
  split <;> rfl

/-- A step of a parse on the blank machine, from a step with nothing around. -/
theorem blank_flexStep (hactive : s.ctx.active = true) (hscan : s.scan = ⟨mode, lineno, text, stack⟩)
    (htext : text ≠ [])
    (hx : (⟨mode, 0, text, []⟩ : Scanner).flexStep true (fun _ => none) = (x, e)) :
    s.flexStep Answers.blank.env = (⟨x.mode, lineno + x.lineno, x.text, stack⟩, e) := by
  have hload : Answers.blank.env.openInclUri s.ctx.executed = fun _ => none :=
    funext (blank_openInclUri s.ctx.executed)
  unfold Parse.flexStep
  rw [hactive, hscan, hload]
  exact flexStep_local (fun _ => rfl) mode lineno stack htext hx

/-- A text whose first token is a syntax error. -/
theorem blank_rejects (msgs : Messages) (mode : Mode) (lineno : Nat) (stack : List Saved)
    (before : List Char) (args : Option CStr) {text : List Char} (htext : text ≠ []) {k : Kind}
    {val yytext : CStr} {x : Scanner} (hx : (⟨mode, 0, text, []⟩ : Scanner).flexStep true
      (fun _ => none) = (x, some (.token ⟨k, val⟩ yytext)))
    (htake : Control.start.take (.token ⟨k, val⟩ yytext) = ([], .rejected))
    (hplain : formatPlain (yytext ++ ['\'']) = true) :
    ∃ s, (yyparse Answers.blank.env msgs (.start ⟨mode, lineno, before, stack⟩ args text)).Gives
        (.ok (false, s)) ∧
      s.ctx.errmsg = errorText (msgs.text .start (some k)) yytext (lineno + x.lineno) := by
  have hflex : (Parse.start ⟨mode, lineno, before, stack⟩ args text).flexStep Answers.blank.env =
      (⟨x.mode, lineno + x.lineno, x.text, stack⟩, some (.token ⟨k, val⟩ yytext)) :=
    blank_flexStep rfl rfl htext hx
  exact ⟨_, yyparse_reject hflex (congrArg Prod.fst htake) (congrArg Prod.snd htake) hplain, rfl⟩

end Blank

/-- **In another start condition** the first line of a boot entry is a syntax error. -/
theorem otherMode_rejects (msgs : Messages) {scan : Scanner} (hmode : scan.mode ≠ .initial)
    (args : Option CStr) :
    ∃ s, (yyparse Answers.blank.env msgs (.start scan args rebootText)).Gives (.ok (false, s)) := by
  obtain ⟨mode, lineno, text, stack⟩ := scan
  have hne : rebootText ≠ [] := by decide
  have hreject : ∀ (k : Kind) (val yytext : CStr) (x : Scanner),
      (⟨mode, 0, rebootText, []⟩ : Scanner).flexStep true (fun _ => none) =
        (x, some (.token ⟨k, val⟩ yytext)) →
      Control.start.take (.token ⟨k, val⟩ yytext) = ([], .rejected) →
      formatPlain (yytext ++ ['\'']) = true →
      ∃ s, (yyparse Answers.blank.env msgs
        (.start ⟨mode, lineno, text, stack⟩ args rebootText)).Gives (.ok (false, s)) :=
    fun _ _ _ _ hx htake hplain =>
      (blank_rejects msgs mode lineno stack text args hne hx htake hplain).imp fun _ h => h.1
  let behind := "\ntitle a\nreboot\n\x7d\n".toList
  cases mode with
  | initial => exact absurd rfl hmode
  | strmode =>
    exact hreject .tString "boot_entry \x7b".toList "boot_entry \x7b".toList
      ⟨.initial, 0, behind, []⟩ (by rfl) rfl rfl
  | urimode =>
    exact hreject .tUnrecognized ['b'] ['b'] ⟨.urimode, 0, rebootText.tail, []⟩ (by rfl)
      rfl rfl
  | urirestmode =>
    exact hreject .tString "boot_entry \x7b".toList "boot_entry \x7b".toList
      ⟨.initial, 0, behind, []⟩ (by rfl) rfl rfl
  | uimode =>
    exact hreject .tIdent "boot_entry".toList "boot_entry".toList
      ⟨.strmode, 0, " \x7b".toList ++ behind, []⟩ (by rfl) rfl rfl
  | modmode =>
    exact hreject .tIdent "boot_entry".toList "boot_entry".toList
      ⟨.modmode, 0, " \x7b".toList ++ behind, []⟩ (by rfl) rfl rfl
  | includemode =>
    -- the line is taken for a URI that cannot be loaded, and the parser finds the title
    let rest := "title a\nreboot\n\x7d\n".toList
    have h₁ := @blank_flexStep (.start ⟨.includemode, lineno, text, stack⟩ args rebootText)
      .includemode lineno rebootText stack ⟨.initial, 0, '\n' :: rest, []⟩ none rfl rfl hne
      (by rfl)
    have h₂ := @blank_flexStep ⟨⟨.initial, lineno, '\n' :: rest, stack⟩, .start, .init args⟩
      .initial lineno ('\n' :: rest) stack ⟨.initial, 1, rest, []⟩ none rfl rfl
      (List.cons_ne_nil _ _) (by rfl)
    have h₃ := @blank_flexStep ⟨⟨.initial, lineno + 1, rest, stack⟩, .start, .init args⟩ .initial
      (lineno + 1) rest stack ⟨.strmode, 0, "a\nreboot\n\x7d\n".toList, []⟩
      (some (.token ⟨.tTitle, []⟩ "title ".toList)) rfl rfl (by decide) (by decide +kernel)
    have hparse := @yyparse_reject Answers.blank.env msgs _ _ _ h₃ rfl rfl rfl
    exact ⟨_, (yyparse_skip h₁).mpr ((yyparse_skip h₂).mpr hparse)⟩

/-- The boot entry of `rebootText`. -/
def rebootBentry : CfgBentry := { CfgBentry.init with title := ['a'], action := .reboot }

/-- In a new process it is accepted. -/
theorem fresh_accepts (msgs : Messages) (args : Option CStr) (hargs : args = none ∨ args = some []) :
    (yyparse Answers.blank.env msgs (.start .fresh args rebootText)).Gives
      (.ok (true, ⟨⟨.initial, 5, [], []⟩, ⟨.list .deflist true, [], []⟩,
        { ParserContext.init args with
          toplevel := CfgToplevel.init.addBentry rebootBentry }⟩)) := by
  refine @yyparse_accepted Answers.blank.env .short _ _ ?_ msgs
  rcases hargs with rfl | rfl
  · exact ⟨30, by rfl⟩
  · exact ⟨30, by rfl⟩

/-! ### A suspended buffer -/

/-- An `exec` statement without the end of its line. -/
def execText : List Char := "exec x".toList

/-- The control behind the keyword. -/
def execControl : Control := ⟨.input, [], [⟨.tExec, []⟩]⟩

section Exec

variable {msgs : Messages} {lineno : Nat} {before : List Char} {stack : List Saved}
  {args : Option CStr}

/-- The keyword is read, the rest of the line is echoed. -/
theorem exec_begins {r : Except Stop (Bool × Parse)} :
    (yyparse Answers.blank.env msgs (.start ⟨.initial, lineno, before, stack⟩ args execText)).Gives r ↔
      (yyparse Answers.blank.env msgs ⟨⟨.strmode, lineno, [], stack⟩, execControl, .init args⟩).Gives
        r := by
  have h₁ := @blank_flexStep (.start ⟨.initial, lineno, before, stack⟩ args execText) .initial lineno
    execText stack ⟨.strmode, 0, ['x'], []⟩ (some (.token ⟨.tExec, []⟩ "exec ".toList)) rfl rfl
    (by decide) (by rfl)
  have h₂ := @blank_flexStep ⟨⟨.strmode, lineno, ['x'], stack⟩, execControl, .init args⟩ .strmode
    lineno ['x'] stack ⟨.strmode, 0, [], []⟩ none rfl rfl (by decide) (by rfl)
  have hshift := @yyparse_shift Answers.blank.env msgs _ _ _ (.init args) execControl h₁ rfl rfl r
  exact hshift.trans (yyparse_skip h₂)

/-- In a new process that is a syntax error. -/
theorem exec_rejected (msgs : Messages) (args : Option CStr) :
    ∃ s, (yyparse Answers.blank.env msgs (.start .fresh args execText)).Gives (.ok (false, s)) ∧
      s.ctx.executed = [] := by
  have hflex : (⟨⟨.strmode, 1, [], []⟩, execControl, .init args⟩ : Parse).flexStep
      Answers.blank.env = (⟨.strmode, 1, [], []⟩, some .eof) := rfl
  exact ⟨_, exec_begins.mpr (yyparse_reject hflex rfl rfl rfl), rfl⟩

/-- **With a buffer suspended** the statement goes on in that buffer. -/
theorem exec_suspended {rest : List Char} {r : Except Stop (Bool × Parse)} {l : Nat} :
    (yyparse Answers.blank.env msgs
        (.start ⟨.initial, lineno, before, ⟨'\n' :: rest, l⟩ :: stack⟩ args execText)).Gives r ↔
      (yyparse Answers.blank.env msgs
        ⟨⟨.strmode, l, '\n' :: rest, stack⟩, execControl, .init args⟩).Gives r := by
  refine exec_begins.trans (yyparse_skip ?_)
  rfl

theorem exec_string {rest : List Char} {l : Nat} :
    (⟨⟨.strmode, l, '\n' :: rest, stack⟩, execControl, .init args⟩ : Parse).flexStep
      Answers.blank.env = (⟨.initial, l, '\n' :: rest, stack⟩, some (.token ⟨.tString, []⟩ [])) := by
  unfold Parse.flexStep
  exact Scanner.flexStep_of_pick (s := ⟨.strmode, l, '\n' :: rest, stack⟩) rfl
    (pick_strmode List.not_mem_nil rest)

end Exec

/-- An action adds to what was executed. -/
theorem exec_executed {env : Env} {c d : ParserContext} {a : Act} (h : exec env c a = .ok d) :
    c.executed <+: d.executed := by
  cases a with
  | enterSystem l =>
    cases h
    unfold ParserContext.enterSystem
    dsimp only
    split <;> exact List.prefix_rfl
  | exitSystem =>
    cases h
    unfold ParserContext.exitSystem
    dsimp only
    split <;> exact List.prefix_rfl
  | _ =>
    simp only [exec, ParserContext.enabled, bind, Except.bind, pure, Except.pure] at h
    repeat' split at h
    all_goals first
      | contradiction
      | (cases h; exact List.prefix_rfl)
      | (cases h; exact List.prefix_append _ _)

/-! ### Calls -/

theorem Yields.unique {α : Type} {x : Prog Stop (Scanner × α)} {r r' : Except Stop α}
    (h : Yields x r) (h' : Yields x r') : r = r' := by
  obtain ⟨q, hq, rfl⟩ := h
  obtain ⟨q', hq', rfl⟩ := h'
  rw [hq.unique hq']

section Calls

variable {env : Env} {msgs : Messages} {scan : Scanner} {str : List Char} {s : Parse}

theorem bootEntry_accepted (h : (yyparse env msgs (.start scan none (cstr str))).Gives (.ok (true, s)))
    {bentry : CfgBentry} {rest : List CfgBentry} (hlist : s.ctx.toplevel.bentryList = bentry :: rest) :
    Yields (parseSysloadBootEntry env msgs scan str) (.ok (.ok bentry)) := by
  refine ⟨.ok (s.scan, .ok bentry), Prog.gives_bind_eq_ok.mpr ⟨_, h, ?_⟩, rfl⟩
  refine Prog.gives_bind_eq_ok.mpr ⟨.ok bentry, Prog.gives_lift.mpr ?_, Prog.gives_pure.mpr rfl⟩
  unfold firstBentry
  rw [if_pos rfl, hlist]

theorem bootEntry_rejected
    (h : (yyparse env msgs (.start scan none (cstr str))).Gives (.ok (false, s))) :
    Yields (parseSysloadBootEntry env msgs scan str)
      (.ok (.error "Error parsing boot entry.".toList)) :=
  ⟨.ok (s.scan, _), Prog.gives_bind_eq_ok.mpr ⟨_, h, Prog.gives_bind_eq_ok.mpr
    ⟨_, Prog.gives_lift.mpr rfl, Prog.gives_pure.mpr rfl⟩⟩, rfl⟩

theorem bootEntry_stopped {stop : Stop}
    (h : (yyparse env msgs (.start scan none (cstr str))).Gives (.error stop)) :
    Yields (parseSysloadBootEntry env msgs scan str) (.error stop) :=
  ⟨.error stop, Prog.gives_bind.mpr (Or.inr ⟨stop, h, rfl⟩), rfl⟩

theorem sysload_ended {accepted : Bool} {uri onlyUi : CStr} {text : List Char}
    (h : (yyparse env msgs (.start scan (some onlyUi) text)).Gives (.ok (accepted, s))) :
    Yields (parseSysload env msgs scan uri onlyUi (.ok text)) (.ok (parsedOf uri accepted s.ctx)) :=
  ⟨.ok (s.scan, _), Prog.gives_bind_eq_ok.mpr ⟨_, h, Prog.gives_pure.mpr rfl⟩, rfl⟩

theorem sysload_stopped {stop : Stop} {uri onlyUi : CStr} {text : List Char}
    (h : (yyparse env msgs (.start scan (some onlyUi) text)).Gives (.error stop)) :
    Yields (parseSysload env msgs scan uri onlyUi (.ok text)) (.error stop) :=
  ⟨.error stop, Prog.gives_bind.mpr (Or.inr ⟨stop, h, rfl⟩), rfl⟩

theorem parsedOf_executed (uri : CStr) (accepted : Bool) (c : ParserContext) :
    (parsedOf uri accepted c).executed = c.executed := by
  unfold parsedOf
  split
  · split <;> rfl
  · rfl

theorem parsedOf_rejected (uri : CStr) (c : ParserContext) :
    (parsedOf uri false c).errmsg =
      some ("Error parsing config URI '".toList ++ uri ++ "': ".toList ++ c.errmsg) := rfl

end Calls

section Converse

variable {msgs : Messages} {scan : Scanner}

theorem mode_of_bootEntryIndependent (h : BootEntryIndependent msgs scan) :
    scan.mode = .initial := by
  by_contra hmode
  have hcstr : cstr rebootText = rebootText := by decide
  obtain ⟨s, hs⟩ := otherMode_rejects msgs hmode none
  have hfresh := fresh_accepts msgs none (Or.inl rfl)
  rw [← hcstr] at hs hfresh
  have hsame := (h Answers.blank.env rebootText _).mpr (bootEntry_accepted hfresh rfl)
  exact absurd (hsame.unique (bootEntry_rejected hs)) (by simp)

theorem mode_of_sysloadIndependent (h : SysloadIndependent msgs scan) : scan.mode = .initial := by
  by_contra hmode
  obtain ⟨s, hs⟩ := otherMode_rejects msgs hmode (some [])
  have hfresh := fresh_accepts msgs (some []) (Or.inr rfl)
  have hsame := (h Answers.blank.env [] [] (.ok rebootText) _).mpr (sysload_ended hfresh)
  have heq := congrArg Parsed.errmsg (Except.ok.inj (hsame.unique (sysload_ended hs)))
  have hnone : (parsedOf [] true { ParserContext.init (some []) with
      toplevel := CfgToplevel.init.addBentry rebootBentry }).errmsg = none := rfl
  rw [parsedOf_rejected, hnone] at heq
  cases heq

theorem stack_of_bootEntryIndependent (hleft : AtLineEnd scan) (h : BootEntryIndependent msgs scan) :
    scan.stack = [] := by
  have hmode := mode_of_bootEntryIndependent h
  by_contra hne
  obtain ⟨mode, lineno, text, stack⟩ := scan
  obtain rfl : mode = .initial := hmode
  cases stack with
  | nil => exact hne rfl
  | cons saved stack =>
    obtain ⟨rest, hrest⟩ := hleft saved List.mem_cons_self
    obtain ⟨saved, l⟩ := saved
    obtain rfl : saved = '\n' :: rest := hrest
    have hcstr : cstr execText = execText := by decide
    obtain ⟨s, hs, _⟩ := exec_rejected msgs none
    have hstop : (yyparse Answers.blank.env msgs
        (.start ⟨.initial, lineno, text, ⟨'\n' :: rest, l⟩ :: stack⟩ none execText)).Gives
        (.error .overrun) := exec_suspended.mpr (yyparse_stop exec_string rfl)
    rw [← hcstr] at hs hstop
    have hsame := (h Answers.blank.env execText _).mpr (bootEntry_rejected hs)
    exact absurd (hsame.unique (bootEntry_stopped hstop)) (by simp)

theorem stack_of_sysloadIndependent (hleft : AtLineEnd scan) (h : SysloadIndependent msgs scan) :
    scan.stack = [] := by
  have hmode := mode_of_sysloadIndependent h
  by_contra hne
  obtain ⟨mode, lineno, text, stack⟩ := scan
  obtain rfl : mode = .initial := hmode
  cases stack with
  | nil => exact hne rfl
  | cons saved stack =>
    obtain ⟨rest, hrest⟩ := hleft saved List.mem_cons_self
    obtain ⟨saved, l⟩ := saved
    obtain rfl : saved = '\n' :: rest := hrest
    obtain ⟨s, hs, hexecuted⟩ := exec_rejected msgs (some [])
    have hfresh := (h Answers.blank.env [] [] (.ok execText) _).mpr (sysload_ended hs)
    -- the statement is executed, and what comes behind it does not take that back
    let c : ParserContext := (ParserContext.init (some [])).execute (.system [])
    have hstep : ∀ r, (yyparse Answers.blank.env msgs (.start
        ⟨.initial, lineno, text, ⟨'\n' :: rest, l⟩ :: stack⟩ (some []) execText)).Gives r ↔
        (yyparse Answers.blank.env msgs
          ⟨⟨.initial, l, '\n' :: rest, stack⟩, ⟨.list .deflist true, [], []⟩, c⟩).Gives r :=
      fun r => exec_suspended.trans (yyparse_shift exec_string rfl rfl)
    obtain ⟨r, hr⟩ := yyparse_ends Answers.blank.env msgs
      ⟨⟨.initial, l, '\n' :: rest, stack⟩, ⟨.list .deflist true, [], []⟩, c⟩
    have hstale := (hstep r).mpr hr
    rcases r with stop | ⟨accepted, t⟩
    · exact absurd (hfresh.unique (sysload_stopped hstale)) (by simp)
    · have hprefix : c.executed <+: t.ctx.executed :=
        yyparse_ctx_inv (fun d => c.executed <+: d.executed)
          (fun d d' a hd hexec => hd.trans (exec_executed hexec)) (fun d msg hd => hd)
          List.prefix_rfl hr
      have heq := congrArg Parsed.executed (Except.ok.inj (hfresh.unique (sysload_ended hstale)))
      rw [parsedOf_executed, parsedOf_executed, hexecuted] at heq
      rw [← heq] at hprefix
      exact absurd (List.prefix_nil.mp hprefix) (by simp [c, ParserContext.execute])

theorem lineno_of_sysloadIndependent (hleft : AtLineEnd scan) (h : SysloadIndependent msgs scan) :
    scan.lineno = 1 := by
  have hmode := mode_of_sysloadIndependent h
  have hstack := stack_of_sysloadIndependent hleft h
  obtain ⟨mode, lineno, text, stack⟩ := scan
  obtain rfl : mode = .initial := hmode
  obtain rfl : stack = [] := hstack
  have hx : (⟨.initial, 0, ['x'], []⟩ : Scanner).flexStep true (fun _ => none) =
      (⟨.initial, 0, [], []⟩, some (.token ⟨.tIdent, ['x']⟩ ['x'])) := rfl
  obtain ⟨s, hs, hmsg⟩ := blank_rejects msgs .initial lineno [] text (some [])
    (List.cons_ne_nil _ _) hx rfl rfl
  obtain ⟨s', hs', hmsg'⟩ := blank_rejects msgs .initial 1 [] [] (some [])
    (List.cons_ne_nil _ _) hx rfl rfl
  have hsame := (h Answers.blank.env [] [] (.ok ['x']) _).mpr (sysload_ended hs')
  have heq := congrArg Parsed.errmsg (Except.ok.inj (hsame.unique (sysload_ended hs)))
  rw [parsedOf_rejected, parsedOf_rejected, hmsg, hmsg'] at heq
  exact (errorText_lineno (List.append_cancel_left (Option.some.inj heq))).symm

end Converse

/-- **When the next parse is independent of the earlier ones.** -/
theorem next_parse_independent_iff {msgs : Messages} {scan : Scanner} (h : Left msgs scan) :
    (SysloadIndependent msgs scan ↔ scan.mode = .initial ∧ scan.stack = [] ∧ scan.lineno = 1) ∧
      (BootEntryIndependent msgs scan ↔ scan.mode = .initial ∧ scan.stack = []) := by
  have hleft := left_atLineEnd h
  refine ⟨⟨fun hsame => ?_, fun ⟨hmode, hstack, hlineno⟩ => ?_⟩,
    ⟨fun hsame => ?_, fun ⟨hmode, hstack⟩ => ?_⟩⟩
  · exact ⟨mode_of_sysloadIndependent hsame, stack_of_sysloadIndependent hleft hsame,
      lineno_of_sysloadIndependent hleft hsame⟩
  · exact sysloadIndependent_of hmode hstack hlineno
  · exact ⟨mode_of_bootEntryIndependent hsame, stack_of_bootEntryIndependent hleft hsame⟩
  · exact bootEntryIndependent_of hmode hstack

/-- The scanner behind the kernel argument `kset=mod(a`. -/
def openBracketScanner : Scanner := ⟨.modmode, 1, [], []⟩

theorem openBracket_left : Left .short openBracketScanner :=
  @Left.kernelArgument .short Answers.blank.env .fresh openBracketScanner "kset=mod(a".toList [] .fresh
    ⟨20, by rfl⟩

theorem next_parse_independent_iff_openBracket :
    (SysloadIndependent .short openBracketScanner ↔ openBracketScanner.mode = .initial ∧
        openBracketScanner.stack = [] ∧ openBracketScanner.lineno = 1) ∧
      (BootEntryIndependent .short openBracketScanner ↔ openBracketScanner.mode = .initial ∧
        openBracketScanner.stack = []) :=
  next_parse_independent_iff openBracket_left

/-- **A kernel argument spoils the configuration**: behind `kset=mod(a` every configuration is read with
the rules for the brackets of `mod`. -/
theorem openBracket_spoils :
    ¬ ∀ (msgs : Messages) (scan : Scanner), Left msgs scan →
      SysloadIndependent msgs scan ∧ BootEntryIndependent msgs scan := by
  intro hall
  have hmode := mode_of_sysloadIndependent (hall .short _ openBracket_left).1
  cases hmode

end Sysload.Parser
