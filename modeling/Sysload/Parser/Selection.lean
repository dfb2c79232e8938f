import Sysload.Parser.Independence
import Sysload.Parser.Sections

/-!
# What a user interface sends (`parse_sysload_boot_entry`)

The output of a user interface is parsed with the whole grammar, but without `args`. What the grammar
does with a string does not depend on `args`, up to the first action that looks at them: `Reading` is
the list of the actions of a string, each with whether its section is active, and how the string
ends. `yyparse_reading` says what comes of the string without `args`, from its reading alone.

Source: `src/core/parser_sysload.c`, `parse_sysload_boot_entry`; `src/core/sysload.conf.y`. Out of
scope is what happens behind a null pointer.
-/

namespace Sysload.Parser

open Comp (Pass)

/-! ## The reading of a string -/

/-- An action, and whether it is in an active section. -/
abbrev Step := Act × Bool

/-- The action looks at `args`. -/
def readsArgs : Step → Bool
  | (.timeout _, _) => true
  | (.setupModule, _) => true
  | (.setup _, _) => true
  | (.network, _) => true
  | (.exec _, _) => true
  | (.userinterface _ _, active) => active
  | (.userinterfaceSsh _ _, active) => active
  | _ => false

/-- How a string ends: it is accepted, or there is a syntax error near some text. -/
inductive Ending where
  | accepted
  | rejected (near : CStr)
  deriving DecidableEq, Repr

/-- A sequence of actions, each with whether it is in an active section. -/
def script (env : Env) : List Act → ParserContext → List Step
  | [], _ => []
  | a :: as, c =>
    (a, c.active) :: match exec env c a with
      | .ok d => script env as d
      | .error _ => []

/-- The actions that the grammar has for the text in front of the scanner, and how the text ends. -/
inductive Reading (env : Env) : Parse → List Step → Ending → Prop where
  | skipped {s : Parse} {steps : List Step} {ending : Ending}
    (hevent : (s.flexStep env).2 = none)
    (hrest : Reading env { s with scan := (s.flexStep env).1 } steps ending) :
    Reading env s steps ending
  | shifted {s : Parse} {e : Event} {ctx : ParserContext} {c : Control} {steps : List Step}
    {ending : Ending} (hevent : (s.flexStep env).2 = some e)
    (hexec : execAll env (s.control.take e).1 s.ctx = .ok ctx)
    (hverdict : (s.control.take e).2 = .shifted c)
    (hrest : Reading env ⟨(s.flexStep env).1, c, ctx⟩ steps ending) :
    Reading env s (script env (s.control.take e).1 s.ctx ++ steps) ending
  | accepted {s : Parse} {e : Event} {ctx : ParserContext} (hevent : (s.flexStep env).2 = some e)
    (hexec : execAll env (s.control.take e).1 s.ctx = .ok ctx)
    (hverdict : (s.control.take e).2 = .accepted) :
    Reading env s (script env (s.control.take e).1 s.ctx) .accepted
  | rejected {s : Parse} {e : Event} {ctx : ParserContext} (hevent : (s.flexStep env).2 = some e)
    (hexec : execAll env (s.control.take e).1 s.ctx = .ok ctx)
    (hverdict : (s.control.take e).2 = .rejected) :
    Reading env s (script env (s.control.take e).1 s.ctx) (.rejected e.yytext)

/-- Every text has a reading. -/
theorem exists_reading (env : Env) {s : Parse} {ui : CStr} (h : s.ctx.args = some ui) :
    ∃ steps ending, Reading env s steps ending := by
  obtain ⟨r, hr⟩ := yyparse_ends env .short s
  revert h
  refine Prog.loop_induction (motive := fun s _ => s.ctx.args = some ui →
    ∃ steps ending, Reading env s steps ending) (fun s a ha h => ?_) (fun s stop he h => ?_)
    (fun s s' r hs ih h => ?_) hr
  · have hpass := passes_pass env .short s
    rw [Prog.gives_lift.mp ha] at hpass
    cases hpass with
    | accepted hevent hexec hverdict => exact ⟨_, _, .accepted hevent hexec hverdict⟩
    | rejected hevent hexec hverdict _ => exact ⟨_, _, .rejected hevent hexec hverdict⟩
  · have hpass := passes_pass env .short s
    rw [Prog.gives_lift.mp he] at hpass
    cases hpass with
    | stopped _ hexec =>
      obtain ⟨c', hc', _⟩ := execAll_ok env h _
      rw [hc'] at hexec
      cases hexec
    | garbled hevent hexec hverdict _ => exact ⟨_, _, .rejected hevent hexec hverdict⟩
  · have hpass := passes_pass env .short s
    rw [Prog.gives_lift.mp hs] at hpass
    cases hpass with
    | skipped hevent =>
      obtain ⟨steps, ending, hrest⟩ := ih h
      exact ⟨steps, ending, .skipped hevent hrest⟩
    | shifted hevent hexec hverdict =>
      obtain ⟨c', hc', hargs⟩ := execAll_ok env h _
      cases hexec.symm.trans hc'
      obtain ⟨steps, ending, hrest⟩ := ih hargs
      exact ⟨_, ending, .shifted hevent hexec hverdict hrest⟩

/-- **The line number has no influence** on a reading. -/
theorem Reading.sameLines {env : Env} {s t : Parse} {steps : List Step} {ending : Ending}
    (h : Reading env s steps ending) (hsame : SameButLines s t) : Reading env t steps ending := by
  induction h generalizing t with
  | skipped hevent _ ih =>
    obtain ⟨hevents, hscan⟩ := @flexStep_sameLines env _ _ hsame
    exact .skipped (hevents.trans hevent) (ih ⟨hscan, hsame.control, hsame.ctx⟩)
  | shifted hevent hexec hverdict _ ih =>
    obtain ⟨hevents, hscan⟩ := @flexStep_sameLines env _ _ hsame
    rw [← hsame.control] at hexec hverdict ⊢
    rw [← hsame.ctx] at hexec ⊢
    exact .shifted (hevents.trans hevent) hexec hverdict (ih ⟨hscan, rfl, rfl⟩)
  | accepted hevent hexec hverdict =>
    obtain ⟨hevents, -⟩ := @flexStep_sameLines env _ _ hsame
    rw [← hsame.control] at hexec hverdict ⊢
    rw [← hsame.ctx] at hexec ⊢
    exact .accepted (hevents.trans hevent) hexec hverdict
  | rejected hevent hexec hverdict =>
    obtain ⟨hevents, -⟩ := @flexStep_sameLines env _ _ hsame
    rw [← hsame.control] at hexec hverdict ⊢
    rw [← hsame.ctx] at hexec ⊢
    exact .rejected (hevents.trans hevent) hexec hverdict

/-! ## Without arguments -/

/-- The context of `parse_sysload_boot_entry`, where `args` is `NULL`. -/
def ParserContext.noArgs (c : ParserContext) : ParserContext := { c with args := none }

/-- The same parse without `args`. -/
def Parse.noArgs (s : Parse) : Parse := { s with ctx := s.ctx.noArgs }

theorem noArgs_uimode (c : ParserContext) : c.noArgs.uimode = .error .overrun := rfl

theorem noArgs_ite (c d e : ParserContext) :
    (if c.noArgs.active then d.noArgs else e.noArgs) = (if c.active then d else e).noArgs :=
  (apply_ite ParserContext.noArgs _ _ _).symm

theorem enterSystem_noArgs (c : ParserContext) (b : Bool) :
    c.noArgs.enterSystem b = (c.enterSystem b).noArgs := by
  unfold ParserContext.enterSystem
  dsimp only
  by_cases houter : { c with systemDepth := c.systemDepth + 1 }.active = true ∧ ¬ b = true
  · rw [if_pos houter]
    exact if_pos houter
  · rw [if_neg houter]
    exact if_neg houter

theorem exitSystem_noArgs (c : ParserContext) : c.noArgs.exitSystem = c.exitSystem.noArgs := by
  unfold ParserContext.exitSystem
  dsimp only
  by_cases hfirst : c.systemFirstInactive = c.systemDepth
  · have hnoArgs : c.noArgs.systemFirstInactive = c.noArgs.systemDepth := hfirst
    rw [if_pos hfirst, if_pos hnoArgs]
    rfl
  · have hnoArgs : ¬ c.noArgs.systemFirstInactive = c.noArgs.systemDepth := hfirst
    rw [if_neg hfirst, if_neg hnoArgs]
    rfl

/-- **An action without `args`** does the same, or follows the null pointer. -/
theorem exec_noArgs (env : Env) (c : ParserContext) (a : Act) :
    exec env c.noArgs a = if readsArgs (a, c.active) then .error .overrun
      else (exec env c a).map ParserContext.noArgs := by
  cases a with
  | bootDefault str => exact congrArg Except.ok (noArgs_ite c { c with bootDefault := str } c)
  | timeout number => rfl
  | password str =>
    exact congrArg Except.ok
      (noArgs_ite c { c with toplevel := { c.toplevel with password := str } } c)
  | setupModule => rfl
  | modparam p => exact congrArg Except.ok (noArgs_ite c { c with modconf := p.set c.modconf } c)
  | setup d => rfl
  | network => rfl
  | netparam p => exact congrArg Except.ok (noArgs_ite c { c with netconf := p.set c.netconf } c)
  | userinterface ident str =>
    by_cases hactive : c.active = true
    · have hnoArgs : c.noArgs.active = true := hactive
      rw [exec, if_pos hnoArgs, noArgs_uimode, hactive]
      rfl
    · have hnoArgs : ¬ c.noArgs.active = true := hactive
      rw [exec, if_neg hnoArgs, readsArgs, if_neg hactive, exec, if_neg hactive]
      rfl
  | userinterfaceSsh ident str =>
    by_cases hactive : c.active = true
    · have hnoArgs : c.noArgs.active = true := hactive
      rw [exec, if_pos hnoArgs, noArgs_uimode, hactive]
      rfl
    · have hnoArgs : ¬ c.noArgs.active = true := hactive
      rw [exec, if_neg hnoArgs, readsArgs, if_neg hactive, exec, if_neg hactive]
      rfl
  | exec str => rfl
  | bootentry => rfl
  | title str => rfl
  | label str => rfl
  | option o => exact congrArg Except.ok (noArgs_ite c { c with bentry := o.set c.bentry } c)
  | enterSystem l => exact congrArg Except.ok (enterSystem_noArgs c _)
  | exitSystem => exact congrArg Except.ok (exitSystem_noArgs c)
  | ksetSetup d => rfl
  | ksetMod ident => rfl
  | netrest p => rfl
  | netEnable => rfl

/-- A sequence of actions without `args`. -/
theorem execAll_noArgs (env : Env) {as : List Act} {c : ParserContext} {ui : CStr}
    (h : c.args = some ui) :
    execAll env as c.noArgs = if (script env as c).any readsArgs then .error .overrun
      else (execAll env as c).map ParserContext.noArgs := by
  induction as generalizing c with
  | nil => rfl
  | cons a as ih =>
    obtain ⟨d, hd, hargs⟩ := exec_ok env h a
    rw [execAll_cons, execAll_cons, exec_noArgs, script, hd, List.any_cons]
    by_cases hreads : readsArgs (a, c.active) = true
    · rw [if_pos hreads, hreads]
      rfl
    · rw [if_neg hreads, Bool.eq_false_of_not_eq_true hreads]
      exact ih hargs

/-! ## The boot entries of a reading -/

/-- What an action makes of the boot entry that is being built. -/
def bentryStep (b : CfgBentry) : Step → CfgBentry
  | (.title str, _) => { b with title := str }
  | (.label str, _) => { b with label := str }
  | (.option o, active) => if active then o.set b else b
  | (.bootentry, _) => .init
  | _ => b

/-- The boot entries that are added, from the one that is being built. -/
def bentries (b : CfgBentry) : List Step → List CfgBentry
  | [] => []
  | step :: steps => (if step = (.bootentry, true) then [b] else []) ++ bentries (bentryStep b step) steps

theorem bentries_append (b : CfgBentry) (steps more : List Step) :
    bentries b (steps ++ more) = bentries b steps ++ bentries (steps.foldl bentryStep b) more := by
  induction steps generalizing b with
  | nil => rfl
  | cons step steps ih => rw [List.cons_append, bentries, ih, ← List.append_assoc]; rfl

theorem bentries_eq_nil {b : CfgBentry} {steps : List Step} :
    bentries b steps = [] ↔ (Act.bootentry, true) ∉ steps := by
  induction steps generalizing b with
  | nil => simp [bentries]
  | cons step steps ih =>
    rw [bentries, List.append_eq_nil_iff, ih, List.mem_cons, not_or, eq_comm]
    by_cases hstep : step = (.bootentry, true)
    · simp [hstep]
    · simp [hstep, Ne.symm hstep]

/-- What one action adds. -/
theorem exec_bentries {env : Env} {c d : ParserContext} {a : Act} (h : exec env c a = .ok d) :
    d.bentry = bentryStep c.bentry (a, c.active) ∧
      d.toplevel.bentryList = c.toplevel.bentryList ++ bentries c.bentry [(a, c.active)] := by
  cases a with
  | bootentry =>
    cases h
    refine ⟨rfl, ?_⟩
    by_cases hactive : c.active = true
    · simp [bentries, hactive, CfgToplevel.addBentry]
    · simp [bentries, hactive]
  | option o =>
    cases h
    by_cases hactive : c.active = true
    · simp [bentries, bentryStep, hactive]
    · simp [bentries, bentryStep, hactive]
  | enterSystem l =>
    cases h
    obtain ⟨k, hk⟩ := ParserContext.enterSystem_eq c (decide (l.Matches env c.executed))
    rw [hk]
    exact ⟨rfl, (List.append_nil _).symm⟩
  | exitSystem =>
    cases h
    obtain ⟨k, hk⟩ := ParserContext.exitSystem_eq c
    rw [hk]
    exact ⟨rfl, (List.append_nil _).symm⟩
  | _ =>
    simp only [exec, ParserContext.enabled, bind, Except.bind, pure, Except.pure] at h
    repeat' split at h
    all_goals first
      | contradiction
      | (cases h; exact ⟨rfl, (List.append_nil _).symm⟩)

theorem execAll_bentries {env : Env} {as : List Act} {c d : ParserContext}
    (h : execAll env as c = .ok d) :
    d.bentry = (script env as c).foldl bentryStep c.bentry ∧
      d.toplevel.bentryList = c.toplevel.bentryList ++ bentries c.bentry (script env as c) := by
  induction as generalizing c with
  | nil =>
    cases h
    exact ⟨rfl, (List.append_nil _).symm⟩
  | cons a as ih =>
    obtain ⟨e, he, hrest⟩ := execAll_cons_eq_ok.mp h
    obtain ⟨hbentry, hlist⟩ := exec_bentries he
    obtain ⟨hbentry', hlist'⟩ := ih hrest
    rw [script, he]
    refine ⟨by rw [hbentry', hbentry]; rfl, ?_⟩
    rw [hlist', hlist, List.append_assoc, hbentry, bentries, bentries, bentries]
    simp

/-! ## What comes of a string -/

/-- What comes of a text without `args`, from its reading and the boot entries before: the boot entries
if it is accepted. -/
def outcome (built : CfgBentry) (added : List CfgBentry) (steps : List Step) (ending : Ending) :
    Except Stop (Option (List CfgBentry)) :=
  if steps.any readsArgs then .error .overrun
  else
    match ending with
    | .accepted => .ok (some (added ++ bentries built steps))
    | .rejected near => if formatPlain (near ++ ['\'']) then .ok none else .error .overrun

theorem outcome_reads {built : CfgBentry} {added : List CfgBentry} {steps : List Step}
    {ending : Ending} (h : steps.any readsArgs = true) :
    outcome built added steps ending = .error .overrun := if_pos h

theorem outcome_append {built : CfgBentry} {added : List CfgBentry} {steps more : List Step}
    {ending : Ending} (h : steps.any readsArgs = false) :
    outcome built added (steps ++ more) ending =
      outcome (steps.foldl bentryStep built) (added ++ bentries built steps) more ending := by
  unfold outcome
  rw [List.any_append, h, Bool.false_or, bentries_append, List.append_assoc]

/-- What `parse_sysload_boot_entry` sees of the end of a parse. -/
def seen (r : Bool × Parse) : Option (List CfgBentry) :=
  if r.1 then some r.2.ctx.toplevel.bentryList else none

section NoArgs

variable {env : Env} {msgs : Messages} {t : Parse} {e : Event} {ui : CStr}

/-- One of the actions at an event looks at `args`. -/
theorem noArgs_stops (hargs : t.ctx.args = some ui) (hevent : (t.flexStep env).2 = some e)
    (hreads : (script env (t.control.take e).1 t.ctx).any readsArgs = true) :
    (yyparse env msgs t.noArgs).Gives (.error .overrun) := by
  have hexec : execAll env (t.noArgs.control.take e).1 t.noArgs.ctx = .error .overrun := by
    have hnoArgs := @execAll_noArgs env (t.control.take e).1 _ _ hargs
    rwa [if_pos hreads] at hnoArgs
  have hevent' : (t.noArgs.flexStep env).2 = some e := hevent
  have hpass := (@Passes.stopped env msgs _ _ _ hevent' hexec).pass_eq
  exact (Prog.gives_loop_error (Prog.gives_lift.mpr hpass)).mpr rfl

/-- None of the actions at an event looks at `args`. -/
theorem noArgs_execAll {ctx : ParserContext} (hargs : t.ctx.args = some ui)
    (hexec : execAll env (t.control.take e).1 t.ctx = .ok ctx)
    (hreads : (script env (t.control.take e).1 t.ctx).any readsArgs = false) :
    execAll env (t.noArgs.control.take e).1 t.noArgs.ctx = .ok ctx.noArgs := by
  have hnoArgs := @execAll_noArgs env (t.control.take e).1 _ _ hargs
  rw [hreads, hexec] at hnoArgs
  exact hnoArgs

end NoArgs

/-- **What comes of a text without `args`.** -/
theorem yyparse_reading {env : Env} {msgs : Messages} {t : Parse} {ui : CStr} {steps : List Step}
    {ending : Ending} (h : Reading env t steps ending) (hargs : t.ctx.args = some ui) :
    ∃ r, (yyparse env msgs t.noArgs).Gives r ∧
      r.map seen = outcome t.ctx.bentry t.ctx.toplevel.bentryList steps ending := by
  induction h with
  | @skipped s steps ending hevent _ ih =>
    obtain ⟨r, hr, hseen⟩ := ih hargs
    have hevent' : (s.noArgs.flexStep env).2 = none := hevent
    have hpass := (@Passes.skipped env msgs _ hevent').pass_eq
    exact ⟨r, (Prog.gives_loop_next (Prog.gives_lift.mpr hpass)).mpr hr, hseen⟩
  | @shifted s e ctx c steps ending hevent hexec hverdict _ ih =>
    have hevent' : (s.noArgs.flexStep env).2 = some e := hevent
    obtain ⟨c', hc', hargs'⟩ := execAll_ok env hargs (s.control.take e).1
    cases hexec.symm.trans hc'
    obtain ⟨hbentry, hlist⟩ := execAll_bentries hexec
    cases hreads : (script env (s.control.take e).1 s.ctx).any readsArgs with
    | true =>
      refine ⟨_, noArgs_stops hargs hevent hreads, ?_⟩
      rw [outcome_reads (by rw [List.any_append, hreads, Bool.true_or])]
      rfl
    | false =>
      obtain ⟨r, hr, hseen⟩ := ih hargs'
      have hexec' := noArgs_execAll hargs hexec hreads
      have hpass := (@Passes.shifted env msgs _ _ _ _ hevent' hexec' hverdict).pass_eq
      refine ⟨r, (Prog.gives_loop_next (Prog.gives_lift.mpr hpass)).mpr hr, ?_⟩
      rw [hseen, outcome_append hreads, hbentry, hlist]
  | @accepted s e ctx hevent hexec hverdict =>
    have hevent' : (s.noArgs.flexStep env).2 = some e := hevent
    obtain ⟨_, hlist⟩ := execAll_bentries hexec
    cases hreads : (script env (s.control.take e).1 s.ctx).any readsArgs with
    | true =>
      refine ⟨_, noArgs_stops hargs hevent hreads, ?_⟩
      rw [outcome_reads hreads]
      rfl
    | false =>
      have hexec' := noArgs_execAll hargs hexec hreads
      have hpass := (@Passes.accepted env msgs _ _ _ hevent' hexec' hverdict).pass_eq
      refine ⟨_, (Prog.gives_loop_done (Prog.gives_lift.mpr hpass)).mpr rfl, ?_⟩
      unfold outcome
      rw [hreads, if_neg (by simp), ← hlist]
      rfl
  | @rejected s e ctx hevent hexec hverdict =>
    have hevent' : (s.noArgs.flexStep env).2 = some e := hevent
    cases hreads : (script env (s.control.take e).1 s.ctx).any readsArgs with
    | true =>
      refine ⟨_, noArgs_stops hargs hevent hreads, ?_⟩
      rw [outcome_reads hreads]
      rfl
    | false =>
      have hplain := formatPlain_errorText (msgs.plain s.control e.kind) e.yytext
        (s.flexStep env).1.lineno
      have hexec' := noArgs_execAll hargs hexec hreads
      unfold outcome
      rw [hreads, if_neg (by simp)]
      dsimp only
      by_cases hnear : formatPlain (e.yytext ++ ['\'']) = true
      · have hmsg : ctx.noArgs.yyerror (msgs.text s.control e.kind) e.yytext
            (s.flexStep env).1.lineno = .ok _ := if_pos (hplain.trans hnear)
        have hpass := (Passes.rejected hevent' hexec' hverdict hmsg).pass_eq
        refine ⟨_, (Prog.gives_loop_done (Prog.gives_lift.mpr hpass)).mpr rfl, ?_⟩
        rw [if_pos hnear]
        rfl
      · have hmsg : ctx.noArgs.yyerror (msgs.text s.control e.kind) e.yytext
            (s.flexStep env).1.lineno = .error .overrun := if_neg (by rwa [hplain])
        have hpass := (Passes.garbled hevent' hexec' hverdict hmsg).pass_eq
        refine ⟨_, (Prog.gives_loop_error (Prog.gives_lift.mpr hpass)).mpr rfl, ?_⟩
        rw [if_neg hnear]
        rfl

/-! ## The output of a user interface -/

section Output

variable (env : Env) (msgs : Messages) (scan : Scanner) (str : List Char)

/-- The grammar has these actions for the string. -/
def StringReading (steps : List Step) (ending : Ending) : Prop :=
  Reading env (.start scan (some []) (cstr str)) steps ending

/-- The first boot entry in the string, as a new process reads it. -/
def FirstBentry (bentry : CfgBentry) : Prop :=
  ∃ steps ending, StringReading env .fresh str steps ending ∧
    (bentries .init steps).head? = some bentry

/-- `parse_sysload_boot_entry` returns an error message, or the first boot entry in the string. -/
def Handles : Prop :=
  (∃ scan' msg, (parseSysloadBootEntry env msgs scan str).Gives (.ok (scan', .error msg))) ∨
  ∃ scan' bentry, (parseSysloadBootEntry env msgs scan str).Gives (.ok (scan', .ok bentry)) ∧
    FirstBentry env str bentry

/-- What the parser reads, beginning with the string, has no statement that looks at `args`. It has a
boot entry in an active section, or else a syntax error; the text at the error has no conversion for
`fprintf`, and the boot entry is no other one than the string's: the scanner begins in `INITIAL` with no
buffer suspended, or the string alone has the same first boot entry. -/
def Harmless : Prop :=
  ∃ steps ending, StringReading env scan str steps ending ∧ steps.any readsArgs = false ∧
    match ending with
    | .accepted => (Act.bootentry, true) ∈ steps ∧ ((scan.mode = .initial ∧ scan.stack = []) ∨
        ∀ bentry, (bentries .init steps).head? = some bentry → FirstBentry env str bentry)
    | .rejected near => formatPlain (near ++ ['\'']) = true

/-- Nothing but the string is read, if no buffer is suspended. -/
theorem stringReading_fresh {steps : List Step} {ending : Ending}
    (h : StringReading env scan str steps ending) (hmode : scan.mode = .initial)
    (hstack : scan.stack = []) : StringReading env .fresh str steps ending :=
  h.sameLines ⟨⟨hmode.symm, rfl, congrArg (List.map Saved.text) hstack.symm⟩, rfl, rfl⟩

theorem yyparse_string {steps : List Step} {ending : Ending}
    (h : StringReading env scan str steps ending) :
    ∃ r, (yyparse env msgs (.start scan none (cstr str))).Gives r ∧
      r.map seen = outcome .init [] steps ending :=
  yyparse_reading h rfl

theorem handles_of_harmless (h : Harmless env scan str) : Handles env msgs scan str := by
  obtain ⟨steps, ending, hreading, hreads, hending⟩ := h
  obtain ⟨r, hr, hseen⟩ := yyparse_string env msgs scan str hreading
  unfold outcome at hseen
  rw [hreads, if_neg (by simp)] at hseen
  cases ending with
  | accepted =>
    rcases r with stop | ⟨accepted, s⟩
    · cases hseen
    · cases accepted with
      | false => cases hseen
      | true =>
        have hlist : s.ctx.toplevel.bentryList = bentries .init steps :=
          Option.some.inj (Except.ok.inj hseen)
        obtain ⟨hactive, hown⟩ := hending
        cases hbentries : bentries .init steps with
        | nil => exact absurd hactive (bentries_eq_nil.mp hbentries)
        | cons bentry rest =>
          have hhead : (bentries .init steps).head? = some bentry := by rw [hbentries]; rfl
          have hfirst : FirstBentry env str bentry := by
            rcases hown with ⟨hmode, hstack⟩ | hown
            · exact ⟨steps, .accepted, stringReading_fresh env scan str hreading hmode hstack, hhead⟩
            · exact hown bentry hhead
          refine Or.inr ⟨s.scan, bentry, ?_, hfirst⟩
          refine Prog.gives_bind_eq_ok.mpr ⟨(true, s), hr, Prog.gives_bind_eq_ok.mpr
            ⟨.ok bentry, Prog.gives_lift.mpr ?_, Prog.gives_pure.mpr rfl⟩⟩
          unfold firstBentry
          rw [if_pos rfl, hlist, hbentries]
  | rejected near =>
    dsimp only at hseen hending
    rw [if_pos hending] at hseen
    rcases r with stop | ⟨accepted, s⟩
    · cases hseen
    · cases accepted with
      | true => cases hseen
      | false =>
        refine Or.inl ⟨s.scan, "Error parsing boot entry.".toList, ?_⟩
        exact Prog.gives_bind_eq_ok.mpr ⟨(false, s), hr, Prog.gives_bind_eq_ok.mpr
          ⟨_, Prog.gives_lift.mpr rfl, Prog.gives_pure.mpr rfl⟩⟩

/-- What is returned comes from a parse that has come to its end. -/
theorem yyparse_of_returns {scan' : Scanner} {result : Except CStr CfgBentry}
    (h : (parseSysloadBootEntry env msgs scan str).Gives (.ok (scan', result))) :
    ∃ accepted s, (yyparse env msgs (.start scan none (cstr str))).Gives (.ok (accepted, s)) ∧
      firstBentry accepted s.ctx = .ok result := by
  obtain ⟨⟨accepted, s⟩, hr, hrest⟩ := Prog.gives_bind_eq_ok.mp h
  obtain ⟨result', hfirst, hpure⟩ := Prog.gives_bind_eq_ok.mp hrest
  cases Prog.gives_pure.mp hpure
  exact ⟨accepted, s, hr, Prog.gives_lift.mp hfirst⟩

/-- **What comes back** belongs to a reading without `args`: the first boot entry, or else an error
message. -/
theorem reading_of_returns {scan' : Scanner} {result : Except CStr CfgBentry}
    (h : (parseSysloadBootEntry env msgs scan str).Gives (.ok (scan', result))) :
    ∃ steps ending, StringReading env scan str steps ending ∧ steps.any readsArgs = false ∧
      match ending with
      | .accepted => ∃ bentry, result = .ok bentry ∧ (bentries .init steps).head? = some bentry
      | .rejected near => formatPlain (near ++ ['\'']) = true ∧ ∃ msg, result = .error msg := by
  obtain ⟨accepted, s, hr, hfirst⟩ := yyparse_of_returns env msgs scan str h
  obtain ⟨steps, ending, hreading⟩ :=
    @exists_reading env (.start scan (some []) (cstr str)) [] rfl
  obtain ⟨r, hr', hseen⟩ := yyparse_string env msgs scan str hreading
  cases hr.unique hr'
  unfold outcome at hseen
  unfold firstBentry at hfirst
  cases hreads : steps.any readsArgs with
  | true =>
    rw [hreads, if_pos rfl] at hseen
    cases hseen
  | false =>
    rw [hreads, if_neg (by simp)] at hseen
    refine ⟨steps, ending, hreading, hreads, ?_⟩
    cases ending with
    | accepted =>
      cases accepted with
      | false => cases hseen
      | true =>
        have hlist : s.ctx.toplevel.bentryList = bentries .init steps :=
          Option.some.inj (Except.ok.inj hseen)
        rw [if_pos rfl, hlist] at hfirst
        cases hbentries : bentries .init steps with
        | nil =>
          rw [hbentries] at hfirst
          cases hfirst
        | cons bentry rest =>
          rw [hbentries] at hfirst
          exact ⟨bentry, (Except.ok.inj hfirst).symm, rfl⟩
    | rejected near =>
      dsimp only at hseen ⊢
      by_cases hnear : formatPlain (near ++ ['\'']) = true
      · rw [if_pos hnear] at hseen
        cases accepted with
        | false => exact ⟨hnear, _, (Except.ok.inj hfirst).symm⟩
        | true => cases hseen
      · rw [if_neg hnear] at hseen
        cases hseen

theorem harmless_of_handles (h : Handles env msgs scan str) : Harmless env scan str := by
  rcases h with ⟨scan', msg, h⟩ | ⟨scan', bentry, h, hfirst⟩
  · obtain ⟨steps, ending, hreading, hreads, hending⟩ := reading_of_returns env msgs scan str h
    refine ⟨steps, ending, hreading, hreads, ?_⟩
    cases ending with
    | accepted =>
      obtain ⟨bentry, hresult, -⟩ := hending
      cases hresult
    | rejected near => exact hending.1
  · obtain ⟨steps, ending, hreading, hreads, hending⟩ := reading_of_returns env msgs scan str h
    refine ⟨steps, ending, hreading, hreads, ?_⟩
    cases ending with
    | accepted =>
      obtain ⟨bentry', hresult, hhead⟩ := hending
      obtain rfl := Except.ok.inj hresult
      refine ⟨by_contra fun hnone => ?_, .inr fun bentry' hhead' => ?_⟩
      · rw [bentries_eq_nil.mpr hnone] at hhead
        cases hhead
      · obtain rfl := Option.some.inj (hhead.symm.trans hhead')
        exact hfirst
    | rejected near => exact hending.1

/-- **When the output of a user interface is handled**: exactly when the string is harmless. -/
theorem bootEntry_handled_iff : Handles env msgs scan str ↔ Harmless env scan str :=
  ⟨harmless_of_handles env msgs scan str, handles_of_harmless env msgs scan str⟩

end Output

/-- **A statement that is no boot entry**: `timeout 5` makes the parser follow a null pointer. -/
theorem timeout_not_handled :
    ¬ ∀ (env : Env) (msgs : Messages) (scan : Scanner) (str : List Char),
      Handles env msgs scan str := by
  intro hall
  have hstop : (yyparse Answers.blank.env .short
      (.start .fresh none "timeout 5".toList)).Gives (.error .overrun) :=
    ⟨5, by decide +kernel⟩
  have hno : ∀ scan' result, ¬ (parseSysloadBootEntry Answers.blank.env .short .fresh
      "timeout 5".toList).Gives (.ok (scan', result)) := by
    intro scan' result h
    obtain ⟨accepted, s, hr, _⟩ := yyparse_of_returns _ _ _ _ h
    exact absurd (hstop.unique hr) (by simp)
  rcases hall Answers.blank.env .short .fresh "timeout 5".toList with
    ⟨scan', msg, h⟩ | ⟨scan', bentry, h, _⟩
  · exact hno _ _ h
  · exact hno _ _ h

end Sysload.Parser
