import Sysload.Parser.Selection
import Sysload.UiControl.Signals

/-!
# The default boot entry (`parse_sysload`, `ui_timeout`)

A `default` statement has a string, and of the statements in active sections the last one counts
(`bootDefault_of_reading`). Behind the parse the string is resolved: one of digits only is an index,
any other is the label of a boot entry.

Source: `src/core/sysload.conf.y`, the rule for `default`; `src/core/parser_sysload.c`,
`parse_sysload`; `src/core/ui_control.c`, `ui_timeout`.

Results:
* `resolveDefault_label`: a label that only one boot entry has.
* `resolveDefault_range`: what is resolved is in the list of boot entries.
* **`default_by_label`**: from the text of a configuration to the default of `ui_timeout`.
-/

namespace Sysload.Parser

/-! ## The strings of the default statements -/

/-- The strings of the `default` statements. -/
def defaultStatements (steps : List Step) : List CStr :=
  steps.filterMap fun step =>
    match step with
    | (.bootDefault str, _) => some str
    | _ => none

/-- The strings of the `default` statements in active sections. -/
def defaultsOf (steps : List Step) : List CStr :=
  steps.filterMap fun step =>
    match step with
    | (.bootDefault str, true) => some str
    | _ => none

/-- Only a `default` statement in an active section sets the default. -/
theorem exec_bootDefault {env : Env} {c d : ParserContext} {a : Act} (h : exec env c a = .ok d) :
    d.bootDefault = (defaultsOf [(a, c.active)]).getLastD c.bootDefault := by
  cases a with
  | bootDefault str =>
    obtain rfl := Except.ok.inj h
    cases hactive : c.active with
    | true => rfl
    | false => rfl
  | enterSystem l =>
    obtain rfl := Except.ok.inj h
    show (c.enterSystem _).bootDefault = c.bootDefault
    unfold ParserContext.enterSystem
    dsimp only
    split <;> rfl
  | exitSystem =>
    obtain rfl := Except.ok.inj h
    show c.exitSystem.bootDefault = c.bootDefault
    unfold ParserContext.exitSystem
    dsimp only
    split <;> rfl
  | _ =>
    show d.bootDefault = c.bootDefault
    simp only [exec, ParserContext.enabled, bind, Except.bind, pure, Except.pure] at h
    repeat' split at h
    all_goals first
      | contradiction
      | (cases h; rfl)

theorem getLastD_append {α : Type} (xs ys : List α) (d : α) :
    (xs ++ ys).getLastD d = ys.getLastD (xs.getLastD d) := by
  simp only [List.getLastD_eq_getLast?, List.getLast?_append]
  cases ys.getLast? <;> simp

theorem execAll_bootDefault {env : Env} {as : List Act} {c d : ParserContext}
    (h : execAll env as c = .ok d) :
    d.bootDefault = (defaultsOf (script env as c)).getLastD c.bootDefault := by
  induction as generalizing c with
  | nil =>
    obtain rfl := Except.ok.inj h
    rfl
  | cons a as ih =>
    obtain ⟨e, he, hrest⟩ := execAll_cons_eq_ok.mp h
    have hscript : script env (a :: as) c = [(a, c.active)] ++ script env as e := by
      rw [script, he]
      rfl
    rw [hscript, defaultsOf, List.filterMap_append, getLastD_append, ih hrest, exec_bootDefault he]
    rfl

section Reading

variable {env : Env}

/-- **The last `default` statement counts**, and without one `0`, which the context begins with. -/
theorem bootDefault_of_reading {msgs : Messages} {s s' : Parse} {steps : List Step} {ending : Ending}
    (h : Reading env s steps ending) (hparse : (yyparse env msgs s).Gives (.ok (true, s'))) :
    s'.ctx.bootDefault = (defaultsOf steps).getLastD s.ctx.bootDefault := by
  induction h with
  | skipped hevent _ ih =>
    have hpass := (@Passes.skipped env msgs _ hevent).pass_eq
    exact ih ((Prog.gives_loop_next (Prog.gives_lift.mpr hpass)).mp hparse)
  | shifted hevent hexec hverdict _ ih =>
    have hpass := (@Passes.shifted env msgs _ _ _ _ hevent hexec hverdict).pass_eq
    rw [ih ((Prog.gives_loop_next (Prog.gives_lift.mpr hpass)).mp hparse), defaultsOf, defaultsOf,
      List.filterMap_append, getLastD_append, execAll_bootDefault hexec]
    rfl
  | accepted hevent hexec hverdict =>
    have hpass := (@Passes.accepted env msgs _ _ _ hevent hexec hverdict).pass_eq
    have hdone := (Prog.gives_loop_done (Prog.gives_lift.mpr hpass)).mp hparse
    obtain rfl := (Prod.mk.inj (Except.ok.inj hdone)).2
    exact execAll_bootDefault hexec
  | @rejected s e ctx hevent hexec hverdict =>
    cases hmsg : ctx.yyerror (msgs.text s.control e.kind) e.yytext (s.flexStep env).1.lineno with
    | error stop =>
      have hpass := (Passes.garbled hevent hexec hverdict hmsg).pass_eq
      have hstop := (Prog.gives_loop_error (Prog.gives_lift.mpr hpass)).mp hparse
      cases hstop
    | ok ctx' =>
      have hpass := (Passes.rejected hevent hexec hverdict hmsg).pass_eq
      have hdone := (Prog.gives_loop_done (Prog.gives_lift.mpr hpass)).mp hparse
      cases hdone

/-- The reading of a text that is accepted, and what is left behind, computed: `none` where it takes
more matches than there is fuel for. -/
def readText (env : Env) : Nat → Parse → Option (List Step × Parse)
  | 0, _ => none
  | fuel + 1, s =>
    match (s.flexStep env).2 with
    | none => readText env fuel { s with scan := (s.flexStep env).1 }
    | some e =>
      match execAll env (s.control.take e).1 s.ctx with
      | .error _ => none
      | .ok ctx =>
        match (s.control.take e).2 with
        | .shifted c =>
          (readText env fuel ⟨(s.flexStep env).1, c, ctx⟩).map fun r =>
            (script env (s.control.take e).1 s.ctx ++ r.1, r.2)
        | .accepted =>
          some (script env (s.control.take e).1 s.ctx, ⟨(s.flexStep env).1, s.control, ctx⟩)
        | .rejected => none

theorem reading_of_readText (msgs : Messages) {fuel : Nat} {s : Parse} {r : List Step × Parse}
    (h : readText env fuel s = some r) :
    Reading env s r.1 .accepted ∧ (yyparse env msgs s).Gives (.ok (true, r.2)) := by
  induction fuel generalizing s r with
  | zero => cases h
  | succ fuel ih =>
    rw [readText] at h
    split at h
    · rename_i hevent
      obtain ⟨hread, hparse⟩ := ih h
      have hpass := (@Passes.skipped env msgs _ hevent).pass_eq
      exact ⟨.skipped hevent hread, (Prog.gives_loop_next (Prog.gives_lift.mpr hpass)).mpr hparse⟩
    · rename_i e hevent
      split at h
      · cases h
      · rename_i ctx hexec
        split at h
        · rename_i c hverdict
          obtain ⟨r', hr', rfl⟩ := Option.map_eq_some_iff.mp h
          obtain ⟨hread, hparse⟩ := ih hr'
          have hpass := (@Passes.shifted env msgs _ _ _ _ hevent hexec hverdict).pass_eq
          exact ⟨.shifted hevent hexec hverdict hread,
            (Prog.gives_loop_next (Prog.gives_lift.mpr hpass)).mpr hparse⟩
        · rename_i hverdict
          obtain rfl := Option.some.inj h
          have hpass := (@Passes.accepted env msgs _ _ _ hevent hexec hverdict).pass_eq
          exact ⟨.accepted hevent hexec hverdict,
            (Prog.gives_loop_done (Prog.gives_lift.mpr hpass)).mpr rfl⟩
        · cases h

end Reading

/-! ## Resolving the string -/

/-- The string is a label and not a number, or it is a number and this index. -/
def NotAnotherNumber (label : CStr) (i : Nat) : Prop :=
  label.all Char.isDigit = true → scanInt label = some (i : Int)

/-- **A label that only one boot entry has**, unless it is the number of another one. -/
theorem resolveDefault_label {config : CfgToplevel} {i : Nat} {bentry : CfgBentry}
    (hentry : config.bentryList[i]? = some bentry)
    (hunique : ∀ j b, config.bentryList[j]? = some b → b.label = bentry.label → j = i)
    (hnumber : NotAnotherNumber bentry.label i) :
    resolveDefault config bentry.label = .ok (i : Int) := by
  have hlt : i < config.bentryList.length := (List.getElem?_eq_some_iff.mp hentry).1
  unfold resolveDefault
  by_cases hdigits : bentry.label.all Char.isDigit = true
  · rw [if_pos hdigits, hnumber hdigits]
    dsimp only
    rw [if_neg (by omega)]
  · rw [if_neg hdigits]
    have hfind :
        config.bentryList.findIdx? (fun b => decide (bentry.label = b.label)) = some i := by
      refine List.findIdx?_eq_some_iff_getElem.mpr ⟨hlt, ?_, fun j hj heq => ?_⟩
      · rw [(List.getElem?_eq_some_iff.mp hentry).2]
        exact decide_eq_true rfl
      · have hj' : config.bentryList[j]? = some config.bentryList[j] := List.getElem?_eq_getElem _
        have hji := hunique j _ hj' (of_decide_eq_true heq).symm
        omega
    dsimp only
    rw [hfind]

/-- **What is resolved is in the list.** -/
theorem resolveDefault_range {config : CfgToplevel} {str : CStr} {idx : Int}
    (h : resolveDefault config str = .ok idx) : 0 ≤ idx ∧ idx < config.bentryList.length := by
  unfold resolveDefault at h
  split at h
  · split at h
    · cases h
    · rename_i hrange
      obtain rfl := Except.ok.inj h
      omega
  · split at h
    · rename_i i hfind
      obtain rfl := Except.ok.inj h
      obtain ⟨hlt, _⟩ := List.findIdx?_eq_some_iff_getElem.mp hfind
      omega
    · cases h

/-- A default in the list is what the timeout selects. -/
theorem uiTimeout_of_range {config : CfgToplevel} (hnonneg : 0 ≤ config.bootDefault)
    (hlt : config.bootDefault < config.bentryList.length) :
    ∃ boot ∈ config.bentryList, UiControl.uiTimeout config = .timedOut boot := by
  have hidx : config.bootDefault.toNat < config.bentryList.length := by omega
  refine ⟨config.bentryList[config.bootDefault.toNat], List.getElem_mem _, ?_⟩
  rw [UiControl.uiTimeout, if_pos hnonneg, List.getElem?_eq_getElem hidx]

theorem parsedOf_ok {uri : CStr} {c : ParserContext} {idx : Int}
    (h : resolveDefault c.toplevel c.bootDefault = .ok idx) :
    parsedOf uri true c = ⟨none, { c.toplevel with bootDefault := idx }, c.executed⟩ := by
  unfold parsedOf
  rw [if_pos rfl, h]

/-- What comes of a parse without an error message has a default in the list. -/
theorem parsedOf_range {uri : CStr} {accepted : Bool} {c : ParserContext}
    (h : (parsedOf uri accepted c).errmsg = none) :
    0 ≤ (parsedOf uri accepted c).config.bootDefault ∧
      (parsedOf uri accepted c).config.bootDefault <
        (parsedOf uri accepted c).config.bentryList.length := by
  cases accepted with
  | false => cases h
  | true =>
    cases hresolve : resolveDefault c.toplevel c.bootDefault with
    | ok idx =>
      rw [parsedOf_ok hresolve]
      exact resolveDefault_range hresolve
    | error msg =>
      unfold parsedOf at h
      rw [if_pos rfl, hresolve] at h
      cases h

theorem parseSysload_accepted {env : Env} {msgs : Messages} {scan : Scanner} {onlyUi : CStr}
    {text : List Char} {s : Parse}
    (h : (yyparse env msgs (.start scan (some onlyUi) text)).Gives (.ok (true, s))) (uri : CStr) :
    (parseSysload env msgs scan uri onlyUi (.ok text)).Gives
      (.ok (s.scan, parsedOf uri true s.ctx)) :=
  Prog.gives_bind_eq_ok.mpr ⟨_, h, Prog.gives_pure.mpr rfl⟩

/-- **Default by label**: if the only `default` statement in an active section has the label of a
boot entry that no other entry has, and this is not the number of another one, then the parse
succeeds with this entry. Whenever it succeeds the timeout selects an entry of the list. -/
theorem default_by_label (env : Env) (msgs : Messages) (scan : Scanner) (uri onlyUi : CStr) :
    (∀ (text : List Char) (steps : List Step) (ending : Ending) (s : Parse) (i : Nat)
      (bentry : CfgBentry), Reading env (.start scan (some onlyUi) text) steps ending →
      (yyparse env msgs (.start scan (some onlyUi) text)).Gives (.ok (true, s)) →
      s.ctx.toplevel.bentryList[i]? = some bentry → bentry.label ≠ [] →
      (∀ j b, s.ctx.toplevel.bentryList[j]? = some b → b.label = bentry.label → j = i) →
      defaultsOf steps = [bentry.label] → NotAnotherNumber bentry.label i →
      (parseSysload env msgs scan uri onlyUi (.ok text)).Gives
        (.ok (s.scan, ⟨none, { s.ctx.toplevel with bootDefault := i }, s.ctx.executed⟩))) ∧
    ∀ (file : Except CStr (List Char)) (scan' : Scanner) (parsed : Parsed),
      (parseSysload env msgs scan uri onlyUi file).Gives (.ok (scan', parsed)) →
      parsed.errmsg = none → 0 ≤ parsed.config.bootDefault ∧
        parsed.config.bootDefault < parsed.config.bentryList.length ∧
        ∃ boot ∈ parsed.config.bentryList, UiControl.uiTimeout parsed.config = .timedOut boot := by
  constructor
  · intro text steps ending s i bentry hreading hparse hentry _ hunique honly hnumber
    have hdefault := bootDefault_of_reading hreading hparse
    rw [honly] at hdefault
    have hresolve : resolveDefault s.ctx.toplevel s.ctx.bootDefault = .ok (i : Int) := by
      rw [hdefault]
      exact resolveDefault_label hentry hunique hnumber
    rw [← parsedOf_ok hresolve]
    exact parseSysload_accepted hparse uri
  · intro file scan' parsed hparse hnull
    have hrange : 0 ≤ parsed.config.bootDefault ∧
        parsed.config.bootDefault < parsed.config.bentryList.length := by
      cases file with
      | error msg =>
        cases Prog.gives_pure.mp hparse
        cases hnull
      | ok text =>
        obtain ⟨r, _, hpure⟩ := Prog.gives_bind_eq_ok.mp hparse
        cases Prog.gives_pure.mp hpure
        exact parsedOf_range hnull
    exact ⟨hrange.1, hrange.2, uiTimeout_of_range hrange.1 hrange.2⟩

/-! ## Configurations with labels -/

/-- Boot entries with labels, and a statement. -/
def labelText (labels : List CStr) (stmt : List Char) : List Char :=
  labels.flatMap (fun label =>
    "boot_entry \x7b\ntitle a\nlabel ".toList ++ label ++ "\nreboot\n\x7d\n".toList) ++ stmt

/-- The boot entry with a label. -/
def labelBentry (label : CStr) : CfgBentry :=
  { CfgBentry.init with title := ['a'], label := label, action := .reboot }

/-- What is left of such a text. -/
def labelParse (labels : List CStr) (dflt : CStr) (lineno : Nat) : Parse :=
  ⟨⟨.initial, lineno, [], []⟩, ⟨.list .deflist true, [], []⟩,
    { ParserContext.init (some []) with
      bootDefault := dflt
      toplevel := labels.foldl (fun t label => t.addBentry (labelBentry label)) .init }⟩

/-- The start of a parse of such a text. -/
def labelStart (labels : List CStr) (stmt : List Char) : Parse :=
  .start .fresh (some []) (labelText labels stmt)

/-- The reading of such a text, with its statements. -/
theorem labelReading {labels : List CStr} {stmt : List Char} {fuel lineno : Nat}
    {all active : List CStr} {dflt : CStr}
    (h : (readText Answers.blank.env fuel (labelStart labels stmt)).map
      (fun r => (defaultStatements r.1, defaultsOf r.1, r.2)) =
        some (all, active, labelParse labels dflt lineno)) :
    ∃ steps, Reading Answers.blank.env (labelStart labels stmt) steps .accepted ∧
      defaultStatements steps = all ∧ defaultsOf steps = active ∧
      (yyparse Answers.blank.env .short (labelStart labels stmt)).Gives
        (.ok (true, labelParse labels dflt lineno)) := by
  obtain ⟨r, hr, heq⟩ := Option.map_eq_some_iff.mp h
  obtain ⟨hall, hrest⟩ := Prod.mk.inj heq
  obtain ⟨hactive, hleft⟩ := Prod.mk.inj hrest
  obtain ⟨hread, hparse⟩ := reading_of_readText .short hr
  rw [hleft] at hparse
  exact ⟨r.1, hread, hall, hactive, hparse⟩

/-- Behind an entry with another label, the second one is the only one with its label. -/
theorem labelParse_second {label label' dflt : CStr} {lineno : Nat} (hne : label ≠ label') :
    ∀ j b, (labelParse [label, label'] dflt lineno).ctx.toplevel.bentryList[j]? = some b →
      b.label = label' → j = 1 := by
  intro j b hb hlabel
  have hlt : j < 2 := (List.getElem?_eq_some_iff.mp hb).1
  rcases Nat.lt_succ_iff_lt_or_eq.mp hlt with hlt | rfl
  · obtain rfl := Nat.lt_one_iff.mp hlt
    obtain rfl := Option.some.inj hb
    exact absurd hlabel hne
  · rfl

/-- Two entries, and the label of the second one. -/
theorem default_by_label_b :
    (parseSysload Answers.blank.env .short .fresh [] []
      (.ok (labelText [['c'], ['b']] "default b\n".toList))).Gives
        (.ok (⟨.initial, 12, [], []⟩,
          ⟨none, { (labelParse [['c'], ['b']] ['b'] 12).ctx.toplevel with bootDefault := 1 }, []⟩)) := by
  obtain ⟨steps, hread, _, hdefaults, hparse⟩ :=
    @labelReading [['c'], ['b']] "default b\n".toList 70 12 [['b']] [['b']] ['b'] (by decide +kernel)
  exact (default_by_label Answers.blank.env .short .fresh [] []).1 _ _ _ _ 1 (labelBentry ['b'])
    hread hparse rfl (by decide) (labelParse_second (by decide)) hdefaults (fun h => by cases h)

/-- A `default` statement with the label of an entry selects this entry, under a condition. -/
def LabelsResolve (cond : List Step → CStr → Nat → Prop) : Prop :=
  ∀ (env : Env) (msgs : Messages) (scan : Scanner) (uri onlyUi : CStr) (text : List Char)
    (steps : List Step) (ending : Ending) (s : Parse) (i : Nat) (bentry : CfgBentry),
    Reading env (.start scan (some onlyUi) text) steps ending →
    (yyparse env msgs (.start scan (some onlyUi) text)).Gives (.ok (true, s)) →
    s.ctx.toplevel.bentryList[i]? = some bentry → bentry.label ≠ [] →
    (∀ j b, s.ctx.toplevel.bentryList[j]? = some b → b.label = bentry.label → j = i) →
    defaultStatements steps = [bentry.label] → cond steps bentry.label i →
    ∃ parsed, (parseSysload env msgs scan uri onlyUi (.ok text)).Gives (.ok (s.scan, parsed)) ∧
      parsed.errmsg = none ∧ parsed.config.bootDefault = i

/-- **A label of digits is taken for a number**, and a statement in an inactive section is not
followed: neither condition can be left out. -/
theorem labels_overlooked :
    ¬ LabelsResolve (fun steps label _ => defaultsOf steps = [label]) ∧
      ¬ LabelsResolve (fun _ label i => NotAnotherNumber label i) := by
  constructor
  · intro hall
    obtain ⟨steps, hread, hstatements, hdefaults, hparse⟩ :=
      @labelReading [['1']] "default 1\n".toList 40 7 [['1']] [['1']] ['1'] (by decide +kernel)
    have hunique : ∀ j b, (labelParse [['1']] ['1'] 7).ctx.toplevel.bentryList[j]? = some b →
        b.label = ['1'] → j = 0 := by
      intro j b hb _
      exact Nat.lt_one_iff.mp (List.getElem?_eq_some_iff.mp hb).1
    obtain ⟨parsed, hparsed, hnull, _⟩ := hall _ _ _ [] _ _ _ _ _ 0 (labelBentry ['1']) hread hparse
      rfl (by decide) hunique hstatements hdefaults
    obtain ⟨_, rfl⟩ :=
      Prod.mk.inj (Except.ok.inj (hparsed.unique (parseSysload_accepted hparse [])))
    cases hnull
  · intro hall
    obtain ⟨steps, hread, hstatements, _, hparse⟩ :=
      @labelReading [['c'], ['b']] "system uuid(u) \x7b\ndefault b\n\x7d\n".toList 70 14 [['b']] []
        ['0'] (by decide +kernel)
    obtain ⟨parsed, hparsed, _, hindex⟩ := hall _ _ _ [] _ _ _ _ _ 1 (labelBentry ['b']) hread
      hparse rfl (by decide) (labelParse_second (by decide)) hstatements (fun h => by cases h)
    obtain ⟨_, rfl⟩ :=
      Prod.mk.inj (Except.ok.inj (hparsed.unique (parseSysload_accepted hparse [])))
    cases hindex

end Sysload.Parser
