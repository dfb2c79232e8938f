import Sysload.Parser.Printing

/-!
# Printing a boot entry and parsing it again

A user interface prints the boot entry that was chosen, and the text is parsed again. The text has the
strings of the entry in a fixed order, without those that are empty; the parser wants a title and at
least one option, and takes the action of the last option that has one.

Source: `src/core/config.c`, `cfg_bentry_print`; `src/core/parser_sysload.c`,
`parse_sysload_boot_entry`. Out of scope are entries that no configuration has.

Results:
* `print_accepted`: with a title and an option, the entry that comes back is `reprinted`.
* `print_title`, `print_option`: without one of them the text is not accepted.
* `sameUsed_reprinted`: when the entry that comes back is the same.
* `roundTrips_iff`: which entries of a configuration come back the same.
-/

namespace Sysload.Parser

open Lexer

/-! ## Parsing the tokens -/

section Parse

variable {env : Env} {msgs : Messages}

/-- **The parser at the tokens of a text**: they run their actions. -/
theorem yyparse_delivers {x x' : Scanner} {ts : List Token} (h : Delivers x ts x')
    {r : Except Stop (Bool × Parse)} {c' : Control} {ctx' : ParserContext} :
    ∀ {c : Control} {acts : List Act} {ctx : ParserContext}, c.feed ts = (acts, some c') →
      execAll env acts ctx = .ok ctx' →
      ((yyparse env msgs ⟨x, c, ctx⟩).Gives r ↔ (yyparse env msgs ⟨x', c', ctx'⟩).Gives r) := by
  induction h with
  | refl s =>
    intro c acts ctx hfeed hexec
    cases hfeed
    cases hexec
    exact Iff.rfl
  | @skip s x s' ts hstep _ ih =>
    intro c acts ctx hfeed hexec
    have hflex : (⟨s, c, ctx⟩ : Parse).flexStep env = (x, none) := hstep _ _
    exact (yyparse_skip hflex).trans (ih hfeed hexec)
  | @token s x s' t yytext ts hstep _ ih =>
    intro c acts ctx hfeed hexec
    have hflex : (⟨s, c, ctx⟩ : Parse).flexStep env = (x, some (.token t yytext)) := hstep _ _
    cases hshift : c.shift t with
    | mk first next =>
      cases next with
      | none =>
        rw [Control.feed, hshift] at hfeed
        cases hfeed
      | some c₁ =>
        rw [Control.feed_cons hshift] at hfeed
        obtain ⟨rfl, hrest⟩ := Prod.mk.inj hfeed
        obtain ⟨ctx₁, hfirst, hexec⟩ := execAll_append_eq_ok.mp hexec
        have htake : c.take (.token t yytext) = (first, .shifted c₁) := by
          rw [Control.take, hshift]
        refine (yyparse_shift hflex (by rw [htake]; exact hfirst) (by rw [htake])).trans ?_
        exact ih (Prod.ext rfl hrest) hexec

/-- A syntax error. -/
theorem not_accepted_of_reject {s s' : Parse} {x : Scanner} {e : Event}
    (hflex : s.flexStep env = (x, some e)) (hverdict : (s.control.take e).2 = .rejected) :
    ¬ (yyparse env msgs s).Gives (.ok (true, s')) := by
  intro haccepted
  have hpass := passes_pass env msgs s
  generalize hr : s.pass env msgs = r at hpass
  cases hpass with
  | skipped hevent =>
    rw [hflex] at hevent
    cases hevent
  | stopped _ _ => cases (Prog.gives_loop_error (Prog.gives_lift.mpr hr)).mp haccepted
  | shifted hevent _ hshifted =>
    rw [hflex] at hevent
    cases hevent
    cases hverdict.symm.trans hshifted
  | accepted hevent _ haccept =>
    rw [hflex] at hevent
    cases hevent
    cases hverdict.symm.trans haccept
  | rejected _ _ _ _ => cases (Prog.gives_loop_done (Prog.gives_lift.mpr hr)).mp haccepted
  | garbled _ _ _ _ => cases (Prog.gives_loop_error (Prog.gives_lift.mpr hr)).mp haccepted

/-- **Tokens that the parser does not take** are not accepted. -/
theorem not_accepted_of_feed {x x' : Scanner} {ts : List Token} (h : Delivers x ts x') {s' : Parse} :
    ∀ {c : Control} {ctx : ParserContext}, (c.feed ts).2 = none →
      ¬ (yyparse env msgs ⟨x, c, ctx⟩).Gives (.ok (true, s')) := by
  induction h with
  | refl s =>
    intro c ctx hfeed
    cases hfeed
  | @skip s x s' ts hstep _ ih =>
    intro c ctx hfeed haccepted
    have hflex : (⟨s, c, ctx⟩ : Parse).flexStep env = (x, none) := hstep _ _
    exact ih hfeed ((yyparse_skip hflex).mp haccepted)
  | @token s x s' t yytext ts hstep _ ih =>
    intro c ctx hfeed
    have hflex : (⟨s, c, ctx⟩ : Parse).flexStep env = (x, some (.token t yytext)) := hstep _ _
    cases hshift : c.shift t with
    | mk first next =>
      cases next with
      | none =>
        have hreject : (c.take (.token t yytext)).2 = .rejected := by rw [Control.take, hshift]
        exact not_accepted_of_reject hflex hreject
      | some c₁ =>
        rw [Control.feed_cons hshift] at hfeed
        have htake : c.take (.token t yytext) = (first, .shifted c₁) := by
          rw [Control.take, hshift]
        cases hexec : execAll env first ctx with
        | error stop =>
          intro haccepted
          cases haccepted.unique (yyparse_stop hflex (by rw [htake]; exact hexec))
        | ok ctx₁ =>
          intro haccepted
          exact ih hfeed ((yyparse_shift hflex (by rw [htake]; exact hexec) (by rw [htake])).mp
            haccepted)

/-- The end of an input that may end here. -/
theorem yyparse_accept {s : Parse} {x : Scanner} (hflex : s.flexStep env = (x, some .eof))
    (hfinish : s.control.finish = ([], true)) :
    (yyparse env msgs s).Gives (.ok (true, ⟨x, s.control, s.ctx⟩)) := by
  have htake : s.control.take .eof = ([], .accepted) := by
    rw [Control.take, hfinish]
    rfl
  have hpass := (@Passes.accepted env msgs s .eof s.ctx (by rw [hflex]) (by rw [htake]; rfl)
    (by rw [htake])).pass_eq
  rw [hflex] at hpass
  exact (Prog.gives_loop_done (Prog.gives_lift.mpr hpass)).mpr rfl

/-- The actions of options in an active section. -/
theorem execAll_options (os : List BootOption) {c : ParserContext} (hactive : c.active = true) :
    execAll env (optionActs (.ofList os)) c =
      .ok { c with bentry := os.foldl BootOption.set c.bentry } := by
  induction os generalizing c with
  | nil => rfl
  | cons o os ih =>
    have hexec : exec env c (.option o) = .ok { c with bentry := o.set c.bentry } :=
      congrArg Except.ok (if_pos hactive)
    show execAll env (.option o :: optionActs (.ofList os)) c = _
    rw [execAll_cons, hexec]
    exact ih (c := { c with bentry := o.set c.bentry }) hactive

end Parse

/-! ## What comes back -/

/-- The label, if it is printed. -/
def printedLabel (b : CfgBentry) : Option CStr := if b.label = [] then none else some b.label

/-- The text as a configuration. -/
def printedConfig (b : CfgBentry) : Config :=
  .leaf (.bootentry b.title (printedLabel b) (.ofList (printedOptions b))) .nil

/-- The boot entry that comes back. -/
def reprinted (b : CfgBentry) : CfgBentry :=
  (printedOptions b).foldl BootOption.set { CfgBentry.init with title := b.title, label := b.label }

section Print

variable {b : CfgBentry} {us : List Token}

theorem printedConfig_reads (htitle : b.title ≠ []) (hne : printedOptions b ≠ [])
    (hus : OptionTokens (printedOptions b) us) :
    (printedConfig b).Reads ([⟨.tBootEntry, []⟩, ⟨.lbrace, []⟩] ++ lineTokens .tTitle b.title ++
      lineTokens .tLabel b.label ++ us ++ [⟨.rbrace, []⟩]) := by
  have hlabel : (printedLabel b = none ∧ lineTokens .tLabel b.label = []) ∨
      ∃ str, printedLabel b = some str ∧
        (lineTokens .tLabel b.label).map Token.kind = [.tLabel, .tString] ∧
        dollar ((lineTokens .tLabel b.label).map Token.val) 2 = str := by
    unfold printedLabel lineTokens
    split
    · exact Or.inl ⟨rfl, rfl⟩
    · exact Or.inr ⟨b.label, rfl, rfl, rfl⟩
  have hentry : Definition.Reads
      (.bootentry b.title (printedLabel b) (.ofList (printedOptions b)))
      ([⟨.tBootEntry, []⟩, ⟨.lbrace, []⟩] ++ lineTokens .tTitle b.title ++
        lineTokens .tLabel b.label ++ us ++ [⟨.rbrace, []⟩]) := by
    refine .bootentry ?_ ?_ hlabel hus (Items.ofList_ne_nil hne) rfl
    · rw [lineTokens, if_neg htitle]
      rfl
    · rw [lineTokens, if_neg htitle]
      rfl
  have hreads : (printedConfig b).Reads _ := .leaf hentry .nil
  rwa [List.append_nil] at hreads

theorem exec_printed (env : Env) (args : Option CStr) :
    execAll env (printedConfig b).acts (.init args) = .ok { ParserContext.init args with
      toplevel := CfgToplevel.init.addBentry (reprinted b) } := by
  let c : ParserContext := { ParserContext.init args with
    bentry := { CfgBentry.init with title := b.title, label := b.label } }
  have hhead : execAll env (.title b.title :: labelActs (printedLabel b)) (.init args) = .ok c := by
    unfold printedLabel
    split
    · rename_i hlabel
      simp only [c, hlabel]
      rfl
    · rfl
  have hoptions := @execAll_options env (printedOptions b) c rfl
  show execAll env (.title b.title :: labelActs (printedLabel b) ++
    optionActs (.ofList (printedOptions b)) ++ [.bootentry] ++ []) (.init args) = _
  rw [List.append_nil, execAll_append, execAll_append, hhead]
  simp only [bind, Except.bind, hoptions]
  rfl

/-- **With a title and an option** the text is accepted. -/
theorem print_accepted (env : Env) (msgs : Messages) {scan : Scanner} (hmode : scan.mode = .initial)
    (hstack : scan.stack = []) (hok : PrintedOk b) (htitle : b.title ≠ [])
    (hne : printedOptions b ≠ []) :
    Yields (parseSysloadBootEntry env msgs scan (cfgBentryPrint b)) (.ok (.ok (reprinted b))) := by
  obtain ⟨us, hus, hlexes⟩ := lexes_print hok
  have hfeed := feed_config (printedConfig_reads htitle hne hus) (by simp [printedConfig])
  obtain ⟨lineno, hdelivers⟩ := hlexes (scan.restart (cfgBentryPrint b)) [] hmode
    (List.append_nil _).symm
  have heof : ∀ active load, ({ scan with lineno := lineno, text := [] } : Scanner).flexStep active
      load = ({ scan with lineno := lineno, text := [] }, some .eof) := by
    intro active load
    unfold Scanner.flexStep
    rw [hstack]
  have hend := @yyparse_accept env msgs ⟨{ scan with lineno := lineno, text := [] },
    ⟨.list .deflist true, [], []⟩, { ParserContext.init none with
      toplevel := CfgToplevel.init.addBentry (reprinted b) }⟩ _ (heof _ _) rfl
  have hparse : (yyparse env msgs (.start scan none (cfgBentryPrint b))).Gives _ :=
    (yyparse_delivers hdelivers hfeed (exec_printed env none)).mpr hend
  rw [← cstr_eq_self (print_nul hok)] at hparse
  exact bootEntry_accepted hparse rfl

theorem feed_of_shift {c : Control} {t : Token} (h : (c.shift t).2 = none) (ts : List Token) :
    (c.feed (t :: ts)).2 = none := by
  rw [Control.feed]
  cases hshift : c.shift t with
  | mk acts next =>
    rw [hshift] at h
    cases h
    rfl

/-- Behind the brace there must be a title. -/
theorem shift_title {stack : List Closer} {t : Token} (h : t.kind ≠ .tTitle) :
    (Control.shift ⟨.title, stack, []⟩ t).2 = none := by
  obtain ⟨k, v⟩ := t
  cases k <;> first | rfl | exact absurd rfl h

/-- **Without a title** the text is not accepted. -/
theorem print_title {env : Env} {msgs : Messages} {scan : Scanner} (hmode : scan.mode = .initial)
    (hok : PrintedOk b) (htitle : b.title = []) (s' : Parse) :
    ¬ (yyparse env msgs (.start scan none (cstr (cfgBentryPrint b)))).Gives (.ok (true, s')) := by
  obtain ⟨us, hus, hlexes⟩ := lexes_print hok
  -- the first token behind the brace
  have hhead : ∃ t ts, lineTokens .tLabel b.label ++ us ++ [⟨.rbrace, []⟩] = t :: ts ∧
      t.kind ≠ .tTitle := by
    unfold lineTokens
    split
    · cases hoptions : printedOptions b with
      | nil =>
        rw [hoptions] at hus
        cases hus
        exact ⟨_, _, rfl, by simp⟩
      | cons o os =>
        obtain ⟨u, rest, rfl, hu⟩ := options_head (k := .tTitle) rfl (by decide) hus
          (Items.ofList_ne_nil (by simp [hoptions]))
        exact ⟨u, _, rfl, hu⟩
    · exact ⟨_, _, rfl, by simp⟩
  obtain ⟨t, ts, hts, ht⟩ := hhead
  have hopen : Control.start.feed [⟨.tBootEntry, []⟩, ⟨.lbrace, []⟩] =
      ([], some ⟨.title, [.bootentry], []⟩) := rfl
  have hfeed : (Control.start.feed ([⟨.tBootEntry, []⟩, ⟨.lbrace, []⟩] ++ t :: ts)).2 = none := by
    rw [Control.feed_append hopen]
    exact feed_of_shift (shift_title ht) ts
  have htokens := hlexes
  rw [lineTokens, if_pos htitle, List.append_nil, List.append_assoc, List.append_assoc,
    ← List.append_assoc (lineTokens _ _), hts] at htokens
  obtain ⟨lineno, hdelivers⟩ := htokens (scan.restart (cfgBentryPrint b)) [] hmode
    (List.append_nil _).symm
  rw [cstr_eq_self (print_nul hok)]
  exact not_accepted_of_feed hdelivers hfeed

/-- **Without an option** the text is not accepted. -/
theorem print_option {env : Env} {msgs : Messages} {scan : Scanner} (hmode : scan.mode = .initial)
    (hok : PrintedOk b) (htitle : b.title ≠ []) (hnil : printedOptions b = []) (s' : Parse) :
    ¬ (yyparse env msgs (.start scan none (cstr (cfgBentryPrint b)))).Gives (.ok (true, s')) := by
  obtain ⟨us, hus, hlexes⟩ := lexes_print hok
  rw [hnil] at hus
  cases hus
  obtain ⟨lineno, hdelivers⟩ := hlexes (scan.restart (cfgBentryPrint b)) [] hmode
    (List.append_nil _).symm
  rw [cstr_eq_self (print_nul hok)]
  refine not_accepted_of_feed hdelivers ?_
  rw [lineTokens, if_neg htitle, lineTokens]
  split
  · rfl
  · rfl

end Print

/-! ## The entry that comes back -/

/-- The action of the last option that has one. -/
def lastAction (b : CfgBentry) : BootAction :=
  if b.bootmap ≠ [] then .bootmapBoot else if b.insfile ≠ [] then .insfileBoot else .kernelBoot

/-- Read the line of a field, if there is one. -/
def setField (b x : CfgBentry) (f : BentryField) : CfgBentry :=
  if f.get b = [] then x else (f.option (f.get b)).set x

section SetField

variable {b : CfgBentry}

theorem reprinted_fold (h : printedOptions b =
    (BentryField.all.filter fun f => f.get b ≠ []).map fun f => f.option (f.get b)) :
    reprinted b = BentryField.all.foldl (setField b)
      { CfgBentry.init with title := b.title, label := b.label } := by
  rw [reprinted, h, List.foldl_map, List.foldl_filter]
  congr 1
  funext x f
  by_cases hf : f.get b = [] <;> simp [setField, hf]

/-- What no option of a field changes. -/
theorem foldl_setField {α : Type} (g : CfgBentry → α)
    (hg : ∀ (x : CfgBentry) (f : BentryField) str, g ((f.option str).set x) = g x)
    (fs : List BentryField) (x : CfgBentry) : g (fs.foldl (setField b) x) = g x := by
  induction fs generalizing x with
  | nil => rfl
  | cons f fs ih =>
    rw [List.foldl_cons, ih, setField]
    split
    · rfl
    · exact hg x f _

/-- An option sets one field. -/
theorem get_set (f g : BentryField) (str : CStr) (x : CfgBentry) :
    g.get ((f.option str).set x) = if g = f then str else g.get x := by
  cases f <;> cases g <;> rfl

theorem get_foldl (g : BentryField) (fs : List BentryField) {x : CfgBentry}
    (hx : g.get x = [] ∨ g.get x = g.get b) :
    g.get (fs.foldl (setField b) x) = if g ∈ fs then g.get b else g.get x := by
  induction fs generalizing x with
  | nil => rfl
  | cons f fs ih =>
    have hset : g.get (setField b x f) = if g = f then g.get b else g.get x := by
      unfold setField
      by_cases hf : f.get b = []
      · rw [if_pos hf]
        split
        · rename_i hgf
          subst hgf
          rw [hf] at hx ⊢
          exact hx.elim id id
        · rfl
      · rw [if_neg hf, get_set]
        split
        · rename_i hgf
          rw [hgf]
        · rfl
    have hnext : g.get (setField b x f) = [] ∨ g.get (setField b x f) = g.get b := by
      rw [hset]
      split
      · exact Or.inr rfl
      · exact hx
    rw [List.foldl_cons, ih hnext, hset]
    by_cases hgf : g = f <;> by_cases hmem : g ∈ fs <;> simp [hgf, hmem]

/-- **Of an entry that boots something** the fields come back. -/
theorem reprinted_get (h : printedOptions b =
    (BentryField.all.filter fun f => f.get b ≠ []).map fun f => f.option (f.get b))
    (f : BentryField) : f.get (reprinted b) = f.get b := by
  have hnil : f.get { CfgBentry.init with title := b.title, label := b.label } = [] := by
    cases f <;> rfl
  have hmem : f ∈ BentryField.all := by cases f <;> decide
  rw [reprinted_fold h, get_foldl f _ (Or.inl hnil), if_pos hmem]

theorem setField_action (x : CfgBentry) (f : BentryField) :
    (setField b x f).action = if f.get b = [] then x.action else
      match f with
      | .kernel => .kernelBoot
      | .insfile => .insfileBoot
      | .bootmap => .bootmapBoot
      | _ => x.action := by
  unfold setField
  split
  · rfl
  · cases f <;> rfl

/-- **The action** is the one of the last line that has one. -/
theorem reprinted_action (h : printedOptions b =
    (BentryField.all.filter fun f => f.get b ≠ []).map fun f => f.option (f.get b)) :
    (reprinted b).action = lastAction b := by
  rw [reprinted_fold h]
  have hinit : CfgBentry.init.action = .kernelBoot := rfl
  simp only [BentryField.all, List.foldl_cons, List.foldl_nil, setField_action, hinit, ite_self,
    lastAction, ne_eq, ite_not]
  rfl

end SetField

/-! ## Round trips -/

/-- The same entry, as far as its action goes. -/
structure SameUsed (b b' : CfgBentry) : Prop where
  action : b'.action = b.action
  title : b'.title = b.title
  label : b'.label = b.label
  fields : ∀ f ∈ usedFields b.action, f.get b' = f.get b

/-- The text of the entry is parsed to the same entry, by a scanner that no earlier parse has spoiled. -/
def RoundTrips (b : CfgBentry) : Prop :=
  ∀ (env : Env) (msgs : Messages) (scan : Scanner), scan.mode = .initial → scan.stack = [] →
    ∃ b', Yields (parseSysloadBootEntry env msgs scan (cfgBentryPrint b)) (.ok (.ok b')) ∧
      SameUsed b b'

/-- What the text can say of an entry. -/
structure Repeatable (b : CfgBentry) : Prop where
  title : b.title ≠ []
  kernel : b.action = .kernelBoot → b.insfile = [] ∧ b.bootmap = [] ∧
    ∃ f ∈ usedFields .kernelBoot, f.get b ≠ []
  insfile : b.action = .insfileBoot → b.bootmap = []
  fields : ∀ f ∈ usedFields b.action, f.Ok (f.get b)

section RoundTrip

variable {b : CfgBentry}

theorem BentryOk.fields (h : BentryOk True b) (f : BentryField) : f.Ok (f.get b) := by
  cases f with
  | root => exact h.root trivial
  | kernel => exact h.kernel trivial
  | initrd => exact h.initrd trivial
  | cmdline => exact h.cmdline
  | parmfile => exact h.parmfile trivial
  | insfile => exact h.insfile trivial
  | bootmap => exact h.bootmap trivial

/-- **An entry that boots something** is printed with its fields. -/
theorem printedOptions_boot (h : printedFields b.action ≠ []) : printedOptions b =
    (BentryField.all.filter fun f => f.get b ≠ []).map fun f => f.option (f.get b) := by
  unfold printedOptions
  cases haction : b.action with
  | kernelBoot => rfl
  | insfileBoot => rfl
  | bootmapBoot => rfl
  | _ =>
    rw [haction] at h
    exact absurd rfl h

/-- **An entry that boots nothing** is printed as one word. -/
theorem printedOptions_plain (h : printedFields b.action = []) :
    printedOptions b ≠ [] ∧ SameUsed b (reprinted b) := by
  have hreprinted : (reprinted b).action = b.action ∧ (reprinted b).title = b.title ∧
      (reprinted b).label = b.label := by
    unfold reprinted printedOptions
    cases haction : b.action with
    | kernelBoot | insfileBoot | bootmapBoot =>
      rw [haction] at h
      cases h
    | _ => exact ⟨rfl, rfl, rfl⟩
  obtain ⟨haction, htitle, hlabel⟩ := hreprinted
  unfold printedOptions
  cases hcase : b.action with
  | kernelBoot | insfileBoot | bootmapBoot =>
    rw [hcase] at h
    cases h
  | _ => exact ⟨List.cons_ne_nil _ _, haction, htitle, hlabel, fun f hf => by rw [hcase] at hf; cases hf⟩

/-- **When the entry that comes back is the same.** -/
theorem sameUsed_reprinted (hb : BentryOk False b) :
    SameUsed b (reprinted b) ↔
      (b.action = .kernelBoot → b.insfile = [] ∧ b.bootmap = []) ∧
      (b.action = .insfileBoot → b.bootmap = []) := by
  by_cases hplain : printedFields b.action = []
  · refine iff_of_true (printedOptions_plain hplain).2 ⟨fun haction => ?_, fun haction => ?_⟩ <;>
      rw [haction] at hplain <;> cases hplain
  have hboot := printedOptions_boot hplain
  have hlast := reprinted_action hboot
  have htitle : (reprinted b).title = b.title := by
    rw [reprinted_fold hboot, foldl_setField CfgBentry.title fun x f str => by cases f <;> rfl]
  have hlabel : (reprinted b).label = b.label := by
    rw [reprinted_fold hboot, foldl_setField CfgBentry.label fun x f str => by cases f <;> rfl]
  have hsame : SameUsed b (reprinted b) ↔ lastAction b = b.action :=
    ⟨fun h => hlast.symm.trans h.action, fun h => ⟨hlast.trans h, htitle, hlabel,
      fun f _ => reprinted_get hboot f⟩⟩
  rw [hsame, lastAction]
  cases haction : b.action with
  | kernelBoot =>
    by_cases hmap : b.bootmap = [] <;> by_cases hins : b.insfile = [] <;> simp [hmap, hins]
  | insfileBoot =>
    have hins := hb.insfileSet haction
    by_cases hmap : b.bootmap = [] <;> simp [hmap, hins]
  | bootmapBoot =>
    have hmap := hb.bootmapSet haction
    simp [hmap]
  | _ => exact absurd (by rw [haction]; rfl) hplain

/-- Which entries have an option to print. -/
theorem printedOptions_ne_nil (hb : BentryOk False b)
    (hkernel : b.action = .kernelBoot → ∃ f ∈ usedFields .kernelBoot, f.get b ≠ []) :
    printedOptions b ≠ [] := by
  by_cases hplain : printedFields b.action = []
  · exact (printedOptions_plain hplain).1
  have hfield : ∃ f : BentryField, f.get b ≠ [] := by
    cases haction : b.action with
    | kernelBoot =>
      obtain ⟨f, _, hf⟩ := hkernel haction
      exact ⟨f, hf⟩
    | insfileBoot => exact ⟨.insfile, hb.insfileSet haction⟩
    | bootmapBoot => exact ⟨.bootmap, hb.bootmapSet haction⟩
    | _ => exact absurd (by rw [haction]; rfl) hplain
  obtain ⟨f, hf⟩ := hfield
  have hmem : f ∈ BentryField.all := by cases f <;> decide
  rw [printedOptions_boot hplain]
  exact List.ne_nil_of_mem (List.mem_map_of_mem (List.mem_filter.mpr ⟨hmem, by simpa using hf⟩))

/-- The other way round. -/
theorem exists_used_of_printedOptions (haction : b.action = .kernelBoot) (hins : b.insfile = [])
    (hmap : b.bootmap = []) (hne : printedOptions b ≠ []) :
    ∃ f ∈ usedFields .kernelBoot, f.get b ≠ [] := by
  rw [printedOptions_boot (by rw [haction]; exact List.cons_ne_nil _ _)] at hne
  obtain ⟨o, ho⟩ := List.exists_mem_of_ne_nil _ hne
  obtain ⟨f, hf, _⟩ := List.mem_map.mp ho
  have hset : f.get b ≠ [] := by simpa using (List.mem_filter.mp hf).2
  refine ⟨f, ?_, hset⟩
  cases f with
  | insfile => exact absurd hins hset
  | bootmap => exact absurd hmap hset
  | _ => simp [usedFields]

theorem roundTrips_of_repeatable (hb : BentryOk False b) (hok : PrintedOk b)
    (h : Repeatable b) : RoundTrips b := by
  intro env msgs scan hmode hstack
  have hne := printedOptions_ne_nil hb fun haction => (h.kernel haction).2.2
  refine ⟨reprinted b, print_accepted env msgs hmode hstack hok h.title hne, ?_⟩
  exact (sameUsed_reprinted hb).mpr ⟨fun haction => ⟨(h.kernel haction).1, (h.kernel haction).2.1⟩,
    h.insfile⟩

/-- What is returned is the first entry of a text that is accepted. -/
theorem accepted_of_yields {env : Env} {msgs : Messages} {scan : Scanner} {str : List Char}
    {b' : CfgBentry} (h : Yields (parseSysloadBootEntry env msgs scan str) (.ok (.ok b'))) :
    ∃ s, (yyparse env msgs (.start scan none (cstr str))).Gives (.ok (true, s)) ∧
      b' ∈ s.ctx.toplevel.bentryList := by
  obtain ⟨r, hr, hresult⟩ := h
  rcases r with stop | ⟨scan', result⟩
  · cases hresult
  obtain rfl : result = .ok b' := Except.ok.inj hresult
  obtain ⟨accepted, s, hparse, hfirst⟩ := yyparse_of_returns _ _ _ _ hr
  unfold firstBentry at hfirst
  cases accepted with
  | false => cases hfirst
  | true =>
    refine ⟨s, hparse, ?_⟩
    rw [if_pos rfl] at hfirst
    cases hlist : s.ctx.toplevel.bentryList with
    | nil =>
      rw [hlist] at hfirst
      cases hfirst
    | cons first rest =>
      rw [hlist] at hfirst
      cases hfirst
      exact List.mem_cons_self

/-- What the scanner has read from a string is read back. -/
theorem fields_of_yields {msgs : Messages} {str : List Char} {b' : CfgBentry}
    (h : Yields (parseSysloadBootEntry Answers.blank.env msgs .fresh str) (.ok (.ok b')))
    (f : BentryField) : f.Ok (f.get b') := by
  obtain ⟨s, hparse, hmem⟩ := accepted_of_yields h
  have hclean : Clean (Scanner.fresh.restart (cstr str)) :=
    ⟨nul_notMem_cstr _, fun saved h => absurd h List.not_mem_nil,
      fun saved h => absurd h List.not_mem_nil⟩
  have hload : True → NulFree Answers.blank.env := fun _ executed uri content h => by cases h
  have hbentries := yyparse_bentriesOk hload
    (entriesInv_start .fresh none (cstr str) fun _ => hclean) hparse
  exact (hbentries.2 b' hmem).fields f

/-- **Only then** the entry comes back. -/
theorem repeatable_of_roundTrips (hb : BentryOk False b)
    (hunused : ∀ f ∈ printedFields b.action, f ∉ usedFields b.action → f.Ok (f.get b))
    (h : RoundTrips b) : Repeatable b := by
  obtain ⟨b', hyields, hsame⟩ := h Answers.blank.env .short .fresh rfl rfl
  have hused : ∀ f ∈ usedFields b.action, f.Ok (f.get b) := fun f hf =>
    hsame.fields f hf ▸ fields_of_yields hyields f
  have hok : PrintedOk b := ⟨hb.title, hb.label, fun f hf => by
    by_cases hmem : f ∈ usedFields b.action
    · exact hused f hmem
    · exact hunused f hf hmem⟩
  obtain ⟨s, hparse, _⟩ := accepted_of_yields hyields
  have htitle : b.title ≠ [] := fun htitle => print_title rfl hok htitle s hparse
  have hne : printedOptions b ≠ [] := fun hnil => print_option rfl hok htitle hnil s hparse
  -- so the entry that comes back is known
  have haccepted := @print_accepted b Answers.blank.env .short .fresh rfl rfl hok htitle hne
  obtain rfl : b' = reprinted b := Except.ok.inj (Except.ok.inj (hyields.unique haccepted))
  obtain ⟨hkernel, hinsfile⟩ := (sameUsed_reprinted hb).mp hsame
  refine ⟨htitle, fun haction => ?_, hinsfile, hused⟩
  obtain ⟨hins, hmap⟩ := hkernel haction
  exact ⟨hins, hmap, exists_used_of_printedOptions haction hins hmap hne⟩

end RoundTrip

/-! ## The entries of a configuration -/

theorem parsedOf_bentryList (uri : CStr) (accepted : Bool) (c : ParserContext) :
    (parsedOf uri accepted c).config.bentryList = c.toplevel.bentryList := by
  unfold parsedOf
  split
  · split <;> rfl
  · rfl

section Sysload

variable {env : Env} {msgs : Messages} {scan scan' : Scanner} {uri onlyUi : CStr}
  {file : Except CStr (List Char)} {parsed : Parsed} {b : CfgBentry}

/-- The strings of the boot entries of a configuration. -/
theorem parseSysload_bentryOk {clean : Prop} (hload : clean → NulFree env)
    (hclean : clean → ∀ text, file = .ok text → Clean (scan.restart text))
    (h : (parseSysload env msgs scan uri onlyUi file).Gives (.ok (scan', parsed)))
    (hb : b ∈ parsed.config.bentryList) : BentryOk clean b := by
  cases file with
  | error msg =>
    cases Prog.gives_pure.mp h
    exact absurd hb List.not_mem_nil
  | ok text =>
    obtain ⟨⟨accepted, s⟩, hparse, hpure⟩ := Prog.gives_bind_eq_ok.mp h
    cases Prog.gives_pure.mp hpure
    rw [parsedOf_bentryList] at hb
    have hstart := entriesInv_start scan (some onlyUi) text fun hc => hclean hc text rfl
    exact (yyparse_bentriesOk hload hstart hparse).2 b hb

/-- **Which boot entries of a configuration survive being printed and parsed.** -/
theorem roundTrips_iff (h : (parseSysload env msgs scan uri onlyUi file).Gives (.ok (scan', parsed)))
    (hb : b ∈ parsed.config.bentryList)
    (hunused : ∀ f ∈ printedFields b.action, f ∉ usedFields b.action → f.Ok (f.get b)) :
    RoundTrips b ↔ Repeatable b := by
  have hbentry : BentryOk False b :=
    parseSysload_bentryOk (fun h => h.elim) (fun h => h.elim) h hb
  refine ⟨repeatable_of_roundTrips hbentry hunused, fun hrepeat => ?_⟩
  refine roundTrips_of_repeatable hbentry ⟨hbentry.title, hbentry.label, fun f hf => ?_⟩ hrepeat
  by_cases hmem : f ∈ usedFields b.action
  · exact hrepeat.fields f hmem
  · exact hunused f hf hmem

/-- **In a text without `NUL`** every field is read back. -/
theorem parseSysload_fields (hload : NulFree env) (hstack : scan.stack = [])
    (hfile : ∀ text, file = .ok text → nul ∉ text)
    (h : (parseSysload env msgs scan uri onlyUi file).Gives (.ok (scan', parsed)))
    (hb : b ∈ parsed.config.bentryList) (f : BentryField) : f.Ok (f.get b) := by
  have hnone : (scan.restart []).stack = [] := hstack
  have hclean : True → ∀ text, file = .ok text → Clean (scan.restart text) := by
    refine fun _ text htext => ⟨hfile text htext, fun saved hmem => ?_, fun saved hmem => ?_⟩
    · exact absurd (hnone ▸ hmem) List.not_mem_nil
    · exact absurd (hnone ▸ hmem) List.not_mem_nil
  exact (parseSysload_bentryOk (fun _ => hload) hclean h hb).fields f

end Sysload

/-- A boot entry with a title and a kernel. -/
def kernelText (title : List Char) : List Char :=
  "boot_entry \x7b\ntitle ".toList ++ title ++ "\nkernel k\n\x7d\n".toList

/-- The boot entry of `kernelText`. -/
def kernelBentry (title : CStr) : CfgBentry :=
  { CfgBentry.init with title := title, kernel := ['k'] }

/-- The configuration of `kernelText`. -/
def kernelParsed (title : CStr) : Parsed :=
  ⟨none, CfgToplevel.init.addBentry (kernelBentry title), []⟩

theorem kernelText_parsed : (parseSysload Answers.blank.env .short .fresh [] []
    (.ok (kernelText ['a']))).Gives (.ok (⟨.initial, 5, [], []⟩, kernelParsed ['a'])) := ⟨30, by rfl⟩

theorem emptyTitle_parsed : (parseSysload Answers.blank.env .short .fresh [] []
    (.ok (kernelText []))).Gives (.ok (⟨.initial, 5, [], []⟩, kernelParsed [])) := ⟨30, by rfl⟩

theorem kernelBentry_unused (title : CStr) :
    ∀ f ∈ printedFields (kernelBentry title).action, f ∉ usedFields (kernelBentry title).action →
      f.Ok (f.get (kernelBentry title)) := by
  intro f _ hf
  cases f with
  | insfile => exact Or.inl rfl
  | bootmap => exact Or.inl rfl
  | _ => exact absurd (by simp [usedFields, kernelBentry, CfgBentry.init]) hf

theorem roundTrips_iff_kernelText :
    RoundTrips (kernelBentry ['a']) ↔ Repeatable (kernelBentry ['a']) :=
  roundTrips_iff kernelText_parsed List.mem_cons_self (kernelBentry_unused ['a'])

/-- **An empty title is lost**: the entry is printed without one, and no boot entry comes without. -/
theorem emptyTitle_lost :
    ¬ ∀ (env : Env) (msgs : Messages) (scan scan' : Scanner) (uri onlyUi : CStr)
      (file : Except CStr (List Char)) (parsed : Parsed) (b : CfgBentry),
      (parseSysload env msgs scan uri onlyUi file).Gives (.ok (scan', parsed)) →
      b ∈ parsed.config.bentryList → RoundTrips b := by
  intro hall
  have hround := hall _ _ _ _ _ _ _ _ (kernelBentry []) emptyTitle_parsed List.mem_cons_self
  have hbentry : BentryOk False (kernelBentry []) :=
    parseSysload_bentryOk (fun h => h.elim) (fun h => h.elim) emptyTitle_parsed List.mem_cons_self
  exact (repeatable_of_roundTrips hbentry (kernelBentry_unused []) hround).title rfl

end Sysload.Parser
