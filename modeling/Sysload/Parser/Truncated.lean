import Sysload.Parser.RoundTrip

/-!
# Truncated boot entries

The parent may parse what it has collected from a user interface before the whole text is there. Only
the closing brace ends a boot entry, and it is a token of its own only at the beginning of the last
line: a brace within a value belongs to the value, and the value is not even delivered before the end
of its line.

Source: `src/core/ui_control.c`, `check_input_from_client`; `src/core/parser_sysload.c`,
`parse_sysload_boot_entry`. Out of scope are scanners with a suspended buffer.

Results:
* `neverCloses_flexStep`: a text that ends within a line, behind a keyword, has no brace left.
* **`truncated_never_parsed`**: of the beginnings of the text of a boot entry, only the whole text
  gives a boot entry, with its last line break or without it.
-/

namespace Sysload.Parser

open Lexer

/-! ## Where no brace is a token -/

/-- The start conditions behind a keyword. -/
def Mode.behindKeyword : Mode → Bool
  | .strmode | .urimode | .urirestmode | .uimode | .includemode => true
  | .initial | .modmode => false

/-- The rule needs a line break, or its token is no closing brace, unless that is in the text, and
leaves no start condition behind a keyword. -/
def Rule.cuts (r : Rule) : Bool :=
  match r.action with
  | .token k _ next =>
    k != .rbrace && (r.trail || r.modes.all fun m => !m.behindKeyword || (next.getD m).behindKeyword)
  | .less k _ next => k != .rbrace && next.behindKeyword
  | .char _ => r.modes.all fun m => !m.behindKeyword
  | .string | .incl => r.trail
  | .skip next => r.modes.all fun m => !m.behindKeyword || (next.getD m).behindKeyword
  | .newline => r.pattern == chr '\n'

/-- A rule with trailing context needs the line break. -/
def Rule.endsLine (r : Rule) : Bool :=
  !r.trail || match r.pattern with
    | .seq _ q => q == chr '\n'
    | _ => false

theorem rules_cut : rules.all Rule.cuts = true := by decide +kernel

theorem rules_endLine : rules.all Rule.endsLine = true := by decide +kernel

/-- What is left of a text behind which no closing brace comes: the text ends within a line, and it
has no brace, or a keyword was read. -/
structure Cut (s : Scanner) : Prop where
  stack : s.stack = []
  newline : '\n' ∉ s.text
  brace : '\x7d' ∉ s.text ∨ s.mode.behindKeyword = true

/-- What is delivered is no closing brace. -/
def KeepsOpen (e : Option Event) : Prop := ∀ t yytext, e = some (.token t yytext) → t.kind ≠ .rbrace

theorem keepsOpen_none : KeepsOpen none := fun _ _ h => by cases h

theorem charKind_ne_rbrace {c : Char} (h : c ≠ '\x7d') : charKind c ≠ .rbrace := by
  unfold charKind
  repeat' split
  all_goals first | exact absurd ‹_› h | simp

section Step

variable {active : Bool} {load : CStr → Option (List Char)} {s : Scanner}

/-- No rule with trailing context matches without a line break. -/
theorem Scanner.Matches.not_trail {n : Nat} {r : Rule} (h : s.Matches n r)
    (hnewline : '\n' ∉ s.text) : r.trail = false := by
  by_contra htrail
  have hrule := List.all_eq_true.mp rules_endLine r h.rule
  unfold Rule.endsLine at hrule
  rw [Bool.not_eq_false] at htrail
  rw [htrail, Bool.not_true, Bool.false_or] at hrule
  have hlang := h.lang
  split at hrule
  · rename_i p q hpattern
    rw [hpattern, beq_iff_eq.mp hrule] at hlang
    obtain ⟨u, _, v, hv, heq⟩ := Language.mem_mul.mp hlang
    obtain rfl := mem_lang_chr.mp hv
    exact hnewline (List.mem_of_mem_take (heq ▸ List.mem_append_right u List.mem_cons_self))
  · cases hrule

theorem mem_getD_of_behind {m : Mode} {next : Option Mode} {modes : List Mode} (hm : m ∈ modes)
    (h : modes.all (fun m => !m.behindKeyword || (next.getD m).behindKeyword) = true)
    (hbehind : m.behindKeyword = true) : (next.getD m).behindKeyword = true := by
  have hrule := List.all_eq_true.mp h m hm
  rwa [hbehind, Bool.not_true, Bool.false_or] at hrule

/-- **Within the last line no closing brace is delivered.** -/
theorem Cut.flexStep (h : Cut s) (active : Bool) (load : CStr → Option (List Char)) :
    Cut (s.flexStep active load).1 ∧ KeepsOpen (s.flexStep active load).2 := by
  obtain ⟨hstack, hnewline, hbrace⟩ := h
  rcases @Scanner.flexStep_cases active load s with ⟨_, _, hstep⟩ | ⟨saved, stack, _, hs, _⟩ |
    ⟨c, rest, htext, hstep⟩ | ⟨n, r, hmatch, hstep⟩
  · rw [hstep]
    exact ⟨⟨hstack, hnewline, hbrace⟩, fun t y h => by cases h⟩
  · rw [hstack] at hs
    cases hs
  · rw [hstep]
    rw [htext] at hnewline hbrace
    exact ⟨⟨hstack, fun hmem => hnewline (List.mem_cons_of_mem c hmem),
      hbrace.imp_left fun h hmem => h (List.mem_cons_of_mem c hmem)⟩, keepsOpen_none⟩
  · have htrail := hmatch.not_trail hnewline
    have hrule := List.all_eq_true.mp rules_cut r hmatch.rule
    have hdrop : ∀ {c : Char}, c ∉ s.text → c ∉ s.text.drop (r.taken n) :=
      fun h hmem => h (List.mem_of_mem_drop hmem)
    rw [hstep]
    unfold Rule.cuts at hrule
    cases haction : r.action with
    | token k val next =>
      simp only [haction, htrail, Bool.false_or, Bool.and_eq_true, bne_iff_ne] at hrule
      refine ⟨⟨hstack, hdrop hnewline, hbrace.imp hdrop (mem_getD_of_behind hmatch.mode hrule.2)⟩,
        fun t y ht => ?_⟩
      obtain ⟨rfl, -⟩ := Event.token.inj (Option.some.inj ht)
      exact hrule.1
    | less k m next =>
      simp only [haction, Bool.and_eq_true, bne_iff_ne] at hrule
      refine ⟨⟨hstack, fun hmem => ?_, Or.inr hrule.2⟩, fun t y ht => ?_⟩
      · rcases List.mem_append.mp hmem with hmem | hmem
        · exact hnewline (List.mem_of_mem_take (List.mem_of_mem_drop hmem))
        · exact hdrop hnewline hmem
      · obtain ⟨rfl, -⟩ := Event.token.inj (Option.some.inj ht)
        exact hrule.1
    | char next =>
      simp only [haction] at hrule
      have hmode : s.mode.behindKeyword = false := by
        simpa using List.all_eq_true.mp hrule s.mode hmatch.mode
      have hnone : '\x7d' ∉ s.text := hbrace.resolve_right (by simp [hmode])
      refine ⟨⟨hstack, hdrop hnewline, Or.inl (hdrop hnone)⟩, fun t y ht => ?_⟩
      obtain ⟨rfl, -⟩ := Event.token.inj (Option.some.inj ht)
      refine charKind_ne_rbrace fun heq => ?_
      cases htake : s.text.take (r.taken n) with
      | nil =>
        rw [htake] at heq
        exact absurd heq (by decide)
      | cons c rest =>
        rw [htake] at heq
        obtain rfl : c = '\x7d' := heq
        exact hnone (List.mem_of_mem_take (htake ▸ List.mem_cons_self))
    | string | incl =>
      simp only [haction, htrail] at hrule
      cases hrule
    | skip next =>
      simp only [haction] at hrule
      exact ⟨⟨hstack, hdrop hnewline, hbrace.imp hdrop (mem_getD_of_behind hmatch.mode hrule)⟩,
        keepsOpen_none⟩
    | newline =>
      simp only [haction] at hrule
      have hlang := hmatch.lang
      rw [beq_iff_eq.mp hrule] at hlang
      have hmem : '\n' ∈ s.text.take n := by
        rw [mem_lang_chr.mp hlang]
        exact List.mem_cons_self
      exact absurd (List.mem_of_mem_take hmem) hnewline

end Step

/-- The scanner delivers no closing brace any more. -/
inductive NeverCloses : Scanner → Prop where
  | cut {s : Scanner} (h : Cut s) : NeverCloses s
  | step {s : Scanner} (h : ∀ active load, NeverCloses (s.flexStep active load).1)
    (hopens : ∀ active load, KeepsOpen (s.flexStep active load).2) : NeverCloses s

theorem neverCloses_flexStep {s : Scanner} (h : NeverCloses s) (active : Bool)
    (load : CStr → Option (List Char)) :
    NeverCloses (s.flexStep active load).1 ∧ KeepsOpen (s.flexStep active load).2 := by
  cases h with
  | cut h =>
    obtain ⟨hcut, hopens⟩ := h.flexStep active load
    exact ⟨.cut hcut, hopens⟩
  | step h hopens => exact ⟨h active load, hopens active load⟩

theorem NeverCloses.delivers {s x : Scanner} {ts : List Token} (h : Delivers s ts x)
    (hts : ∀ t ∈ ts, t.kind ≠ .rbrace) (hx : NeverCloses x) : NeverCloses s := by
  induction h with
  | refl s => exact hx
  | skip hstep _ ih =>
    refine .step (fun active load => ?_) fun active load => ?_
    · rw [hstep]
      exact ih hts hx
    · rw [hstep]
      exact keepsOpen_none
  | token hstep _ ih =>
    obtain ⟨ht, hts⟩ := List.forall_mem_cons.mp hts
    refine .step (fun active load => ?_) fun active load => ?_
    · rw [hstep]
      exact ih hts hx
    · rw [hstep]
      intro u y heq
      obtain ⟨rfl, -⟩ := Event.token.inj (Option.some.inj heq)
      exact ht

/-! ## Without a closing brace no boot entry is added -/

/-- The row adds no boot entry, unless it is a closing brace. -/
def Row.Adds (r : Row) : Prop :=
  ∀ v, .bootentry ∉ (r.effect v).1 ∧ ∀ acts stack, .bootentry ∉ acts →
    .bootentry ∈ ((r.effect v).2.apply stack acts).1 → r.kinds = [.rbrace]

theorem adds_goto {kinds : List Kind} {effect : (Nat → CStr) → List Act × Place}
    (h : ∀ v, .bootentry ∉ (effect v).1) :
    Row.Adds ⟨kinds, fun v => ((effect v).1, .goto (effect v).2)⟩ := fun v =>
  ⟨h v, fun _ _ hacts hmem => absurd hmem hacts⟩

theorem adds_push {kinds : List Kind} {k : Closer} {p : Place} :
    Row.Adds ⟨kinds, fun _ => ([], .push k p)⟩ := fun _ =>
  ⟨List.not_mem_nil, fun _ _ hacts hmem => absurd hmem hacts⟩

theorem adds_close : closeRow.Adds := fun _ => ⟨List.not_mem_nil, fun _ _ _ _ => rfl⟩

theorem adds_itemRows {α : Type} (l : Level) {f : α → Act}
    {table : List (List Kind × ((Nat → CStr) → α))}
    (hf : ∀ r ∈ table, ∀ v, f (r.2 v) ≠ .bootentry) : ∀ r ∈ itemRows l f table, r.Adds := by
  intro r hr
  obtain ⟨row, hrow, rfl⟩ := List.mem_map.mp hr
  exact @adds_goto row.1 (fun v => ([f (row.2 v)], .list l true)) fun v hmem =>
    hf row hrow v (List.mem_singleton.mp hmem).symm

theorem adds_systemRow (l : Level) : (systemRow l).Adds :=
  @adds_goto _ (fun _ => ([], .systemlist l 0 none)) fun _ => List.not_mem_nil

theorem adds_systemidRows (l : Level) (nots : Nat) (acc : Option SystemList) :
    ∀ r ∈ systemidRows l nots acc, r.Adds := by
  intro r hr
  obtain ⟨row, _, rfl⟩ := List.mem_map.mp hr
  exact @adds_goto row.1 (fun v => ([], .systemlist l nots (some (extend acc (row.2 v)))))
    fun _ => List.not_mem_nil

theorem adds_defRows : ∀ r ∈ defRows, r.Adds := by
  intro r hr
  rcases List.mem_append.mp hr with hr | hr
  · refine adds_itemRows .deflist (fun r hr v heq => ?_) r hr
    simp only [globaldefTable, List.mem_cons, List.not_mem_nil, or_false] at hr
    rcases hr with rfl | rfl | rfl | rfl | rfl | rfl | rfl | rfl | rfl <;> cases heq
  · simp only [List.mem_cons, List.not_mem_nil, or_false] at hr
    rcases hr with rfl | rfl | rfl | rfl
    · exact adds_push
    · exact adds_push
    · exact adds_push
    · exact adds_systemRow _

theorem adds_elementRows (l : Level) : ∀ r ∈ elementRows l, r.Adds := by
  intro r hr
  cases l with
  | deflist => exact adds_defRows r hr
  | modparamlist | netparamlist | optionlist =>
    rcases List.mem_append.mp hr with hr | hr
    · exact adds_itemRows _ (fun _ _ _ h => by cases h) r hr
    · exact List.mem_singleton.mp hr ▸ adds_systemRow _

theorem bootentry_notMem_addrActs (members : List (CStr → NetParam)) (addrs : List CStr) :
    .bootentry ∉ addrActs members addrs := by
  intro hmem
  obtain ⟨i, _, heq⟩ := List.getElem_of_mem (List.mem_reverse.mp hmem)
  rw [List.getElem_zipWith] at heq
  cases heq

theorem bootentry_notMem_knetActs (ident : CStr) (addrs : List CStr) :
    .bootentry ∉ knetActs ident addrs := by
  simp [knetActs, bootentry_notMem_addrActs]

theorem bootentry_notMem_netRestActs (ident : CStr) (addrs : List CStr) :
    .bootentry ∉ netRestActs ident addrs := by
  simp [netRestActs, bootentry_notMem_addrActs]

theorem adds_netRest {kinds : List Kind} {n : Nat} {p q : (Nat → CStr) → Place}
    {acts : (Nat → CStr) → List Act} (h : ∀ v, .bootentry ∉ acts v) :
    Row.Adds ⟨kinds, fun v => if n < 3 then ([], .goto (p v)) else (acts v, .goto (q v))⟩ := by
  intro v
  dsimp only
  split
  · exact ⟨List.not_mem_nil, fun _ _ hacts hmem => absurd hmem hacts⟩
  · exact ⟨h v, fun _ _ hacts hmem => absurd hmem hacts⟩

/-- **Only a closing brace adds a boot entry.** -/
theorem adds_rows {p : Place} : ∀ r ∈ rows p, r.Adds := by
  intro r hr
  have hplain : ∀ {kinds : List Kind} {a : (Nat → CStr) → List Act} {q : (Nat → CStr) → Place},
      (∀ v, .bootentry ∉ a v) → Row.Adds ⟨kinds, fun v => (a v, .goto (q v))⟩ := fun {_ a q} h =>
    @adds_goto _ (fun v => (a v, q v)) h
  cases p with
  | input =>
    rcases List.mem_append.mp hr with hr | hr
    · exact adds_defRows r hr
    · simp only [List.mem_cons, List.not_mem_nil, or_false] at hr
      rcases hr with rfl | rfl | rfl <;> exact hplain (by simp)
  | list l b =>
    have hcases : r = closeRow ∨ r ∈ elementRows l := by
      cases b with
      | true => exact List.mem_cons.mp hr
      | false =>
        cases l with
        | deflist => exact List.mem_cons.mp hr
        | modparamlist | netparamlist | optionlist => exact Or.inr hr
    rcases hcases with rfl | hr
    · exact adds_close
    · exact adds_elementRows l r hr
  | title => exact List.mem_singleton.mp hr ▸ hplain (by simp)
  | label => exact List.mem_singleton.mp hr ▸ hplain (by simp)
  | systemlist l nots acc =>
    cases acc with
    | none =>
      rcases List.mem_cons.mp hr with rfl | hr
      · exact hplain (by simp)
      · exact adds_systemidRows _ _ _ r hr
    | some acc =>
      cases nots with
      | zero => exact adds_systemidRows _ _ _ r hr
      | succ nots =>
        rcases List.mem_cons.mp hr with rfl | hr
        · exact hplain (by simp)
        · exact adds_systemidRows _ _ _ r hr
  | brace l => exact List.mem_singleton.mp hr ▸ adds_push
  | knetRest ident addrs =>
    exact List.mem_singleton.mp hr ▸ adds_netRest fun v => bootentry_notMem_knetActs _ _
  | finished => exact absurd hr List.not_mem_nil
  | ksetParam =>
    simp only [rows, List.mem_cons, List.not_mem_nil, or_false] at hr
    rcases hr with rfl | rfl | rfl | rfl | rfl | rfl <;> exact hplain (by simp)
  | ksetRest => exact List.mem_singleton.mp hr ▸ hplain (by simp)
  | netRest mode ident addrs =>
    exact List.mem_singleton.mp hr ▸ adds_netRest fun v => bootentry_notMem_netRestActs _ _
  | netClose mode => exact List.mem_singleton.mp hr ▸ hplain (by simp)

section Control

variable {c : Control} {t : Token}

theorem advance_adds (ht : t.kind ≠ .rbrace) : .bootentry ∉ (c.advance t).1 := by
  unfold Control.advance
  dsimp only
  split
  · rename_i r hfind
    obtain ⟨hacts, hpop⟩ := adds_rows r (List.mem_of_find?_eq_some hfind)
      (dollar ((c.read ++ [t]).map Token.val))
    intro hmem
    have hkinds := hpop _ _ hacts hmem
    have hfits := List.find?_some hfind
    rw [of_decide_eq_true hfits, List.map_append] at hkinds
    have hlast := congrArg List.getLast? hkinds
    simp only [List.map_cons, List.map_nil, List.getLast?_concat, List.getLast?_singleton,
      Option.some.injEq] at hlast
    exact ht hlast
  · split <;> exact List.not_mem_nil

theorem reduction_adds {p q : Place} {acts : List Act} (h : p.reduction = some (acts, q)) :
    .bootentry ∉ acts := by
  unfold Place.reduction at h
  split at h
  · cases h
    exact List.not_mem_nil
  · cases h
    simp
  · cases h
    exact bootentry_notMem_knetActs _ _
  · cases h
    exact bootentry_notMem_netRestActs _ _
  · cases h

theorem shift_adds (ht : t.kind ≠ .rbrace) : .bootentry ∉ (c.shift t).1 := by
  unfold Control.shift
  split
  · rename_i acts p hreducible
    unfold Control.reducible at hreducible
    split at hreducible
    · intro hmem
      rcases List.mem_append.mp hmem with hmem | hmem
      · exact reduction_adds hreducible hmem
      · exact advance_adds ht hmem
    · cases hreducible
  · exact advance_adds ht

theorem finish_adds : .bootentry ∉ c.finish.1 := by
  unfold Control.finish
  split
  · split
    · rename_i acts p hreduction
      exact reduction_adds hreduction
    · exact List.not_mem_nil
  · exact List.not_mem_nil

theorem take_adds {e : Event} (h : KeepsOpen (some e)) : .bootentry ∉ (c.take e).1 := by
  cases e with
  | eof => exact finish_adds
  | token t yytext =>
    unfold Control.take
    dsimp only
    split <;> exact shift_adds (h t yytext rfl)

end Control

/-- No other action adds a boot entry. -/
theorem execAll_adds {env : Env} {as : List Act} {c d : ParserContext} (has : .bootentry ∉ as)
    (h : execAll env as c = .ok d) : d.toplevel.bentryList = c.toplevel.bentryList := by
  induction as generalizing c with
  | nil =>
    cases h
    rfl
  | cons a as ih =>
    obtain ⟨e, he, hrest⟩ := execAll_cons_eq_ok.mp h
    obtain ⟨ha, has⟩ := not_or.mp (mt List.mem_cons.mpr has)
    have hnone : bentries c.bentry [(a, c.active)] = [] :=
      bentries_eq_nil.mpr fun hmem => ha (Prod.mk.inj (List.mem_singleton.mp hmem)).1
    rw [ih has hrest, (exec_bentries he).2, hnone, List.append_nil]

/-- **Where no brace closes** no boot entry is added. -/
theorem yyparse_neverCloses {env : Env} {msgs : Messages} {s s' : Parse} {accepted : Bool}
    (hs : NeverCloses s.scan) (h : (yyparse env msgs s).Gives (.ok (accepted, s'))) :
    s'.ctx.toplevel.bentryList = s.ctx.toplevel.bentryList := by
  suffices H : ∀ r, (yyparse env msgs s).Gives r → NeverCloses s.scan → ∀ accepted s',
      r = .ok (accepted, s') → s'.ctx.toplevel.bentryList = s.ctx.toplevel.bentryList from
    H _ h hs _ _ rfl
  intro r hr
  refine Prog.loop_induction (motive := fun s r => NeverCloses s.scan →
    ∀ (accepted : Bool) (s' : Parse), r = .ok (accepted, s') →
      s'.ctx.toplevel.bentryList = s.ctx.toplevel.bentryList)
    (fun s a ha hs accepted s' heq => ?_) (fun s e _ _ _ _ heq => by cases heq)
    (fun s t r ht ih hs accepted s' heq => ?_) hr
  · have hpass := passes_pass env msgs s
    obtain ⟨_, hopens⟩ := neverCloses_flexStep hs s.ctx.active (env.openInclUri s.ctx.executed)
    rw [Prog.gives_lift.mp ha] at hpass
    cases heq
    cases hpass with
    | accepted hevent hexec _ => exact execAll_adds (take_adds (hevent ▸ hopens)) hexec
    | rejected hevent hexec _ hmsg =>
      have hlist := execAll_adds (take_adds (hevent ▸ hopens)) hexec
      unfold ParserContext.yyerror at hmsg
      split at hmsg
      · cases hmsg
        exact hlist
      · cases hmsg
  · have hpass := passes_pass env msgs s
    obtain ⟨hnext, hopens⟩ := neverCloses_flexStep hs s.ctx.active (env.openInclUri s.ctx.executed)
    rw [Prog.gives_lift.mp ht] at hpass
    cases hpass with
    | skipped hevent => exact ih hnext accepted s' heq
    | shifted hevent hexec hverdict =>
      exact (ih hnext accepted s' heq).trans (execAll_adds (take_adds (hevent ▸ hopens)) hexec)

/-! ## The beginnings of the text -/

/-- With only this text left no closing brace comes. -/
def Unclosed (text : List Char) : Prop :=
  ∀ s : Scanner, s.mode = .initial → s.stack = [] → s.text = text → NeverCloses s

/-- The text is read as tokens without a closing brace, and no closing brace comes where it is cut
off. -/
structure Guarded (text : List Char) : Prop where
  lexes : ∃ ts, Lexes text ts ∧ ∀ t ∈ ts, t.kind ≠ .rbrace
  cut : ∀ w, w <+: text → w ≠ text → Unclosed w

theorem unclosed_of_notMem {w : List Char} (hnewline : '\n' ∉ w) (hbrace : '\x7d' ∉ w) :
    Unclosed w := by
  intro s _ hstack htext
  exact .cut ⟨hstack, htext ▸ hnewline, Or.inl (htext ▸ hbrace)⟩

/-- Behind a text whose tokens are known. -/
theorem Unclosed.append {u w : List Char} {ts : List Token} (h : Lexes u ts)
    (hts : ∀ t ∈ ts, t.kind ≠ .rbrace) (hw : Unclosed w) : Unclosed (u ++ w) := by
  intro s hmode hstack htext
  obtain ⟨lineno, hdelivers⟩ := h s w hmode htext
  exact .delivers hdelivers hts (hw _ hmode hstack rfl)

theorem guarded_nil : Guarded [] :=
  ⟨⟨[], lexes_nil, fun _ h => absurd h List.not_mem_nil⟩, fun _ hw hne =>
    absurd (List.prefix_nil.mp hw) hne⟩

theorem Guarded.append {u v : List Char} (hu : Guarded u) (hv : Guarded v) : Guarded (u ++ v) := by
  obtain ⟨ts, hlexes, hts⟩ := hu.lexes
  obtain ⟨us, hlexes', hus⟩ := hv.lexes
  refine ⟨⟨ts ++ us, hlexes.append hlexes', fun t ht =>
    (List.mem_append.mp ht).elim (hts t) (hus t)⟩, fun w hw hne => ?_⟩
  rcases List.prefix_or_prefix_of_prefix hw (List.prefix_append u v) with hwu | ⟨x, rfl⟩
  · by_cases heq : w = u
    · rw [heq, ← List.append_nil u]
      exact .append hlexes hts (unclosed_of_notMem List.not_mem_nil List.not_mem_nil)
    · exact hu.cut w hwu heq
  · refine .append hlexes hts (hv.cut x ((List.prefix_append_right_inj u).mp hw) fun heq => ?_)
    exact hne (by rw [heq])

/-- A line that is cut off has lost its line break. -/
theorem prefix_of_line {w line : List Char} (h : w <+: line ++ ['\n']) (hne : w ≠ line ++ ['\n']) :
    w <+: line := (List.prefix_concat_iff.mp h).resolve_left hne

/-- **A line without a brace.** -/
theorem guarded_plain {line : List Char} {ts : List Token} (hlexes : Lexes (line ++ ['\n']) ts)
    (hts : ∀ t ∈ ts, t.kind ≠ .rbrace) (hnewline : '\n' ∉ line) (hbrace : '\x7d' ∉ line) :
    Guarded (line ++ ['\n']) := by
  refine ⟨⟨ts, hlexes, hts⟩, fun w hw hne => ?_⟩
  have hsub := (prefix_of_line hw hne).subset
  exact unclosed_of_notMem (fun h => hnewline (hsub h)) fun h => hbrace (hsub h)

/-- A rule that delivers a keyword, with the start condition behind it. -/
def Rule.isKeyword (r : Rule) : Bool :=
  match r.action with
  | .token k _ (some next) => k != .rbrace && next.behindKeyword && !r.trail
  | .less k _ next => k != .rbrace && next.behindKeyword
  | _ => false

theorem unclosed_of_pick {w : List Char} {n : Nat} {r : Rule}
    (hpick : pick (rulesOf .initial) w = some (n, r)) (hkeyword : r.isKeyword = true)
    (hnewline : '\n' ∉ w) : Unclosed w := by
  intro s hmode hstack htext
  have hne : s.text ≠ [] := by
    intro hnil
    rw [← htext, hnil] at hpick
    cases hpick
  have hdrop : ∀ m, '\n' ∉ w.drop m := fun m hmem => hnewline (List.mem_of_mem_drop hmem)
  have hstep : ∀ active load, s.flexStep active load =
      { s with text := s.text.drop (r.taken n) }.act active load (s.text.take (r.taken n))
        r.action := fun active load => Scanner.flexStep_at hne (by rw [hmode, htext, hpick])
  unfold Rule.isKeyword at hkeyword
  split at hkeyword
  · rename_i k val next haction
    simp only [Bool.and_eq_true, bne_iff_ne] at hkeyword
    rw [haction, htext] at hstep
    refine .step (fun active load => ?_) fun active load => ?_
    · rw [hstep]
      exact .cut ⟨hstack, hdrop _, Or.inr hkeyword.1.2⟩
    · rw [hstep]
      intro t y heq
      obtain ⟨rfl, -⟩ := Event.token.inj (Option.some.inj heq)
      exact hkeyword.1.1
  · rename_i k m next haction
    simp only [Bool.and_eq_true, bne_iff_ne] at hkeyword
    rw [haction, htext] at hstep
    refine .step (fun active load => ?_) fun active load => ?_
    · rw [hstep]
      refine .cut ⟨hstack, fun hmem => ?_, Or.inr hkeyword.2⟩
      rcases List.mem_append.mp hmem with hmem | hmem
      · exact hnewline (List.mem_of_mem_take (List.mem_of_mem_drop hmem))
      · exact hdrop _ hmem
    · rw [hstep]
      intro t y heq
      obtain ⟨rfl, -⟩ := Event.token.inj (Option.some.inj heq)
      exact hkeyword.1
  · cases hkeyword

/-- **A line with a keyword**, where the rules of the keyword match whatever comes behind it as soon as
there is a brace. -/
theorem guarded_line {kw value : List Char} {rs : List (Pattern × Rule)} {ts : List Token}
    (hlexes : Lexes (kw ++ ' ' :: value ++ ['\n']) ts) (hts : ∀ t ∈ ts, t.kind ≠ .rbrace)
    (hstate : scanState (rulesOf .initial) 0 none (kw ++ [' ']) = (rs, some (kw.length, identRule)))
    (hrs : rs.all (fun x => x.2.isKeyword) = true) (hnewline : '\n' ∉ kw ++ ' ' :: value)
    (hbrace : '\x7d' ∉ kw) (hmatch : ∀ v, v <+: value → '\x7d' ∈ v →
      ∃ p a k, (p, a) ∈ rs ∧ k ≤ v.length ∧ v.take k ∈ p.lang) :
    Guarded (kw ++ ' ' :: value ++ ['\n']) := by
  refine ⟨⟨ts, hlexes, hts⟩, fun w hw hne => ?_⟩
  have hline := prefix_of_line hw hne
  have hnone : '\n' ∉ w := fun h => hnewline (hline.subset h)
  by_cases hmem : '\x7d' ∈ w
  · -- the brace is in the value
    have hsplit : kw ++ ' ' :: value = kw ++ [' '] ++ value := by simp
    rw [hsplit] at hline
    rcases List.prefix_or_prefix_of_prefix hline (List.prefix_append _ value) with hshort | ⟨v, rfl⟩
    · exact absurd (hshort.subset hmem) (by simp [hbrace])
    have hv : '\x7d' ∈ v := by simpa [hbrace] using hmem
    obtain ⟨p, a, k, hp, hk, hlang⟩ := hmatch v ((List.prefix_append_right_inj _).mp hline) hv
    obtain ⟨m, b, hscan, hm⟩ :=
      scan_complete hp (kw ++ [' ']).length (some (kw.length, identRule)) hk hlang
    have hpick : pick (rulesOf .initial) (kw ++ [' '] ++ v) = some (m, b) := by
      rw [pick_append, hstate]
      exact hscan
    refine unclosed_of_pick hpick ?_ hnone
    rcases scan_sound rs (kw ++ [' ']).length (some (kw.length, identRule)) v with
      hbest | ⟨q, b', j, hq, _, _, hsome⟩
    · rw [hscan] at hbest
      obtain ⟨rfl, -⟩ := Prod.mk.inj (Option.some.inj hbest)
      simp at hm
      omega
    · rw [hscan] at hsome
      obtain ⟨-, rfl⟩ := Prod.mk.inj (Option.some.inj hsome)
      exact List.all_eq_true.mp hrs _ hq
  · exact unclosed_of_notMem hnone hmem

/-! ## The lines of the text -/

theorem options_noBrace : optionTable.all (fun r => !r.1.contains .rbrace) = true := by decide

theorem fits_noBrace {o : BootOption} {ts : List Token} (h : Fits optionTable o ts) :
    ∀ t ∈ ts, t.kind ≠ .rbrace := by
  obtain ⟨r, hr, hkinds, -⟩ := h
  have hnone := List.all_eq_true.mp options_noBrace r hr
  rintro t ht hkind
  have hmem : Kind.rbrace ∈ r.1 := hkinds ▸ hkind ▸ List.mem_map_of_mem ht
  simp [hmem] at hnone

theorem lineTokens_noBrace {k : Kind} (hk : k ≠ .rbrace) (str : CStr) :
    ∀ t ∈ lineTokens k str, t.kind ≠ .rbrace := by
  unfold lineTokens
  split
  · exact fun _ h => absurd h List.not_mem_nil
  · simp [hk]

theorem notMem_line {kw value : List Char} {c : Char} (hkw : c ∉ kw) (hc : c ≠ ' ')
    (hvalue : c ∉ value) : c ∉ kw ++ ' ' :: value := by
  simp [hkw, hc, hvalue]

/-- The blanks of a keyword match at once. -/
theorem match_blanks {rs : List (Pattern × Rule)} {a : Rule} (h : (moreBlanks, a) ∈ rs)
    (v : List Char) : ∃ p a k, (p, a) ∈ rs ∧ k ≤ v.length ∧ v.take k ∈ p.lang :=
  ⟨_, a, 0, h, Nat.zero_le _, Language.nil_mem_kstar _⟩

/-- A scheme has no brace. -/
theorem match_scheme {rs : List (Pattern × Rule)} {a : Rule} (h : (.seq moreBlanks uriStart, a) ∈ rs)
    {value v : List Char} (hvalue : IsUri value) (hv : v <+: value) (hbrace : '\x7d' ∈ v) :
    ∃ p a k, (p, a) ∈ rs ∧ k ≤ v.length ∧ v.take k ∈ p.lang := by
  obtain ⟨start, rest, hstart, -, rfl⟩ := hvalue.parts
  have hnone : '\x7d' ∉ start := Pattern.notMem_of_avoids (p := uriStart) rfl hstart
  rcases List.prefix_or_prefix_of_prefix hv (List.prefix_append start rest) with hshort | ⟨w, rfl⟩
  · exact absurd (hshort.subset hbrace) hnone
  · refine ⟨_, a, start.length, h, by simp, ?_⟩
    rw [List.take_left]
    exact ⟨[], Language.nil_mem_kstar _, start, hstart, rfl⟩

theorem guarded_titleLine {str : CStr} (h : IsLine str) :
    Guarded (printIfAvailable "title".toList str) := by
  have hlexes := lexes_titleLine h
  by_cases hne : str = []
  · rw [printIfAvailable, if_pos (Or.inr hne)]
    exact guarded_nil
  · rw [printIfAvailable, if_neg (not_or.mpr ⟨by decide, hne⟩)] at hlexes ⊢
    exact guarded_line hlexes (lineTokens_noBrace (by decide) str) rfl rfl
      (notMem_line (by decide) (by decide) h.newline) (by decide)
      fun v _ _ => match_blanks List.mem_cons_self v

theorem guarded_labelLine {str : CStr} (h : IsLine str) :
    Guarded (printIfAvailable "label".toList str) := by
  have hlexes := lexes_labelLine h
  by_cases hne : str = []
  · rw [printIfAvailable, if_pos (Or.inr hne)]
    exact guarded_nil
  · rw [printIfAvailable, if_neg (not_or.mpr ⟨by decide, hne⟩)] at hlexes ⊢
    exact guarded_line hlexes (lineTokens_noBrace (by decide) str) rfl rfl
      (notMem_line (by decide) (by decide) h.newline) (by decide)
      fun v _ _ => match_blanks List.mem_cons_self v

theorem guarded_field {b : CfgBentry} {f : BentryField} (hok : f.Ok (f.get b))
    (hnewline : '\n' ∉ f.get b) : Guarded (f.line b) := by
  by_cases hne : f.get b = []
  · rw [BentryField.line_of_nil hne]
    exact guarded_nil
  obtain ⟨ts, hlexes, hfits⟩ := lexes_field hok hne
  have hts := fits_noBrace hfits
  rw [BentryField.line_of_ne_nil hne] at hlexes ⊢
  have hnone : '\n' ∉ f.name ++ ' ' :: f.get b :=
    notMem_line (by cases f <;> decide) (by decide) hnewline
  cases f with
  | root | insfile | bootmap =>
    exact guarded_line hlexes hts rfl rfl hnone (by decide)
      fun v hv hbrace => match_scheme List.mem_cons_self (hok.resolve_left hne) hv hbrace
  | kernel | initrd | cmdline | parmfile =>
    exact guarded_line hlexes hts rfl rfl hnone (by decide)
      fun v _ _ => match_blanks List.mem_cons_self v

theorem guarded_fields {b : CfgBentry} {fs : List BentryField}
    (h : ∀ f ∈ fs, f.Ok (f.get b) ∧ '\n' ∉ f.get b) : Guarded (fs.flatMap fun f => f.line b) := by
  induction fs with
  | nil => exact guarded_nil
  | cons f fs ih =>
    obtain ⟨hf, hfs⟩ := List.forall_mem_cons.mp h
    exact (guarded_field hf.1 hf.2).append (ih hfs)

/-- A word on a line of its own. -/
theorem guarded_word {w : List Char} {modes : List Mode} {p : Pattern} {a : Action} {t : Token}
    (hstate : scanState (rulesOf .initial) 0 none (w ++ ['\n']) =
      ([], some (w.length, rule modes p a)))
    (hne : w ≠ []) (hact : ∀ (s : Scanner) active load,
      s.act active load w a = (s, some (.token t (cstr w)))) (ht : t.kind ≠ .rbrace)
    (hnewline : '\n' ∉ w) (hbrace : '\x7d' ∉ w) : Guarded (w ++ ['\n']) :=
  guarded_plain (lexes_wordLine hstate hne hact) (by simpa using ht) hnewline hbrace

theorem guarded_optionLines {b : CfgBentry} (hok : ∀ f ∈ printedFields b.action, f.Ok (f.get b))
    (hnewline : ∀ f ∈ printedFields b.action, '\n' ∉ f.get b) : Guarded (optionLines b) := by
  unfold optionLines
  cases haction : b.action with
  | reboot =>
    exact guarded_word (w := "reboot".toList) (t := ⟨.tReboot, []⟩) rfl (by decide)
      (fun _ _ _ => rfl) (by decide) (by decide) (by decide)
  | halt =>
    exact guarded_word (w := "halt".toList) (t := ⟨.tHalt, []⟩) rfl (by decide)
      (fun _ _ _ => rfl) (by decide) (by decide) (by decide)
  | shell =>
    exact guarded_word (w := "shell".toList) (t := ⟨.tShell, []⟩) rfl (by decide)
      (fun _ _ _ => rfl) (by decide) (by decide) (by decide)
  | exit =>
    exact guarded_word (w := "exit".toList) (t := ⟨.tExit, []⟩) rfl (by decide)
      (fun _ _ _ => rfl) (by decide) (by decide) (by decide)
  | kernelBoot | insfileBoot | bootmapBoot =>
    rw [haction] at hok hnewline
    exact guarded_fields fun f hf => ⟨hok f hf, hnewline f hf⟩

theorem guarded_open : Guarded "boot_entry \x7b\n".toList :=
  @guarded_plain "boot_entry \x7b".toList _ lexes_open (by simp) (by decide) (by decide)

/-! ## The whole text -/

/-- The text without its last line. -/
def printedBody (b : CfgBentry) : CStr :=
  "boot_entry \x7b\n".toList ++ printIfAvailable "title".toList b.title ++
    printIfAvailable "label".toList b.label ++ optionLines b

theorem cfgBentryPrint_body (b : CfgBentry) :
    cfgBentryPrint b = printedBody b ++ ['\x7d'] ++ ['\n'] := by
  rw [cfgBentryPrint_eq, List.append_assoc (printedBody b)]
  rfl

section Whole

variable {b : CfgBentry} {env : Env} {msgs : Messages} {scan : Scanner} {boot : CfgBentry}

theorem guarded_body (hok : PrintedOk b)
    (hnewline : ∀ f ∈ printedFields b.action, '\n' ∉ f.get b) : Guarded (printedBody b) :=
  ((guarded_open.append (guarded_titleLine hok.title)).append (guarded_labelLine hok.label)).append
    (guarded_optionLines hok.fields hnewline)

/-- A text in which no brace closes gives no boot entry. -/
theorem unclosed_not_parsed {text : List Char} (h : Unclosed text) (hmode : scan.mode = .initial)
    (hstack : scan.stack = []) (hnul : nul ∉ text) :
    ¬ Yields (parseSysloadBootEntry env msgs scan text) (.ok (.ok boot)) := by
  intro hparse
  obtain ⟨s, hs, hmem⟩ := accepted_of_yields hparse
  rw [cstr_eq_self hnul] at hs
  have hlist := yyparse_neverCloses (h (scan.restart text) hmode hstack rfl) hs
  rw [hlist] at hmem
  exact absurd hmem List.not_mem_nil

/-- The text is parsed without its last line break too. -/
theorem print_accepted_unterminated (env : Env) (msgs : Messages) (hmode : scan.mode = .initial)
    (hstack : scan.stack = []) (hok : PrintedOk b) (htitle : b.title ≠ [])
    (hne : printedOptions b ≠ []) :
    Yields (parseSysloadBootEntry env msgs scan (printedBody b ++ ['\x7d']))
      (.ok (.ok (reprinted b))) := by
  obtain ⟨us, hlexes, hus⟩ := lexes_optionLines hok.fields
  have hbody : Lexes (printedBody b) ([⟨.tBootEntry, []⟩, ⟨.lbrace, []⟩] ++
      lineTokens .tTitle b.title ++ lineTokens .tLabel b.label ++ us) :=
    ((lexes_open.append (lexes_titleLine hok.title)).append (lexes_labelLine hok.label)).append hlexes
  obtain ⟨lineno, hdelivers⟩ := hbody (scan.restart (printedBody b ++ ['\x7d'])) ['\x7d'] hmode rfl
  have hbrace : ∀ active load,
      ({ scan with lineno := lineno, text := ['\x7d'] } : Scanner).flexStep active load =
        ({ scan with lineno := lineno, text := [] }, some (.token ⟨.rbrace, []⟩ ['\x7d'])) := by
    intro active load
    have hstate : ({ scan with lineno := lineno, text := ['\x7d'] } : Scanner).mode = .initial :=
      hmode
    rw [Scanner.flexStep_rule (w := ['\x7d']) hstate (List.cons_ne_nil _ _) rfl rfl]
    rfl
  have htokens := hdelivers.trans (.token hbrace (.refl _))
  have heof : ∀ active load, ({ scan with lineno := lineno, text := [] } : Scanner).flexStep active
      load = ({ scan with lineno := lineno, text := [] }, some .eof) := by
    intro active load
    unfold Scanner.flexStep
    rw [hstack]
  have hend := @yyparse_accept env msgs ⟨{ scan with lineno := lineno, text := [] },
    ⟨.list .deflist true, [], []⟩, { ParserContext.init none with
      toplevel := CfgToplevel.init.addBentry (reprinted b) }⟩ _ (heof _ _) rfl
  have hfeed := feed_config (printedConfig_reads htitle hne hus) (by simp [printedConfig])
  have hparse : (yyparse env msgs (.start scan none (printedBody b ++ ['\x7d']))).Gives _ :=
    (yyparse_delivers htokens hfeed (exec_printed env none)).mpr hend
  have hnul : nul ∉ printedBody b ++ ['\x7d'] := by
    have hprint := print_nul hok
    rw [cfgBentryPrint_body] at hprint
    exact fun hmem => hprint (List.mem_append_left _ hmem)
  rw [← cstr_eq_self hnul] at hparse
  exact bootEntry_accepted hparse rfl

/-- Where the text can be cut off. -/
theorem beginning_cases {p : List Char} (h : p <+: cfgBentryPrint b) :
    p <+: printedBody b ∨ p = printedBody b ++ ['\x7d'] ∨ p = cfgBentryPrint b := by
  rw [cfgBentryPrint_body] at h ⊢
  rcases List.prefix_concat_iff.mp h with h | h
  · exact Or.inr (Or.inr h)
  · exact (List.prefix_concat_iff.mp h).symm.imp_right Or.inl

/-- **What is read from a beginning of the text** is the entry. -/
theorem beginning_parsed {p : List Char} (hok : PrintedOk b) (htitle : b.title ≠ [])
    (hne : printedOptions b ≠ []) (hnewline : ∀ f ∈ printedFields b.action, '\n' ∉ f.get b)
    (hmode : scan.mode = .initial) (hstack : scan.stack = []) (hp : p <+: cfgBentryPrint b)
    (h : Yields (parseSysloadBootEntry env msgs scan p) (.ok (.ok boot))) :
    (p = printedBody b ++ ['\x7d'] ∨ p = cfgBentryPrint b) ∧ boot = reprinted b := by
  rcases beginning_cases hp with hbody | rfl | rfl
  · have hguarded := guarded_body hok hnewline
    have hunclosed : Unclosed p := by
      by_cases heq : p = printedBody b
      · obtain ⟨ts, hlexes, hts⟩ := hguarded.lexes
        rw [heq, ← List.append_nil (printedBody b)]
        exact .append hlexes hts (unclosed_of_notMem List.not_mem_nil List.not_mem_nil)
      · exact hguarded.cut p hbody heq
    have hnul : nul ∉ p := fun hmem => print_nul hok (hp.subset hmem)
    exact absurd h (unclosed_not_parsed hunclosed hmode hstack hnul)
  · have haccepted := @print_accepted_unterminated b scan env msgs hmode hstack hok htitle hne
    exact ⟨Or.inl rfl, Except.ok.inj (Except.ok.inj (h.unique haccepted))⟩
  · have haccepted := print_accepted env msgs hmode hstack hok htitle hne
    exact ⟨Or.inr rfl, Except.ok.inj (Except.ok.inj (h.unique haccepted))⟩

/-- **Of the beginnings of the text** only the whole text gives a boot entry, with its last line break
or without it. -/
theorem truncated_never_parsed {p : List Char} (hok : PrintedOk b) (htitle : b.title ≠ [])
    (hne : printedOptions b ≠ []) (hnewline : ∀ f ∈ printedFields b.action, '\n' ∉ f.get b)
    (hmode : scan.mode = .initial) (hstack : scan.stack = []) (hp : p <+: cfgBentryPrint b) :
    Yields (parseSysloadBootEntry env msgs scan p) (.ok (.ok boot)) ↔
      (p ++ ['\n'] = cfgBentryPrint b ∨ p = cfgBentryPrint b) ∧ boot = reprinted b := by
  constructor
  · intro h
    obtain ⟨hwhole, hboot⟩ := beginning_parsed hok htitle hne hnewline hmode hstack hp h
    refine ⟨hwhole.imp_left fun heq => ?_, hboot⟩
    rw [heq, cfgBentryPrint_body]
  · rintro ⟨hwhole | rfl, rfl⟩
    · rw [cfgBentryPrint_body, List.append_cancel_right_eq] at hwhole
      rw [hwhole]
      exact print_accepted_unterminated env msgs hmode hstack hok htitle hne
    · exact print_accepted env msgs hmode hstack hok htitle hne

end Whole

/-- A line break within a URI spoils it: here a brace begins a line, and the text is cut off behind
it. -/
example : Yields (parseSysloadBootEntry Answers.blank.env .short .fresh
    "boot_entry \x7b\ntitle a\nroot file://(b\n\x7d".toList)
    (.ok (.ok { CfgBentry.init with title := ['a'], root := "file://b".toList })) :=
  ⟨_, ⟨60, rfl⟩, rfl⟩

theorem kernelBentry_printedOk : PrintedOk (kernelBentry ['a']) := by
  have hmem : kernelBentry ['a'] ∈ (kernelParsed ['a']).config.bentryList := List.mem_cons_self
  have hbentry : BentryOk False (kernelBentry ['a']) :=
    parseSysload_bentryOk (fun h => h.elim) (fun h => h.elim) kernelText_parsed hmem
  have hload : NulFree Answers.blank.env := fun _ _ _ h => by cases h
  have hfile : ∀ text, Except.ok (ε := CStr) (kernelText ['a']) = .ok text → nul ∉ text := by
    rintro text h
    cases h
    decide
  exact ⟨hbentry.title, hbentry.label, fun f _ =>
    parseSysload_fields hload rfl hfile kernelText_parsed hmem f⟩

theorem truncated_never_parsed_kernelText :
    Yields (parseSysloadBootEntry Answers.blank.env .short .fresh
      "boot_entry \x7b\ntitle a\nkernel k\n\x7d".toList) (.ok (.ok (kernelBentry ['a']))) ∧
    ¬ Yields (parseSysloadBootEntry Answers.blank.env .short .fresh
      "boot_entry \x7b\ntitle a\nkernel k\n".toList) (.ok (.ok (kernelBentry ['a']))) := by
  have hnewline : ∀ f ∈ printedFields (kernelBentry ['a']).action,
      '\n' ∉ f.get (kernelBentry ['a']) := fun f _ => by cases f <;> decide
  have htitle : (kernelBentry ['a']).title ≠ [] := by decide
  have hne : printedOptions (kernelBentry ['a']) ≠ [] := by simp [printedOptions, kernelBentry,
    CfgBentry.init, BentryField.all, BentryField.get]
  refine ⟨(truncated_never_parsed kernelBentry_printedOk htitle hne hnewline rfl rfl ?_).mpr
    ⟨Or.inl rfl, rfl⟩, fun h => ?_⟩
  · exact ⟨['\n'], rfl⟩
  · have hparsed := (truncated_never_parsed kernelBentry_printedOk htitle hne hnewline rfl rfl
      ⟨['\x7d', '\n'], rfl⟩).mp h
    exact absurd hparsed.1 (by decide)

end Sysload.Parser
