import Sysload.Parser.Termination

/-!
# The menu of a secondary sysload

A sysload that is started for one user interface only (`only_ui`) parses the same configuration again
and must come to the same menu, without setting anything up. The two parses are run side by side: the
scanner and the control are always the same, and the parser contexts agree in everything the menu is
made of (`Beside`). This needs that the configuration is no kernel argument, whose actions do not look
at `only_ui`; the control never gets to them from a definition (`take_menu`).

Source: `src/core/sysload.conf.y`, its tests of `parser_uimode`; `src/core/parser_sysload.c`,
`parse_sysload`.
-/

namespace Sysload.Parser

open Comp (Pass)

/-! ## The actions of definitions -/

/-- An action of `knet` or `kset`. -/
def Act.kernel : Act → Bool
  | .ksetSetup _ => true
  | .ksetMod _ => true
  | .netrest _ => true
  | .netEnable => true
  | _ => false

/-- A place within `knet` or `kset`. -/
def Place.kernel : Place → Bool
  | .knetRest _ _ => true
  | .finished => true
  | .ksetParam => true
  | .ksetRest => true
  | .netRest _ _ _ => true
  | .netClose _ => true
  | _ => false

/-- The token begins a kernel argument. -/
def Kind.kernel : Kind → Bool
  | .tKnet => true
  | .tKset => true
  | _ => false

/-- The place that a row leads to is one of definitions. -/
def Next.menu : Next → Prop
  | .goto p => p.kernel = false ∧ p ≠ .input
  | .push _ p => p.kernel = false ∧ p ≠ .input
  | .pop => True

/-- The parser is in a definition, or in front of the first one. -/
structure Control.Menu (c : Control) : Prop where
  place : c.place.kernel = false
  stack : c.place = .input → c.stack = []
  read : c.place = .input → ∀ t, c.read.head? = some t → t.kind.kernel = false

/-- What a row does, without actions of kernel arguments. -/
def Row.Menu (r : Row) : Prop :=
  ∀ v, (∀ act ∈ (r.effect v).1, act.kernel = false) ∧ (r.effect v).2.menu

theorem itemRows_menu {α : Type} (l : Level) {f : α → Act}
    {table : List (List Kind × ((Nat → CStr) → α))}
    (hf : ∀ r ∈ table, ∀ v, (f (r.2 v)).kernel = false) : ∀ r ∈ itemRows l f table, r.Menu := by
  intro r hr v
  obtain ⟨row, hrow, rfl⟩ := List.mem_map.mp hr
  refine ⟨fun act hact => ?_, rfl, by simp⟩
  rw [List.mem_singleton.mp hact]
  exact hf row hrow v

theorem globaldefTable_menu : ∀ r ∈ globaldefTable, ∀ v, (id (r.2 v)).kernel = false := by
  intro r hr v
  simp only [globaldefTable, List.mem_cons, List.not_mem_nil, or_false] at hr
  rcases hr with rfl | rfl | rfl | rfl | rfl | rfl | rfl | rfl | rfl <;> rfl

theorem systemRow_menu (l : Level) : (systemRow l).Menu :=
  fun _ => ⟨fun _ h => absurd h List.not_mem_nil, rfl, by simp⟩

theorem closeRow_menu : closeRow.Menu := fun _ => ⟨fun _ h => absurd h List.not_mem_nil, trivial⟩

theorem elementRows_menu (l : Level) : ∀ r ∈ elementRows l, r.Menu := by
  cases l with
  | deflist =>
    intro r hr
    rcases List.mem_append.mp hr with h | h
    · exact itemRows_menu .deflist globaldefTable_menu r h
    · simp only [List.mem_cons, List.not_mem_nil, or_false] at h
      rcases h with rfl | rfl | rfl | rfl
      · exact fun _ => ⟨fun _ h => absurd h List.not_mem_nil, rfl, by simp⟩
      · exact fun _ => ⟨fun _ h => absurd h List.not_mem_nil, rfl, by simp⟩
      · exact fun _ => ⟨fun _ h => absurd h List.not_mem_nil, rfl, by simp⟩
      · exact systemRow_menu .deflist
  | modparamlist =>
    intro r hr
    rcases List.mem_append.mp hr with h | h
    · exact itemRows_menu .modparamlist (fun _ _ _ => rfl) r h
    · rw [List.mem_singleton.mp h]
      exact systemRow_menu _
  | netparamlist =>
    intro r hr
    rcases List.mem_append.mp hr with h | h
    · exact itemRows_menu .netparamlist (fun _ _ _ => rfl) r h
    · rw [List.mem_singleton.mp h]
      exact systemRow_menu _
  | optionlist =>
    intro r hr
    rcases List.mem_append.mp hr with h | h
    · exact itemRows_menu .optionlist (fun _ _ _ => rfl) r h
    · rw [List.mem_singleton.mp h]
      exact systemRow_menu _

theorem systemidRows_menu (l : Level) (nots : Nat) (acc : Option SystemList) :
    ∀ r ∈ systemidRows l nots acc, r.Menu := by
  intro r hr v
  obtain ⟨row, _, rfl⟩ := List.mem_map.mp hr
  exact ⟨fun _ h => absurd h List.not_mem_nil, rfl, by simp⟩

/-- **The rows of a definition have no actions of kernel arguments.** -/
theorem rows_menu {p : Place} (hp : p.kernel = false) {r : Row} (hr : r ∈ rows p)
    (hinput : p = .input → ∀ k, r.kinds.head? = some k → k.kernel = false) : r.Menu := by
  cases p with
  | input =>
    rcases List.mem_append.mp hr with h | h
    · exact elementRows_menu .deflist r h
    · simp only [List.mem_cons, List.not_mem_nil, or_false] at h
      rcases h with rfl | rfl | rfl
      · exact absurd (hinput rfl _ rfl) (by simp [Kind.kernel])
      · exact absurd (hinput rfl _ rfl) (by simp [Kind.kernel])
      · exact absurd (hinput rfl _ rfl) (by simp [Kind.kernel])
  | list l nonempty =>
    have hcases : r = closeRow ∨ r ∈ elementRows l := by
      cases nonempty with
      | true => exact List.mem_cons.mp hr
      | false =>
        cases l with
        | deflist => exact List.mem_cons.mp hr
        | modparamlist => exact Or.inr hr
        | netparamlist => exact Or.inr hr
        | optionlist => exact Or.inr hr
    rcases hcases with rfl | h
    · exact closeRow_menu
    · exact elementRows_menu l r h
  | title =>
    rw [List.mem_singleton.mp hr]
    exact fun _ => ⟨by simp [Act.kernel], rfl, by simp⟩
  | label =>
    rw [List.mem_singleton.mp hr]
    exact fun _ => ⟨by simp [Act.kernel], rfl, by simp⟩
  | systemlist l nots acc =>
    rcases acc with _ | acc
    · rcases List.mem_cons.mp hr with rfl | h
      · exact fun _ => ⟨fun _ h => absurd h List.not_mem_nil, rfl, by simp⟩
      · exact systemidRows_menu _ _ _ r h
    · cases nots with
      | zero => exact systemidRows_menu _ _ _ r hr
      | succ nots =>
        rcases List.mem_cons.mp hr with rfl | h
        · exact fun _ => ⟨fun _ h => absurd h List.not_mem_nil, rfl, by simp⟩
        · exact systemidRows_menu _ _ _ r h
  | brace l =>
    rw [List.mem_singleton.mp hr]
    exact fun _ => ⟨fun _ h => absurd h List.not_mem_nil, rfl, by simp⟩
  | _ => cases hp

/-- The control behind a row. -/
theorem apply_menu {next : Next} (hnext : next.menu) (stack : List Closer) {acts : List Act}
    (hacts : ∀ act ∈ acts, act.kernel = false) :
    (∀ act ∈ (next.apply stack acts).1, act.kernel = false) ∧
      ∀ c', (next.apply stack acts).2 = some c' → c'.Menu ∧ c' ≠ .start := by
  cases next with
  | goto p =>
    refine ⟨hacts, fun c' h => ?_⟩
    cases h
    exact ⟨⟨hnext.1, fun h => absurd h hnext.2, fun h => absurd h hnext.2⟩,
      fun h => hnext.2 (congrArg Control.place h)⟩
  | push k p =>
    refine ⟨hacts, fun c' h => ?_⟩
    cases h
    exact ⟨⟨hnext.1, fun h => absurd h hnext.2, fun h => absurd h hnext.2⟩,
      fun h => hnext.2 (congrArg Control.place h)⟩
  | pop =>
    cases stack with
    | nil => exact ⟨hacts, fun c' h => by cases h⟩
    | cons k stack =>
      constructor
      · intro act hact
        rcases List.mem_append.mp hact with h | h
        · exact hacts act h
        · rw [List.mem_singleton.mp h]
          cases k <;> rfl
      · intro c' h
        cases h
        exact ⟨⟨rfl, fun h => (by cases h), fun h => (by cases h)⟩, fun h => by cases h⟩

theorem advance_menu {c : Control} {t : Token} (hc : c.Menu)
    (ht : c.place = .input → c.read = [] → t.kind.kernel = false) :
    (∀ act ∈ (c.advance t).1, act.kernel = false) ∧
      ∀ c', (c.advance t).2 = some c' → c'.Menu ∧ c' ≠ .start := by
  have hhead : c.place = .input → ∀ u, (c.read ++ [t]).head? = some u → u.kind.kernel = false := by
    intro hinput u hu
    cases hread : c.read with
    | nil =>
      rw [hread] at hu
      cases hu
      exact ht hinput hread
    | cons v vs =>
      rw [hread] at hu
      exact hc.read hinput u (by rw [hread]; exact hu)
  unfold Control.advance
  cases hfind : (rows c.place).find? (·.fits (c.read ++ [t])) with
  | none =>
    simp only [hfind]
    split
    · refine ⟨fun _ h => absurd h List.not_mem_nil, fun c' h => ?_⟩
      cases h
      refine ⟨⟨hc.place, hc.stack, hhead⟩, fun h => ?_⟩
      exact absurd (congrArg Control.read h) (by simp [Control.start])
    · exact ⟨fun _ h => absurd h List.not_mem_nil, fun c' h => by cases h⟩
  | some r =>
    simp only [hfind]
    have hmem := List.mem_of_find?_eq_some hfind
    have hfits := List.find?_some hfind
    have hkinds : r.kinds = (c.read ++ [t]).map Token.kind := of_decide_eq_true hfits
    have hrow := rows_menu hc.place hmem fun hinput k hk => by
      rw [hkinds, List.head?_map] at hk
      obtain ⟨u, hu, rfl⟩ := Option.map_eq_some_iff.mp hk
      exact hhead hinput u hu
    obtain ⟨hacts, hnext⟩ := hrow (dollar ((c.read ++ [t]).map Token.val))
    exact apply_menu hnext c.stack hacts

/-- A default reduction within definitions. -/
theorem reduction_menu {p p' : Place} {acts : List Act} (hp : p.kernel = false)
    (h : p.reduction = some (acts, p')) :
    (∀ act ∈ acts, act.kernel = false) ∧ p'.kernel = false ∧ p' ≠ .input := by
  cases p with
  | label =>
    cases h
    exact ⟨fun _ h => absurd h List.not_mem_nil, rfl, by simp⟩
  | systemlist l nots acc =>
    cases nots with
    | zero =>
      cases acc with
      | none => cases h
      | some acc =>
        cases h
        exact ⟨by simp [Act.kernel], rfl, by simp⟩
    | succ nots => cases h
  | knetRest ident addrs => cases hp
  | netRest mode ident addrs => cases hp
  | _ => cases h

theorem shift_menu {c : Control} {t : Token} (hc : c.Menu)
    (ht : c = .start → t.kind.kernel = false) :
    (∀ act ∈ (c.shift t).1, act.kernel = false) ∧
      ∀ c', (c.shift t).2 = some c' → c'.Menu ∧ c' ≠ .start := by
  have hinput : c.place = .input → c.read = [] → t.kind.kernel = false := by
    intro hplace hread
    refine ht ?_
    obtain ⟨place, stack, read⟩ := c
    obtain rfl : stack = [] := hc.stack hplace
    rw [show place = .input from hplace, show read = [] from hread]
    rfl
  unfold Control.shift
  cases hreducible : c.reducible t with
  | none => exact advance_menu hc hinput
  | some red =>
    obtain ⟨acts, p⟩ := red
    have hreduction : c.place.reduction = some (acts, p) := by
      unfold Control.reducible at hreducible
      split at hreducible
      · exact hreducible
      · cases hreducible
    obtain ⟨hacts, hp, hne⟩ := reduction_menu hc.place hreduction
    obtain ⟨hacts', hnext⟩ := @advance_menu { c with place := p } t
      ⟨hp, fun h => absurd h hne, fun h => absurd h hne⟩ (fun h => absurd h hne)
    refine ⟨fun act hact => ?_, hnext⟩
    exact (List.mem_append.mp hact).elim (hacts act) (hacts' act)

/-- **What is done at an event within definitions.** -/
theorem take_menu {c : Control} {e : Event} (hc : c.Menu)
    (he : c = .start → ∀ k, e.kind = some k → k.kernel = false) :
    (∀ act ∈ (c.take e).1, act.kernel = false) ∧
      ∀ c', (c.take e).2 = .shifted c' → c'.Menu ∧ c' ≠ .start := by
  cases e with
  | token t yytext =>
    obtain ⟨hacts, hnext⟩ := shift_menu hc fun h => he h t.kind rfl
    unfold Control.take
    cases hshift : (c.shift t).2 with
    | none =>
      simp only [hshift]
      exact ⟨hacts, fun c' h => by cases h⟩
    | some c' =>
      simp only [hshift]
      refine ⟨hacts, fun c'' h => ?_⟩
      cases h
      exact hnext c' hshift
  | eof =>
    refine ⟨fun act hact => ?_, fun c' h => absurd h (c.take_eof c')⟩
    have hact : act ∈ c.finish.1 := hact
    unfold Control.finish at hact
    split at hact
    · split at hact
      · rename_i acts p hreduction
        exact (reduction_menu hc.place hreduction).1 act hact
      · exact absurd hact List.not_mem_nil
    · exact absurd hact List.not_mem_nil

/-! ## Two contexts -/

/-- The contexts of a parse for all user interfaces and of one for a single one. -/
structure Beside (c c' : ParserContext) : Prop where
  errmsg : c'.errmsg = c.errmsg
  bootDefault : c'.bootDefault = c.bootDefault
  depth : c'.systemDepth = c.systemDepth
  firstInactive : c'.systemFirstInactive = c.systemFirstInactive
  bentry : c'.bentry = c.bentry
  default : c'.toplevel.bootDefault = c.toplevel.bootDefault
  password : c'.toplevel.password = c.toplevel.password
  bentryList : c'.toplevel.bentryList = c.toplevel.bentryList
  args : c.args = some []
  onlyUi : ∃ ui, c'.args = some ui ∧ ui ≠ []
  executed : c'.executed = []
  timeout : c'.toplevel.timeout = 0

namespace Beside

variable {c c' : ParserContext}

theorem init {ui : CStr} (hui : ui ≠ []) : Beside (.init (some [])) (.init (some ui)) :=
  ⟨rfl, rfl, rfl, rfl, rfl, rfl, rfl, rfl, rfl, ⟨ui, rfl, hui⟩, rfl, rfl⟩

theorem active (h : Beside c c') : c'.active = c.active := by
  unfold ParserContext.active
  rw [h.depth, h.firstInactive]

theorem uimode_left (h : Beside c c') : c.uimode = .ok none := by
  unfold ParserContext.uimode
  rw [h.args]
  rfl

theorem uimode_right (h : Beside c c') : ∃ ui, c'.uimode = .ok (some ui) := by
  obtain ⟨ui, hargs, hui⟩ := h.onlyUi
  refine ⟨ui, ?_⟩
  unfold ParserContext.uimode
  simp [hargs, hui]

theorem enabled_left (h : Beside c c') : c.enabled = .ok c.active := by
  simp [ParserContext.enabled, h.uimode_left]

theorem enabled_right (h : Beside c c') : c'.enabled = .ok false := by
  obtain ⟨ui, hui⟩ := h.uimode_right
  simp [ParserContext.enabled, hui]

end Beside

theorem Beside.enterSystem {c c' : ParserContext} (h : Beside c c') (b : Bool) :
    Beside (c.enterSystem b) (c'.enterSystem b) := by
  unfold ParserContext.enterSystem
  dsimp only
  have hactive : ParserContext.active { c' with systemDepth := c'.systemDepth + 1 } =
      ParserContext.active { c with systemDepth := c.systemDepth + 1 } := by
    unfold ParserContext.active
    rw [h.depth, h.firstInactive]
  have hdepth := congrArg (· + 1) h.depth
  rw [hactive]
  split
  · exact { h with depth := hdepth, firstInactive := hdepth }
  · exact { h with depth := hdepth }

theorem Beside.exitSystem {c c' : ParserContext} (h : Beside c c') :
    Beside c.exitSystem c'.exitSystem := by
  have hdepth := congrArg (· - 1) h.depth
  unfold ParserContext.exitSystem
  by_cases hfirst : c.systemFirstInactive = c.systemDepth
  · have hfirst' : c'.systemFirstInactive = c'.systemDepth := by
      rw [h.firstInactive, h.depth, hfirst]
    rw [if_pos hfirst, if_pos hfirst']
    exact { h with depth := hdepth, firstInactive := rfl }
  · have hfirst' : ¬ c'.systemFirstInactive = c'.systemDepth := by
      rwa [h.firstInactive, h.depth]
    rw [if_neg hfirst, if_neg hfirst']
    exact { h with depth := hdepth }

/-- What is done in an active section only. -/
theorem Beside.ite {c c' d d' e e' : ParserContext} (h : Beside c c') (hd : Beside d d')
    (he : Beside e e') : Beside (if c.active then d else e) (if c'.active then d' else e') := by
  rw [h.active]
  by_cases hactive : c.active = true
  · rwa [if_pos hactive, if_pos hactive]
  · rwa [if_neg hactive, if_neg hactive]

/-- What is done in an active section unless there is only one user interface. -/
theorem Beside.ite_left {c d e d' : ParserContext} (hd : Beside d d') (he : Beside e d') :
    Beside (if c.active then d else e) d' := by
  by_cases hactive : c.active = true
  · rwa [if_pos hactive]
  · rwa [if_neg hactive]

/-- Two actions succeed side by side. -/
def BothBeside (x x' : Except Stop ParserContext) : Prop :=
  ∃ d d', x = .ok d ∧ x' = .ok d' ∧ Beside d d'

/-- What is only done for all user interfaces. -/
theorem Beside.guard {c c' d e d' e' : ParserContext} (h : Beside c c') (hd : Beside d e')
    (he : Beside e e') :
    BothBeside (do if ← c.enabled then pure d else pure e)
      (do if ← c'.enabled then pure d' else pure e') := by
  refine ⟨if c.active then d else e, e', ?_, ?_, Beside.ite_left hd he⟩
  · rw [h.enabled_left]
    by_cases hactive : c.active = true
    · rw [if_pos hactive]
      exact if_pos hactive
    · rw [if_neg hactive]
      exact if_neg hactive
  · rw [h.enabled_right]
    rfl

/-- What is done with a user interface in an active section. -/
theorem Beside.guardUi {c c' : ParserContext} (h : Beside c c')
    {f f' : Option CStr → Except Stop ParserContext}
    (hf : ∀ ui, BothBeside (f none) (f' (some ui))) :
    BothBeside (if c.active then c.uimode >>= f else .ok c)
      (if c'.active then c'.uimode >>= f' else .ok c') := by
  obtain ⟨ui, hui⟩ := h.uimode_right
  rw [h.active, h.uimode_left, hui]
  by_cases hactive : c.active = true
  · rw [if_pos hactive, if_pos hactive]
    exact hf ui
  · rw [if_neg hactive, if_neg hactive]
    exact ⟨c, c', rfl, rfl, h⟩

/-- A timeout stays 0 with a single user interface. -/
theorem Beside.timeout_action (a : Answers) {c c' : ParserContext} (h : Beside c c')
    (number : CStr) :
    BothBeside (exec a.env c (.timeout number)) (exec a.env c' (.timeout number)) := by
  obtain ⟨ui, hui⟩ := h.uimode_right
  let d' := { c' with toplevel := { c'.toplevel with timeout := 0 } }
  have hright : exec a.env c' (.timeout number) = .ok d' := by
    rw [exec, hui]
    rfl
  by_cases hactive : c.active = true
  · refine ⟨{ c with toplevel := { c.toplevel with
      timeout := (scanInt number).getD c.toplevel.timeout } }, d', ?_, hright,
      { h with timeout := rfl }⟩
    rw [exec, h.uimode_left]
    exact if_neg (by simp [hactive])
  · refine ⟨{ c with toplevel := { c.toplevel with timeout := 0 } }, d', ?_, hright,
      { h with timeout := rfl }⟩
    rw [exec, h.uimode_left]
    exact if_pos (by simp [hactive])

/-- A boot entry is added to both. -/
theorem Beside.bootentry_action (a : Answers) {c c' : ParserContext} (h : Beside c c') :
    BothBeside (exec a.env c .bootentry) (exec a.env c' .bootentry) := by
  refine ⟨_, _, rfl, rfl, ?_⟩
  rw [h.active]
  by_cases hactive : c.active = true
  · rw [if_pos hactive, if_pos hactive]
    refine { h with bentry := rfl, bentryList := ?_ }
    show c'.toplevel.bentryList ++ [c'.bentry] = c.toplevel.bentryList ++ [c.bentry]
    rw [h.bentryList, h.bentry]
  · rw [if_neg hactive, if_neg hactive]
    exact { h with bentry := rfl }

/-- **An action of a definition does to the menu what it does when nothing is set up.** -/
theorem exec_beside (a : Answers) {c c' : ParserContext} (h : Beside c c') {act : Act}
    (hact : act.kernel = false) : BothBeside (exec a.env c act) (exec a.env c' act) := by
  cases act with
  | bootDefault str => exact ⟨_, _, rfl, rfl, h.ite { h with bootDefault := rfl } h⟩
  | timeout number => exact h.timeout_action a number
  | password str => exact ⟨_, _, rfl, rfl, h.ite { h with password := rfl } h⟩
  | setupModule => exact h.guard { h with } { h with }
  | modparam p => exact ⟨_, _, rfl, rfl, h.ite { h with } h⟩
  | setup d => exact h.guard { h with } h
  | network => exact h.guard { h with } { h with }
  | netparam p => exact ⟨_, _, rfl, rfl, h.ite { h with } h⟩
  | userinterface ident str => exact h.guardUi fun ui => ⟨_, _, rfl, rfl, { h with }⟩
  | userinterfaceSsh ident str =>
    refine h.guardUi fun ui => ?_
    by_cases hident : ui = ident
    · exact ⟨_, _, rfl, if_pos hident, { h with }⟩
    · exact ⟨_, _, rfl, if_neg hident, { h with }⟩
  | exec str => exact h.guard { h with } h
  | bootentry => exact h.bootentry_action a
  | title str =>
    exact ⟨_, _, rfl, rfl, { h with bentry := congrArg ({ · with title := str }) h.bentry }⟩
  | label str =>
    exact ⟨_, _, rfl, rfl, { h with bentry := congrArg ({ · with label := str }) h.bentry }⟩
  | option o => exact ⟨_, _, rfl, rfl, h.ite { h with bentry := congrArg o.set h.bentry } h⟩
  | enterSystem l =>
    refine ⟨_, _, rfl, rfl, ?_⟩
    rw [matches_answers a l c.executed c'.executed]
    exact h.enterSystem _
  | exitSystem => exact ⟨_, _, rfl, rfl, h.exitSystem⟩
  | ksetSetup d => cases hact
  | ksetMod ident => cases hact
  | netrest p => cases hact
  | netEnable => cases hact

theorem execAll_beside (a : Answers) {acts : List Act} {c c' : ParserContext} (h : Beside c c')
    (hacts : ∀ act ∈ acts, act.kernel = false) :
    BothBeside (execAll a.env acts c) (execAll a.env acts c') := by
  induction acts generalizing c c' with
  | nil => exact ⟨c, c', rfl, rfl, h⟩
  | cons act acts ih =>
    obtain ⟨d, d', hd, hd', hbeside⟩ := exec_beside a h (hacts act List.mem_cons_self)
    rw [execAll_cons, execAll_cons, hd, hd']
    exact ih hbeside fun act h => hacts act (List.mem_cons_of_mem _ h)

/-! ## Two parses -/

/-- `yylex` alone: the next event. -/
def yylex (active : Bool) (load : CStr → Option (List Char)) (s : Scanner) : Comp (Scanner × Event) :=
  Comp.loop (fun s => pure (match (s.flexStep active load).2 with
    | none => .next (s.flexStep active load).1
    | some e => .done ((s.flexStep active load).1, e))) s

theorem yylex_skip {active : Bool} {load : CStr → Option (List Char)} {s : Scanner}
    (h : (s.flexStep active load).2 = none) {r : Scanner × Event}
    (hr : (yylex active load (s.flexStep active load).1).Returns r) :
    (yylex active load s).Returns r := by
  refine Comp.loop_returns_iff.mpr (Or.inr ⟨(s.flexStep active load).1, ?_, hr⟩)
  rw [h]
  exact Comp.returns_pure.mpr rfl

theorem yylex_event {active : Bool} {load : CStr → Option (List Char)} {s : Scanner} {e : Event}
    (h : (s.flexStep active load).2 = some e) :
    (yylex active load s).Returns ((s.flexStep active load).1, e) := by
  refine Comp.loop_returns_iff.mpr (Or.inl ?_)
  rw [h]
  exact Comp.returns_pure.mpr rfl

/-- The text in front of the scanner is no kernel argument: it does not begin with `knet` or
`kset`. -/
def DefinitionList (load : CStr → Option (List Char)) (s : Scanner) : Prop :=
  ∀ s' e, (yylex true load s).Returns (s', e) → ∀ k, e.kind = some k → k.kernel = false

section Twins

variable (a : Answers) (msgs : Messages)

/-- The two parses after the same events. -/
structure Twins (s t : Parse) : Prop where
  scan : t.scan = s.scan
  control : t.control = s.control
  ctx : Beside s.ctx t.ctx
  menu : s.control.Menu
  first : s.control = .start →
    s.ctx.active = true ∧ DefinitionList (a.env.openInclUri []) s.scan

/-- The two parses end alike. -/
def EndTwins : Except Stop (Bool × Parse) → Except Stop (Bool × Parse) → Prop
  | .ok (accepted, s), .ok (accepted', t) =>
    accepted' = accepted ∧ t.scan = s.scan ∧ Beside s.ctx t.ctx
  | .error stop, .error stop' => stop' = stop
  | _, _ => False

variable {a}

theorem Twins.flexStep {s t : Parse} (h : Twins a s t) : t.flexStep a.env = s.flexStep a.env := by
  unfold Parse.flexStep
  rw [h.scan, h.ctx.active]
  rfl

theorem Twins.flexStep_start {s t : Parse} (h : Twins a s t) (hstart : s.control = .start) :
    s.flexStep a.env = s.scan.flexStep true (a.env.openInclUri []) := by
  unfold Parse.flexStep
  rw [(h.first hstart).1]
  rfl

/-- No kernel argument begins. -/
theorem Twins.kind {s t : Parse} (h : Twins a s t) {e : Event}
    (hevent : (s.flexStep a.env).2 = some e) (hstart : s.control = .start) (k : Kind)
    (hk : e.kind = some k) : k.kernel = false := by
  rw [h.flexStep_start hstart] at hevent
  exact (h.first hstart).2 _ e (yylex_event hevent) k hk

/-- The error messages are the same. -/
theorem Beside.yyerror {c c' : ParserContext} (h : Beside c c') (msg yytext : CStr) (lineno : Nat) :
    (∃ d d', c.yyerror msg yytext lineno = .ok d ∧ c'.yyerror msg yytext lineno = .ok d' ∧
      Beside d d') ∨
    ∃ stop, c.yyerror msg yytext lineno = .error stop ∧
      c'.yyerror msg yytext lineno = .error stop := by
  unfold ParserContext.yyerror
  by_cases hplain : formatPlain (errorText msg yytext lineno) = true
  · rw [if_pos hplain, if_pos hplain]
    exact Or.inl ⟨_, _, rfl, rfl, { h with errmsg := rfl }⟩
  · rw [if_neg hplain, if_neg hplain]
    exact Or.inr ⟨_, rfl, rfl⟩

/-- **One pass of the two parses.** -/
theorem pass_twins {s t : Parse} (h : Twins a s t) :
    Prog.PassRel (Twins a) EndTwins (s.pass a.env msgs) (t.pass a.env msgs) := by
  have hflex := h.flexStep
  cases hevent : (s.flexStep a.env).2 with
  | none =>
    have hs := (@Passes.skipped a.env msgs s hevent).pass_eq
    have ht := (@Passes.skipped a.env msgs t (by rw [hflex, hevent])).pass_eq
    rw [hs, ht]
    refine ⟨by rw [hflex], h.control, h.ctx, h.menu, fun hstart => ?_⟩
    obtain ⟨hactive, hlist⟩ := h.first hstart
    refine ⟨hactive, fun s' e hr => hlist s' e ?_⟩
    have hsame := h.flexStep_start hstart
    rw [hsame] at hevent hr
    exact yylex_skip hevent hr
  | some e =>
    have hevent' : (t.flexStep a.env).2 = some e := by rw [hflex, hevent]
    obtain ⟨hacts, hnext⟩ := take_menu h.menu fun hstart => h.kind hevent hstart
    obtain ⟨d, d', hd, hd', hbeside⟩ := execAll_beside a h.ctx hacts
    have hd' : execAll a.env (t.control.take e).1 t.ctx = .ok d' := by rw [h.control, hd']
    cases hverdict : (s.control.take e).2 with
    | shifted c =>
      have hverdict' : (t.control.take e).2 = .shifted c := by rw [h.control, hverdict]
      rw [(Passes.shifted hevent hd hverdict).pass_eq, (Passes.shifted hevent' hd' hverdict').pass_eq]
      obtain ⟨hmenu, hne⟩ := hnext c hverdict
      exact ⟨by rw [hflex], rfl, hbeside, hmenu, fun hstart => absurd hstart hne⟩
    | accepted =>
      have hverdict' : (t.control.take e).2 = .accepted := by rw [h.control, hverdict]
      rw [(Passes.accepted hevent hd hverdict).pass_eq,
        (Passes.accepted hevent' hd' hverdict').pass_eq]
      exact ⟨rfl, by rw [hflex], hbeside⟩
    | rejected =>
      have hverdict' : (t.control.take e).2 = .rejected := by rw [h.control, hverdict]
      rcases hbeside.yyerror (msgs.text s.control e.kind) e.yytext (s.flexStep a.env).1.lineno with
        ⟨f, f', hf, hf', hrel⟩ | ⟨stop, hf, hf'⟩
      · rw [← h.control, ← hflex] at hf'
        rw [(Passes.rejected hevent hd hverdict hf).pass_eq,
          (Passes.rejected hevent' hd' hverdict' hf').pass_eq]
        exact ⟨rfl, by rw [hflex], hrel⟩
      · rw [← h.control, ← hflex] at hf'
        rw [(Passes.garbled hevent hd hverdict hf).pass_eq,
          (Passes.garbled hevent' hd' hverdict' hf').pass_eq]
        exact rfl

/-- **The two parses end alike.** -/
theorem yyparse_twins {s t : Parse} (h : Twins a s t) :
    ∃ r r', (yyparse a.env msgs s).Gives r ∧ (yyparse a.env msgs t).Gives r' ∧ EndTwins r r' := by
  obtain ⟨r, hr⟩ := yyparse_ends a.env msgs s
  obtain ⟨r', hr', hend⟩ := Prog.loop_sim (Twins a) EndTwins
    (fun s t p hst hp => by
      obtain rfl := Prog.gives_lift.mp hp
      exact ⟨_, Prog.gives_lift.mpr rfl, pass_twins msgs hst⟩) h hr
  exact ⟨r, r', hr, hr', hend⟩

end Twins

/-! ## The menu -/

/-- The same menu, and nothing set up in the second parse. -/
structure SameMenu (p p' : Parsed) : Prop where
  errmsg : p'.errmsg = p.errmsg
  bentryList : p'.config.bentryList = p.config.bentryList
  bootDefault : p'.config.bootDefault = p.config.bootDefault
  password : p'.config.password = p.config.password
  executed : p'.executed = []
  timeout : p'.config.timeout = 0

/-- Two parses of a configuration end with the same menu; what is undefined in one is in the other. -/
def SameMenus : Except Stop (Scanner × Parsed) → Except Stop (Scanner × Parsed) → Prop
  | .ok (scan, p), .ok (scan', p') => scan' = scan ∧ SameMenu p p'
  | .error stop, .error stop' => stop' = stop
  | _, _ => False

theorem parsedOf_sameMenu {c c' : ParserContext} (h : Beside c c') (uri : CStr) (accepted : Bool) :
    SameMenu (parsedOf uri accepted c) (parsedOf uri accepted c') := by
  have hdefault : resolveDefault c'.toplevel c'.bootDefault =
      resolveDefault c.toplevel c.bootDefault := by
    unfold resolveDefault
    rw [h.bootDefault, h.bentryList]
  unfold parsedOf
  cases accepted with
  | false =>
    rw [if_neg (by simp), if_neg (by simp), h.errmsg]
    exact ⟨rfl, h.bentryList, h.default, h.password, h.executed, h.timeout⟩
  | true =>
    rw [if_pos rfl, if_pos rfl, hdefault]
    cases resolveDefault c.toplevel c.bootDefault with
    | ok idx => exact ⟨rfl, h.bentryList, rfl, h.password, h.executed, h.timeout⟩
    | error msg => exact ⟨rfl, h.bentryList, h.default, h.password, h.executed, h.timeout⟩

theorem start_menu : Control.start.Menu :=
  ⟨rfl, fun _ => rfl, fun _ t h => by cases h⟩

/-- **A sysload for one user interface has the menu of a sysload for all of them**, runs no command
and has no timeout. -/
theorem onlyUi_sameMenu (a : Answers) (msgs : Messages) (scan : Scanner) (uri : CStr) {onlyUi : CStr}
    (hui : onlyUi ≠ []) (file : Except CStr (List Char))
    (hlist : ∀ text, file = .ok text →
      DefinitionList (a.env.openInclUri []) (scan.restart text)) :
    ∃ r r', (parseSysload a.env msgs scan uri [] file).Gives r ∧
      (parseSysload a.env msgs scan uri onlyUi file).Gives r' ∧ SameMenus r r' := by
  cases file with
  | error msg =>
    exact ⟨_, _, Prog.gives_pure.mpr rfl, Prog.gives_pure.mpr rfl, rfl, rfl, rfl, rfl, rfl, rfl, rfl⟩
  | ok text =>
    have htwins : Twins a (.start scan (some []) text) (.start scan (some onlyUi) text) :=
      ⟨rfl, rfl, Beside.init hui, start_menu, fun _ => ⟨rfl, hlist text rfl⟩⟩
    obtain ⟨r, r', hr, hr', hend⟩ := yyparse_twins msgs htwins
    rcases r with stop | ⟨accepted, s⟩ <;> rcases r' with stop' | ⟨accepted', t⟩
    · exact ⟨.error stop, .error stop', Prog.gives_bind.mpr (Or.inr ⟨_, hr, rfl⟩),
        Prog.gives_bind.mpr (Or.inr ⟨_, hr', rfl⟩), hend⟩
    · exact hend.elim
    · exact hend.elim
    · obtain ⟨rfl, hscan, hbeside⟩ := hend
      exact ⟨_, _, Prog.gives_bind_eq_ok.mpr ⟨_, hr, Prog.gives_pure.mpr rfl⟩,
        Prog.gives_bind_eq_ok.mpr ⟨_, hr', Prog.gives_pure.mpr rfl⟩, hscan,
        parsedOf_sameMenu hbeside uri accepted'⟩

theorem onlyUi_sameMenu_reboot :
    ∃ r r', (parseSysload Answers.blank.env .short .fresh ['c'] [] (.ok rebootText)).Gives r ∧
      (parseSysload Answers.blank.env .short .fresh ['c'] "ssh".toList (.ok rebootText)).Gives r' ∧
      SameMenus r r' := by
  refine onlyUi_sameMenu .blank .short .fresh ['c'] (by simp) (.ok rebootText) fun text htext => ?_
  cases htext
  have hevent : ((Scanner.fresh.restart rebootText).flexStep true
      (Answers.blank.env.openInclUri [])).2 =
      some (.token ⟨.tBootEntry, []⟩ "boot_entry".toList) := by
    decide +kernel
  intro s' e hr k hk
  cases hr.unique (yylex_event hevent)
  cases hk
  rfl

end Sysload.Parser
