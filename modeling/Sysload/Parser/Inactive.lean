import Sysload.Parser.Sections

/-!
# Inactive sections

A system section whose test does not match should have no effect. A `Hole` is a place for such a
section in a configuration, at any of the four levels of lists. In an inactive section every action
but `timeout` leaves the context alone, up to the temporary records, and `timeout` sets the timeout
to 0.

Source: `src/core/sysload.conf.y`, its tests of `parser_active_system`. Out of scope are includes:
the configuration is a list of definitions here.

Results:
* `inactive_items`: what a list does in an inactive section.
* `section_run`: what a whole section does whose test does not match.
* `execAll_timeout`, `execAll_setTimeout`: what is left of a difference in the timeout.
* **`inactive_section_iff`**: when the body of an inactive section makes no difference.
-/

namespace Sysload.Parser

open ParserContext

/-! ## Sections at all levels -/

/-- `timeout` is the definition that does not look for an inactive section before it acts. -/
def Definition.isTimeout : Definition → Bool
  | .timeout _ => true
  | _ => false

/-- A place for a system section: among the definitions, or in the list of a definition. -/
inductive Hole where
  | definitions (p : Path Definition)
  | modparams (p : Path Definition) (q : Path ModParam)
  | netparams (p : Path Definition) (q : Path NetParam)
  | options (p : Path Definition) (title : CStr) (label : Option CStr) (q : Path BootOption)

namespace Hole

/-- The bodies that a section has at the place. -/
def Body : Hole → Type
  | .definitions _ => Config
  | .modparams _ _ => Items ModParam
  | .netparams _ _ => Items NetParam
  | .options _ _ _ _ => Items BootOption

/-- The configuration with a section at the place. -/
def fill (test : SystemList) : (h : Hole) → h.Body → Config
  | .definitions p, b => p.plug (.system test b)
  | .modparams p q, b => p.plug (.leaf (.setupModule (q.plug (.system test b))))
  | .netparams p q, b => p.plug (.leaf (.network (q.plug (.system test b))))
  | .options p title label q, b =>
    p.plug (.leaf (.bootentry title label (q.plug (.system test b))))

/-- The actions of a body. -/
def bodyActs : (h : Hole) → h.Body → List Act
  | .definitions _, b => Config.acts b
  | .modparams _ _, b => modActs b
  | .netparams _ _, b => netActs b
  | .options _ _ _ _, b => optionActs b

/-- The actions before the section. -/
def before : Hole → List Act
  | .definitions p => p.before Definition.acts
  | .modparams p q => p.before Definition.acts ++ q.before fun p => [.modparam p]
  | .netparams p q => p.before Definition.acts ++ q.before fun p => [.netparam p]
  | .options p title label q =>
    p.before Definition.acts ++ (.title title :: labelActs label ++ q.before fun o => [.option o])

/-- The actions behind the section. -/
def after : Hole → List Act
  | .definitions p => p.after Definition.acts
  | .modparams p q => (q.after fun p => [.modparam p]) ++ .setupModule :: p.after Definition.acts
  | .netparams p q => (q.after fun p => [.netparam p]) ++ .network :: p.after Definition.acts
  | .options p _ _ q => (q.after fun o => [.option o]) ++ .bootentry :: p.after Definition.acts

/-- A body sets the timeout. -/
def setsTimeout : (h : Hole) → h.Body → Bool
  | .definitions _, b => Items.any Definition.isTimeout b
  | .modparams _ _, _ => false
  | .netparams _ _, _ => false
  | .options _ _ _ _, _ => false

/-- A `timeout` stands behind the section. -/
def timeoutBehind (h : Hole) : Prop := ∃ number, .timeout number ∈ h.after

theorem acts_fill (test : SystemList) (h : Hole) (b : h.Body) :
    (h.fill test b).acts =
      h.before ++ (.enterSystem test :: h.bodyActs b ++ [.exitSystem]) ++ h.after := by
  have hlist : ∀ {α : Type} (f : α → List Act) (body rest : Items α),
      (Items.system test body rest).acts f =
        (.enterSystem test :: body.acts f ++ [.exitSystem]) ++ rest.acts f := by
    intro α f body rest
    simp
  have hleaf : ∀ (d : Definition) (rest : Config),
      (Items.leaf d rest).acts Definition.acts = d.acts ++ Items.acts Definition.acts rest := by
    intro d rest
    rfl
  unfold Config.acts
  cases h with
  | definitions p => exact p.acts_plug _ (hlist _ b)
  | modparams p q =>
    refine (p.acts_plug _ (hleaf _)).trans ?_
    rw [Definition.acts, modActs, q.acts_plug _ (hlist _ b)]
    simp [before, after, bodyActs, modActs]
  | netparams p q =>
    refine (p.acts_plug _ (hleaf _)).trans ?_
    rw [Definition.acts, netActs, q.acts_plug _ (hlist _ b)]
    simp [before, after, bodyActs, netActs]
  | options p title label q =>
    refine (p.acts_plug _ (hleaf _)).trans ?_
    rw [Definition.acts, optionActs, q.acts_plug _ (hlist _ b)]
    simp [before, after, bodyActs, optionActs]

end Hole

/-! ## The body of an inactive section -/

namespace ParserContext

/-- The context with another timeout. -/
def setTimeout (c : ParserContext) (n : Int) : ParserContext :=
  { c with toplevel := { c.toplevel with timeout := n } }

/-- The context after a list that sets the timeout if `p`. -/
def zeroIf (p : Bool) (c : ParserContext) : ParserContext :=
  if p then c.setTimeout 0 else c

theorem zeroIf_zeroIf (p q : Bool) (c : ParserContext) : (c.zeroIf p).zeroIf q = c.zeroIf (p || q) := by
  cases p <;> cases q <;> rfl

theorem zeroIf_sameFrame (p : Bool) (c : ParserContext) : SameFrame c (c.zeroIf p) := by
  cases p <;> exact ⟨rfl, rfl, rfl⟩

theorem zeroIf_withDepth (p : Bool) (c : ParserContext) (k k' : Nat) :
    ((c.withDepth k k').zeroIf p).withDepth c.systemDepth c.systemFirstInactive = c.zeroIf p := by
  cases p <;> rfl

theorem zeroIf_inactive (p : Bool) {c : ParserContext} (h : c.active = false) :
    (c.zeroIf p).active = false := by
  cases p <;> exact h

theorem enterSystem_inactive {c : ParserContext} (h : c.active = false) (b : Bool) :
    (c.enterSystem b).active = false := by
  simp only [active, Bool.not_eq_false', decide_eq_true_eq] at h
  unfold enterSystem
  dsimp only
  split
  · simp [active]
  · simp only [active, Bool.not_eq_false', decide_eq_true_eq]
    omega

theorem enterSystem_false (c : ParserContext) : (c.enterSystem false).active = false := by
  unfold enterSystem
  dsimp only
  split
  · simp [active]
  · rename_i h
    simpa using h

end ParserContext

section Body

variable {env : Env} {α : Type} {f : α → List Act}

/-- **Around a quiet body**: after a section whose body only sets the timeout, and only if `p`, that is
all that has changed. -/
theorem section_run {p : Bool} {test : SystemList} {body : List Act}
    {c : ParserContext} (hc : c.Nested)
    (hbody : execAll env body (c.enterSystem (decide (test.Matches env c.executed))) =
      .ok ((c.enterSystem (decide (test.Matches env c.executed))).zeroIf p)) :
    execAll env (.enterSystem test :: body ++ [.exitSystem]) c = .ok (c.zeroIf p) := by
  generalize hb : decide (test.Matches env c.executed) = b at hbody
  have hexit := exitSystem_enterSystem hc b (zeroIf_sameFrame p (c.enterSystem b))
  obtain ⟨k, hk⟩ := enterSystem_eq c b
  have hrun : execAll env (.enterSystem test :: body) c = .ok ((c.enterSystem b).zeroIf p) := by
    rw [execAll_cons, exec, hb]
    exact hbody
  rw [execAll_append, hrun]
  show execAll env [.exitSystem] ((c.enterSystem b).zeroIf p) = _
  rw [execAll_singleton, exec, hexit, hk, zeroIf_withDepth]

/-- **What a list does in an inactive section**: the items that satisfy `P` set the timeout to 0. `J`
is what else the items need to know of the context. -/
theorem inactive_items (P : α → Bool) (J : ParserContext → Prop)
    (hdepth : ∀ c k k', J c → J (c.withDepth k k')) (htime : ∀ c, J c → J (c.setTimeout 0))
    (hleaf : ∀ a c, c.Nested → c.active = false → J c →
      execAll env (f a) c = .ok (c.zeroIf (P a)))
    (l : Items α) {c : ParserContext} (hc : c.Nested) (hactive : c.active = false) (hJ : J c) :
    execAll env (l.acts f) c = .ok (c.zeroIf (l.any P)) := by
  have hzero : ∀ p c, J c → J (c.zeroIf p) := by
    intro p c hJ
    cases p
    · exact hJ
    · exact htime c hJ
  induction l generalizing c with
  | nil => rfl
  | leaf a rest ih =>
    rw [Items.acts_leaf, execAll_append, hleaf a c hc hactive hJ]
    refine (ih ((zeroIf_sameFrame _ c).nested hc) (zeroIf_inactive _ hactive)
      (hzero _ c hJ)).trans ?_
    rw [zeroIf_zeroIf]
    rfl
  | system test body rest ihbody ihrest =>
    have hacts : (Items.system test body rest).acts f =
        (.enterSystem test :: body.acts f ++ [.exitSystem]) ++ rest.acts f := by simp
    obtain ⟨k, hk⟩ := enterSystem_eq c (decide (test.Matches env c.executed))
    have hbody := ihbody (enterSystem_nested hc _) (enterSystem_inactive hactive _)
      (hk ▸ hdepth c _ _ hJ)
    rw [hacts, execAll_append, section_run hc hbody]
    refine (ihrest ((zeroIf_sameFrame _ c).nested hc) (zeroIf_inactive _ hactive)
      (hzero _ c hJ)).trans ?_
    rw [zeroIf_zeroIf]
    rfl

/-- A list of parameters or options that look for an inactive section does nothing there. -/
theorem inactive_ignored
    (hleaf : ∀ a c, c.active = false → execAll env (f a) c = .ok c) (l : Items α)
    {c : ParserContext} (hc : c.Nested) (hactive : c.active = false) :
    execAll env (l.acts f) c = .ok c := by
  refine (inactive_items (fun _ => false) (fun _ => True) (fun _ _ _ h => h) (fun _ h => h)
    (fun a c _ hactive _ => ?_) l hc hactive trivial).trans ?_
  · rw [hleaf a c hactive]
    rfl
  · rw [Items.any_false]
    rfl

theorem inactive_modparams (l : Items ModParam) {c : ParserContext} (hc : c.Nested)
    (hactive : c.active = false) : execAll env (modActs l) c = .ok c :=
  inactive_ignored (fun p c hactive => by simp [exec, hactive]) l hc hactive

theorem inactive_netparams (l : Items NetParam) {c : ParserContext} (hc : c.Nested)
    (hactive : c.active = false) : execAll env (netActs l) c = .ok c :=
  inactive_ignored (fun p c hactive => by simp [exec, hactive]) l hc hactive

theorem inactive_options (l : Items BootOption) {c : ParserContext} (hc : c.Nested)
    (hactive : c.active = false) : execAll env (optionActs l) c = .ok c :=
  inactive_ignored (fun p c hactive => by simp [exec, hactive]) l hc hactive

/-- **What a definition does in an inactive section**: nothing, but for `timeout`. -/
theorem inactive_definition (d : Definition) {c : ParserContext} {ui : CStr} (hc : c.Nested)
    (hactive : c.active = false) (hargs : c.args = some ui) (hclean : c.Clean) :
    execAll env d.acts c = .ok (c.zeroIf d.isTimeout) := by
  have huimode : ∃ onlyUi, c.uimode = .ok onlyUi := by
    unfold uimode
    rw [hargs]
    exact ⟨_, rfl⟩
  obtain ⟨onlyUi, huimode⟩ := huimode
  have henabled : c.enabled = .ok false := by
    simp [enabled, huimode, hactive, bind, Except.bind, pure, Except.pure]
  obtain ⟨hb, hn, hm⟩ := hclean
  cases d with
  | timeout number =>
    simp [Definition.acts, exec, huimode, hactive, zeroIf, Definition.isTimeout, setTimeout, bind,
      Except.bind, pure, Except.pure]
  | setupModule params =>
    rw [Definition.acts, execAll_append, inactive_modparams params hc hactive]
    show execAll env [.setupModule] c = _
    simp only [execAll_singleton, exec, henabled, bind, Except.bind, pure, Except.pure]
    simp [zeroIf, Definition.isTimeout, ← hm]
  | network params =>
    rw [Definition.acts, execAll_append, inactive_netparams params hc hactive]
    show execAll env [.network] c = _
    simp only [execAll_singleton, exec, henabled, bind, Except.bind, pure, Except.pure]
    simp [zeroIf, Definition.isTimeout, ← hn]
  | bootentry title label options =>
    have hhead : ∃ b, execAll env (.title title :: labelActs label) c =
        .ok { c with bentry := b } := by
      cases label <;> exact ⟨_, rfl⟩
    obtain ⟨b, hhead⟩ := hhead
    have hoptions := @inactive_options env options { c with bentry := b } hc hactive
    rw [Definition.acts, execAll_append, execAll_append, hhead]
    show (execAll env (optionActs options) { c with bentry := b } >>= execAll env [.bootentry]) = _
    rw [hoptions]
    show execAll env [.bootentry] { c with bentry := b } = _
    have hsame : ({ c with bentry := .init } : ParserContext) = c := by rw [← hb]
    have hactive' : ({ c with bentry := b } : ParserContext).active = false := hactive
    rw [execAll_singleton, exec, hactive']
    exact congrArg Except.ok hsame
  | _ =>
    simp [Definition.acts, exec, hactive, henabled, zeroIf, Definition.isTimeout, bind,
      Except.bind, pure, Except.pure]

/-- What a list of definitions does in an inactive section. -/
theorem inactive_config (d : Config) {c : ParserContext} {ui : CStr} (hc : c.Nested)
    (hactive : c.active = false) (hargs : c.args = some ui) (hclean : c.Clean) :
    execAll env d.acts c = .ok (c.zeroIf (d.any Definition.isTimeout)) :=
  inactive_items _ (fun c => c.args = some ui ∧ c.Clean) (fun _ _ _ h => h) (fun _ h => h)
    (fun d _ hc hactive hJ => inactive_definition d hc hactive hJ.1 hJ.2) d hc hactive
    ⟨hargs, hclean⟩

end Body

/-! ## What is left of a difference in the timeout -/

section Timeout

variable {env : Env}

/-- The number of a `timeout` can be read. -/
def Act.Readable : Act → Prop
  | .timeout number => ∃ n, scanInt number = some n
  | _ => True

/-- Actions other than `timeout` do not look at the timeout. -/
theorem exec_setTimeout {a : Act} (ha : ∀ number, a ≠ .timeout number) (c : ParserContext)
    (n : Int) : exec env (c.setTimeout n) a = (exec env c a).map (setTimeout · n) := by
  cases a with
  | timeout number => exact absurd rfl (ha number)
  | enterSystem l =>
    refine congrArg Except.ok ?_
    simp only [enterSystem]
    rw [apply_ite (setTimeout · n)]
    rfl
  | _ =>
    have hactive : (c.setTimeout n).active = c.active := rfl
    have huimode : (c.setTimeout n).uimode = c.uimode := rfl
    have henabled : (c.setTimeout n).enabled = c.enabled := rfl
    simp only [exec, hactive, huimode, henabled, exitSystem, bind, Except.bind, pure, Except.pure,
      Except.map]
    repeat' split
    all_goals first
      | rfl
      | contradiction
      | (rename_i heq; cases heq; rfl)

/-- A `timeout` with a readable number does not look at the timeout before. -/
theorem exec_timeout {number : CStr} (h : Act.Readable (.timeout number)) (c : ParserContext)
    (n : Int) : exec env (c.setTimeout n) (.timeout number) = exec env c (.timeout number) := by
  obtain ⟨k, hk⟩ := h
  simp only [exec, hk]
  rfl

/-- **Behind a `timeout`** a difference in the timeout is gone. -/
theorem execAll_timeout {as : List Act} (has : ∀ a ∈ as, a.Readable)
    (hmem : ∃ number, .timeout number ∈ as) (c : ParserContext) (n : Int) :
    execAll env as (c.setTimeout n) = execAll env as c := by
  induction as generalizing c with
  | nil => exact absurd hmem.choose_spec List.not_mem_nil
  | cons a as ih =>
    rw [execAll_cons, execAll_cons]
    by_cases ha : ∃ number, a = .timeout number
    · obtain ⟨number, rfl⟩ := ha
      rw [exec_timeout (has _ List.mem_cons_self)]
    · have hrest : ∃ number, .timeout number ∈ as := by
        obtain ⟨number, hmem⟩ := hmem
        exact ⟨number, (List.mem_cons.mp hmem).resolve_left fun h => ha ⟨number, h.symm⟩⟩
      rw [exec_setTimeout fun number h => ha ⟨number, h⟩]
      cases exec env c a with
      | error e => rfl
      | ok d => exact ih (fun a h => has a (List.mem_cons_of_mem _ h)) hrest d

/-- Without a `timeout` the difference stays. -/
theorem execAll_setTimeout {as : List Act} (hnot : ∀ number, .timeout number ∉ as)
    (c : ParserContext) (n : Int) :
    execAll env as (c.setTimeout n) = (execAll env as c).map (setTimeout · n) := by
  induction as generalizing c with
  | nil => rfl
  | cons a as ih =>
    rw [execAll_cons, execAll_cons,
      exec_setTimeout fun number h => hnot number (h ▸ List.mem_cons_self)]
    cases exec env c a with
    | error e => rfl
    | ok d => exact ih (fun number h => hnot number (List.mem_cons_of_mem _ h)) d

/-- The numbers of a configuration are readable. -/
theorem config_readable (d : Config) : ∀ a ∈ d.acts, a.Readable := by
  refine Items.forall_acts _ (fun _ => trivial) trivial (fun d => ?_) d
  have hlist : ∀ {α : Type} (f : α → Act) (hf : ∀ a, (f a).Readable) (l : Items α),
      ∀ act ∈ l.acts fun a => [f a], act.Readable := by
    intro α f hf l
    refine Items.forall_acts _ (fun _ => trivial) trivial (fun a act h => ?_) l
    exact List.mem_singleton.mp h ▸ hf a
  cases d with
  | timeout number =>
    intro act h
    cases List.mem_singleton.mp h
    obtain ⟨str, hne, hall⟩ := number
    cases str with
    | nil => exact absurd rfl hne
    | cons d ds => exact scanInt_isSome (List.all_eq_true.mp hall d List.mem_cons_self) ds
  | setupModule params =>
    intro act h
    rcases List.mem_append.mp h with h | h
    · exact hlist .modparam (fun _ => trivial) params act h
    · cases List.mem_singleton.mp h
      trivial
  | network params =>
    intro act h
    rcases List.mem_append.mp h with h | h
    · exact hlist .netparam (fun _ => trivial) params act h
    · cases List.mem_singleton.mp h
      trivial
  | bootentry title label options =>
    intro act h
    rcases List.mem_append.mp h with h | h
    · rcases List.mem_append.mp h with h | h
      · cases label <;> simp only [labelActs, List.mem_cons, List.not_mem_nil, or_false] at h
        · subst h
          trivial
        · rcases h with rfl | rfl <;> trivial
      · exact hlist .option (fun _ => trivial) options act h
    · cases List.mem_singleton.mp h
      trivial
  | _ =>
    intro act h
    cases List.mem_singleton.mp h
    trivial

end Timeout

/-! ## The section in its configuration -/

section Section

variable {env : Env} {ui : CStr} {h : Hole} {test : SystemList} {c : ParserContext}

/-- **What an inactive section does**: nothing, unless its body sets the timeout. -/
theorem hole_section (hbefore : execAll env h.before (.init (some ui)) = .ok c)
    (htest : ¬ test.Matches env c.executed) (b : h.Body) :
    execAll env (.enterSystem test :: h.bodyActs b ++ [.exitSystem]) c =
      .ok (c.zeroIf (h.setsTimeout b)) := by
  have hnested := execAll_nested (nested_init (some ui)) hbefore
  refine section_run hnested ?_
  rw [decide_eq_false htest]
  have hinactive := enterSystem_false c
  have hin := enterSystem_nested hnested false
  obtain ⟨k, hk⟩ := enterSystem_eq c false
  cases h with
  | definitions p =>
    obtain ⟨hclean, _, hargs, _⟩ :=
      before_clean (nested_init (some ui)) ⟨rfl, rfl, rfl⟩ hbefore
    rw [hk] at hin hinactive ⊢
    exact inactive_config b hin hinactive hargs hclean
  | modparams p q => exact inactive_modparams b hin hinactive
  | netparams p q => exact inactive_netparams b hin hinactive
  | options p title label q => exact inactive_options b hin hinactive

end Section

/-- What parsing a configuration leaves: the configuration, the label of the default entry (which
`parse_sysload` resolves to its index), and the executed commands. -/
def Config.result (env : Env) (ui : CStr) (d : Config) :
    Except Stop (CfgToplevel × CStr × List Command) :=
  (execAll env d.acts (.init (some ui))).map fun c => (c.toplevel, c.bootDefault, c.executed)

/-- **When the body of an inactive section makes no difference**: exactly when both bodies set the
timeout or neither does, or the timeout is 0 before the section, or another `timeout` stands
behind it. -/
theorem inactive_section_iff (env : Env) (ui : CStr) (h : Hole) (test : SystemList)
    (b b' : h.Body) (c : ParserContext) (hbefore : execAll env h.before (.init (some ui)) = .ok c)
    (htest : ¬ test.Matches env c.executed) :
    Config.result env ui (h.fill test b) = Config.result env ui (h.fill test b') ↔
      h.setsTimeout b = h.setsTimeout b' ∨ c.toplevel.timeout = 0 ∨ h.timeoutBehind := by
  have hresult : ∀ b, Config.result env ui (h.fill test b) =
      (execAll env h.after (c.zeroIf (h.setsTimeout b))).map
        fun c => (c.toplevel, c.bootDefault, c.executed) := by
    intro b
    rw [Config.result, Hole.acts_fill, execAll_append, execAll_append, hbefore]
    show (execAll env _ c >>= execAll env h.after).map _ = _
    rw [hole_section hbefore htest b]
    rfl
  have hreadable : ∀ a ∈ h.after, a.Readable := by
    intro a ha
    refine config_readable (h.fill test b) a ?_
    rw [Hole.acts_fill]
    exact List.mem_append_right _ ha
  have hargs : c.args = some ui := by
    obtain ⟨c', hc', hargs⟩ := @execAll_ok env (.init (some ui)) ui rfl h.before
    cases hbefore.symm.trans hc'
    exact hargs
  obtain ⟨r, hr, _⟩ := @execAll_ok env c ui hargs h.after
  rw [hresult, hresult]
  by_cases hbehind : h.timeoutBehind
  · have hsame : ∀ p, execAll env h.after (c.zeroIf p) = execAll env h.after c := by
      intro p
      cases p
      · rfl
      · exact execAll_timeout hreadable hbehind c 0
    rw [hsame, hsame]
    simp [hbehind]
  · have hnot : ∀ number, .timeout number ∉ h.after := fun number hmem => hbehind ⟨number, hmem⟩
    have hkeep : ∀ n, execAll env h.after (c.setTimeout n) = .ok (r.setTimeout n) := by
      intro n
      rw [execAll_setTimeout hnot, hr]
      rfl
    have htimeout : r.toplevel.timeout = c.toplevel.timeout := by
      have heq : r = r.setTimeout c.toplevel.timeout :=
        Except.ok.inj (hr.symm.trans (hkeep c.toplevel.timeout))
      exact congrArg (fun r => r.toplevel.timeout) heq
    have hzero : ∀ p, execAll env h.after (c.zeroIf p) = .ok (r.zeroIf p) := by
      intro p
      cases p
      · exact hr
      · exact hkeep 0
    rw [hzero, hzero]
    have hends : ∀ p, ((.ok (r.zeroIf p) : Except Stop ParserContext).map
        fun c => (c.toplevel, c.bootDefault, c.executed)) =
          .ok ({ r.toplevel with timeout := if p then 0 else c.toplevel.timeout }, r.bootDefault,
            r.executed) := by
      intro p
      cases p
      · rw [← htimeout]
        rfl
      · rfl
    rw [hends, hends]
    cases h.setsTimeout b <;> cases h.setsTimeout b' <;>
      simp [hbehind, eq_comm (a := (0 : Int))]

/-! ## A section that sets the timeout -/

/-- An environment in which no test succeeds and no URI can be loaded. -/
def blankEnv : Env := ⟨[], fun _ _ => false, fun _ _ => none⟩

/-- The place behind `timeout 5`. -/
def timeoutHole : Hole :=
  .definitions (.leaf (.timeout ⟨['5'], List.cons_ne_nil _ _, rfl⟩) (.here .nil))

/-- The context behind `timeout 5`. -/
def timeoutContext : ParserContext := (ParserContext.init (some [])).setTimeout 5

/-- `password x`, as the body of a section. -/
def passwordBody : timeoutHole.Body := Items.leaf (.password ['x']) .nil

/-- `default d` and `password x`, as the body of a section. -/
def defaultBody : timeoutHole.Body := Items.leaf (.bootDefault ['d']) (.leaf (.password ['x']) .nil)

/-- `timeout 9`, as the body of a section. -/
def timeoutBody : timeoutHole.Body :=
  Items.leaf (.timeout ⟨['9'], List.cons_ne_nil _ _, rfl⟩) .nil

/-- Behind `timeout 5`, one body without a `timeout` is as good as another, and one with a `timeout`
is not. -/
theorem inactive_section_iff_passwordBody :
    Config.result blankEnv [] (timeoutHole.fill (.one (.uuid ['u'])) passwordBody) =
        Config.result blankEnv [] (timeoutHole.fill (.one (.uuid ['u'])) defaultBody) ∧
      Config.result blankEnv [] (timeoutHole.fill (.one (.uuid ['u'])) passwordBody) ≠
        Config.result blankEnv [] (timeoutHole.fill (.one (.uuid ['u'])) timeoutBody) := by
  have hiff := fun b' => inactive_section_iff blankEnv [] timeoutHole (.one (.uuid ['u']))
    passwordBody b' timeoutContext rfl (by decide)
  refine ⟨(hiff defaultBody).mpr (Or.inl rfl), fun hsame => ?_⟩
  rcases (hiff timeoutBody).mp hsame with h | h | h
  · cases h
  · cases h
  · obtain ⟨_, hmem⟩ := h
    cases hmem

/-- **An inactive `timeout` resets the timeout**: behind `timeout 5`, a section that does not match
leaves 5 if its body is `password x`, and 0 if its body is `timeout 9`. -/
theorem inactive_timeout_resets :
    ¬ ∀ (env : Env) (ui : CStr) (h : Hole) (test : SystemList) (b b' : h.Body) (c : ParserContext),
      execAll env h.before (.init (some ui)) = .ok c → ¬ test.Matches env c.executed →
      Config.result env ui (h.fill test b) = Config.result env ui (h.fill test b') := by
  intro hall
  have hequal := hall blankEnv [] timeoutHole (.one (.uuid ['u'])) passwordBody timeoutBody
    timeoutContext rfl (by decide)
  have hfive : Config.result blankEnv [] (timeoutHole.fill (.one (.uuid ['u'])) passwordBody) =
      .ok ({ CfgToplevel.init with timeout := 5 }, ['0'], []) := rfl
  have hzero : Config.result blankEnv [] (timeoutHole.fill (.one (.uuid ['u'])) timeoutBody) =
      .ok (CfgToplevel.init, ['0'], []) := rfl
  rw [hfive, hzero] at hequal
  exact absurd (congrArg CfgToplevel.timeout (Prod.mk.inj (Except.ok.inj hequal)).1) (by decide)

end Sysload.Parser
