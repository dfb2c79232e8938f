import Sysload.Parser.Grammar

/-!
# Sections and the temporary records

All sections write into three temporary records of the parser context, and all system sections
count in `system_depth` and `system_first_inactive`. Here it is shown that every definition leaves
the records initialized and the counters as they were.

Source: `src/core/sysload.conf.y` and `src/core/parser_sysload.c`, `parser_enter_system` and
`parser_exit_system`.

Results:
* `Nested`: `system_first_inactive` is the depth of an enclosing section, or no section is
  inactive; every action keeps it (`exec_nested`).
* `exitSystem_enterSystem`: leaving a section undoes entering it.
* `items_keep`: the induction over a list of items and system sections.
* `definitions_compose`: two definition lists, one after the other.
-/

namespace Sysload.Parser

open ParserContext

namespace ParserContext

/-- No section is inactive, or an enclosing one is the outermost inactive section. -/
def Nested (c : ParserContext) : Prop :=
  c.systemFirstInactive = maxSystemDepth ∨ c.systemFirstInactive ≤ c.systemDepth

/-- The temporary records are as `parser_init` leaves them. -/
def Clean (c : ParserContext) : Prop :=
  c.bentry = .init ∧ c.netconf = .init ∧ c.modconf = .init

/-- The section counters and the arguments are the same. -/
def SameFrame (c c' : ParserContext) : Prop :=
  c'.systemDepth = c.systemDepth ∧ c'.systemFirstInactive = c.systemFirstInactive ∧
    c'.args = c.args

theorem SameFrame.refl (c : ParserContext) : SameFrame c c := ⟨rfl, rfl, rfl⟩

theorem SameFrame.trans {c d e : ParserContext} (h : SameFrame c d) (h' : SameFrame d e) :
    SameFrame c e := ⟨h'.1.trans h.1, h'.2.1.trans h.2.1, h'.2.2.trans h.2.2⟩

theorem SameFrame.nested {c c' : ParserContext} (h : SameFrame c c') (hc : c.Nested) :
    c'.Nested := by
  unfold Nested at hc ⊢
  rwa [h.1, h.2.1]

/-- The context with other section counters. -/
def withDepth (c : ParserContext) (depth firstInactive : Nat) : ParserContext :=
  { c with systemDepth := depth, systemFirstInactive := firstInactive }

theorem enterSystem_eq (c : ParserContext) (b : Bool) :
    ∃ k, c.enterSystem b = c.withDepth (c.systemDepth + 1) k := by
  unfold enterSystem
  dsimp only
  split <;> exact ⟨_, rfl⟩

theorem exitSystem_eq (c : ParserContext) :
    ∃ k, c.exitSystem = c.withDepth (c.systemDepth - 1) k := by
  unfold exitSystem
  dsimp only
  split <;> exact ⟨_, rfl⟩

theorem enterSystem_nested {c : ParserContext} (h : c.Nested) (b : Bool) :
    (c.enterSystem b).Nested := by
  unfold enterSystem
  dsimp only
  split
  · exact Or.inr (Nat.le_refl _)
  · rcases h with h | h
    · exact Or.inl h
    · exact Or.inr (Nat.le_succ_of_le h)

theorem exitSystem_nested {c : ParserContext} (h : c.Nested) : c.exitSystem.Nested := by
  unfold exitSystem
  dsimp only
  split
  · exact Or.inl rfl
  · rename_i hne
    rcases h with h | h
    · exact Or.inl h
    · refine Or.inr ?_
      show c.systemFirstInactive ≤ c.systemDepth - 1
      omega

/-- **Leaving a section undoes entering it**: the counters are as before the section, whatever else
has changed in it. -/
theorem exitSystem_enterSystem {c : ParserContext} (h : c.Nested) (b : Bool) {c' : ParserContext}
    (hc' : SameFrame (c.enterSystem b) c') :
    c'.exitSystem = c'.withDepth c.systemDepth c.systemFirstInactive := by
  obtain ⟨hdepth, hfirst, _⟩ := hc'
  unfold enterSystem at hdepth hfirst
  dsimp only at hdepth hfirst
  unfold exitSystem withDepth
  dsimp only
  split at hdepth
  · -- the section itself is the outermost inactive one
    rename_i hactive
    rw [if_pos hactive] at hfirst
    have hmax : c.systemFirstInactive = maxSystemDepth := by
      refine h.resolve_right fun hle => ?_
      have hlt := hactive.1
      simp only [active, Bool.not_eq_true', decide_eq_false_iff_not, Nat.not_le] at hlt
      omega
    rw [if_pos (hfirst.trans hdepth.symm), hmax]
    simp [hdepth]
  · rename_i hpassive
    rw [if_neg hpassive] at hfirst
    split
    · rename_i heq
      have hmax : c.systemFirstInactive = maxSystemDepth := by
        refine h.resolve_right fun hle => ?_
        rw [hfirst, hdepth] at heq
        exact absurd heq (by simp only; omega)
      rw [hmax]
      simp [hdepth]
    · rw [hfirst]
      simp [hdepth]

theorem withDepth_sameFrame (c d : ParserContext) (h : d.args = c.args) :
    SameFrame c (d.withDepth c.systemDepth c.systemFirstInactive) := ⟨rfl, rfl, h⟩

end ParserContext

/-! ## One action -/

section Actions

variable {env : Env} {c c' : ParserContext} {a : Act}

/-- What an action other than entering or leaving a section may change. -/
theorem exec_sameFrame (henter : ∀ l, a ≠ .enterSystem l) (hexit : a ≠ .exitSystem)
    (h : exec env c a = .ok c') : SameFrame c c' := by
  cases a with
  | enterSystem l => exact absurd rfl (henter l)
  | exitSystem => exact absurd rfl hexit
  | _ =>
    simp only [exec, enabled, bind, Except.bind, pure, Except.pure] at h
    repeat' split at h
    all_goals first
      | contradiction
      | (cases h; exact ⟨rfl, rfl, rfl⟩)

theorem exec_nested (hc : c.Nested) (h : exec env c a = .ok c') : c'.Nested := by
  by_cases henter : ∃ l, a = .enterSystem l
  · obtain ⟨l, rfl⟩ := henter
    cases h
    exact enterSystem_nested hc _
  · by_cases hexit : a = .exitSystem
    · subst hexit
      cases h
      exact exitSystem_nested hc
    · exact (exec_sameFrame (fun l hl => henter ⟨l, hl⟩) hexit h).nested hc

theorem execAll_nested {as : List Act} (hc : c.Nested) (h : execAll env as c = .ok c') :
    c'.Nested := by
  induction as generalizing c with
  | nil => exact Except.ok.inj h ▸ hc
  | cons a as ih =>
    obtain ⟨d, hd, hrest⟩ := execAll_cons_eq_ok.mp h
    exact ih (exec_nested hc hd) hrest

theorem nested_init (args : Option CStr) : (ParserContext.init args).Nested := Or.inl rfl

end Actions

/-! ## With arguments no action stops -/

theorem exec_ok (env : Env) {c : ParserContext} {ui : CStr} (h : c.args = some ui) (a : Act) :
    ∃ c', exec env c a = .ok c' ∧ c'.args = some ui := by
  have huimode : c.uimode = .ok (if ui.length = 0 then none else some ui) := by
    rw [uimode, h]
  have henabled : ∃ b, c.enabled = .ok b := by
    rw [enabled, huimode]
    exact ⟨_, rfl⟩
  obtain ⟨b, henabled⟩ := henabled
  cases a with
  | enterSystem l =>
    obtain ⟨k, hk⟩ := enterSystem_eq c (decide (l.Matches env c.executed))
    exact ⟨_, rfl, by rw [hk]; exact h⟩
  | exitSystem =>
    obtain ⟨k, hk⟩ := exitSystem_eq c
    exact ⟨_, rfl, by rw [hk]; exact h⟩
  | _ =>
    simp only [exec, huimode, henabled, bind, Except.bind, pure, Except.pure]
    repeat' split
    all_goals exact ⟨_, rfl, h⟩

theorem execAll_ok (env : Env) {c : ParserContext} {ui : CStr} (h : c.args = some ui)
    (as : List Act) : ∃ c', execAll env as c = .ok c' ∧ c'.args = some ui := by
  induction as generalizing c with
  | nil => exact ⟨c, rfl, h⟩
  | cons a as ih =>
    obtain ⟨d, hd, hargs⟩ := exec_ok env h a
    obtain ⟨c', hc', hargs'⟩ := ih hargs
    exact ⟨c', execAll_cons_eq_ok.mpr ⟨d, hd, hc'⟩, hargs'⟩

/-! ## Lists of items -/

section Items

variable {env : Env} {α : Type} {f : α → List Act}

/-- **The induction over a list**: what the actions of every item keep, and what does not depend on
the section counters, the actions of the list keep; the counters are as before. -/
theorem items_keep (K : ParserContext → ParserContext → Prop) (hrefl : ∀ c, K c c)
    (htrans : ∀ c d e, K c d → K d e → K c e)
    (hdepth : ∀ c depth first, K c (c.withDepth depth first))
    (hleaf : ∀ a c c', c.Nested → execAll env (f a) c = .ok c' → K c c' ∧ SameFrame c c') :
    ∀ {l : Items α} {c c' : ParserContext}, c.Nested → execAll env (l.acts f) c = .ok c' →
      K c c' ∧ SameFrame c c'
  | .nil, c, c', _, h => by
    cases h
    exact ⟨hrefl c, .refl c⟩
  | .leaf a rest, c, c', hc, h => by
    obtain ⟨d, hd, hrest⟩ := execAll_append_eq_ok.mp h
    obtain ⟨hK, hframe⟩ := hleaf a c d hc hd
    obtain ⟨hK', hframe'⟩ :=
      items_keep K hrefl htrans hdepth hleaf (hframe.nested hc) hrest
    exact ⟨htrans _ _ _ hK hK', hframe.trans hframe'⟩
  | .system test body rest, c, c', hc, h => by
    obtain ⟨c₁, henter, h⟩ := execAll_cons_eq_ok.mp h
    obtain ⟨c₂, hbody, h⟩ := execAll_append_eq_ok.mp h
    obtain ⟨c₃, hexit, hrest⟩ := execAll_cons_eq_ok.mp h
    cases henter
    cases hexit
    generalize hmatch : decide (test.Matches env c.executed) = b at hbody
    obtain ⟨k, hk⟩ := enterSystem_eq c b
    obtain ⟨hK₁, hframe₁⟩ :=
      items_keep K hrefl htrans hdepth hleaf (enterSystem_nested hc b) hbody
    have hexit := exitSystem_enterSystem hc b hframe₁
    have hargs : c₂.args = c.args := by rw [hframe₁.2.2, hk]; rfl
    have hframe : SameFrame c c₂.exitSystem := hexit ▸ withDepth_sameFrame c c₂ hargs
    obtain ⟨hK₂, hframe₂⟩ :=
      items_keep K hrefl htrans hdepth hleaf (hframe.nested hc) hrest
    refine ⟨?_, hframe.trans hframe₂⟩
    have hin : K c (c.enterSystem b) := hk ▸ hdepth c _ _
    have hout : K c₂ c₂.exitSystem := hexit ▸ hdepth c₂ _ _
    exact htrans _ _ _ hin (htrans _ _ _ hK₁ (htrans _ _ _ hout hK₂))

end Items

/-! ## The records -/

section Records

variable {env : Env} {c c' : ParserContext}

theorem modparams_keep {l : Items ModParam} (hc : c.Nested)
    (h : execAll env (modActs l) c = .ok c') :
    (c'.bentry = c.bentry ∧ c'.netconf = c.netconf) ∧ SameFrame c c' := by
  refine items_keep (fun c c' => c'.bentry = c.bentry ∧ c'.netconf = c.netconf)
    (fun _ => ⟨rfl, rfl⟩) (fun _ _ _ h h' => ⟨h'.1.trans h.1, h'.2.trans h.2⟩)
    (fun _ _ _ => ⟨rfl, rfl⟩) (fun p c c' _ h => ?_) hc h
  rw [execAll_singleton] at h
  refine ⟨?_, exec_sameFrame (by simp) (by simp) h⟩
  cases h
  split <;> exact ⟨rfl, rfl⟩

theorem netparams_keep {l : Items NetParam} (hc : c.Nested)
    (h : execAll env (netActs l) c = .ok c') :
    (c'.bentry = c.bentry ∧ c'.modconf = c.modconf) ∧ SameFrame c c' := by
  refine items_keep (fun c c' => c'.bentry = c.bentry ∧ c'.modconf = c.modconf)
    (fun _ => ⟨rfl, rfl⟩) (fun _ _ _ h h' => ⟨h'.1.trans h.1, h'.2.trans h.2⟩)
    (fun _ _ _ => ⟨rfl, rfl⟩) (fun p c c' _ h => ?_) hc h
  rw [execAll_singleton] at h
  refine ⟨?_, exec_sameFrame (by simp) (by simp) h⟩
  cases h
  split <;> exact ⟨rfl, rfl⟩

theorem options_keep {l : Items BootOption} (hc : c.Nested)
    (h : execAll env (optionActs l) c = .ok c') :
    (c'.netconf = c.netconf ∧ c'.modconf = c.modconf) ∧ SameFrame c c' := by
  refine items_keep (fun c c' => c'.netconf = c.netconf ∧ c'.modconf = c.modconf)
    (fun _ => ⟨rfl, rfl⟩) (fun _ _ _ h h' => ⟨h'.1.trans h.1, h'.2.trans h.2⟩)
    (fun _ _ _ => ⟨rfl, rfl⟩) (fun p c c' _ h => ?_) hc h
  rw [execAll_singleton] at h
  refine ⟨?_, exec_sameFrame (by simp) (by simp) h⟩
  cases h
  split <;> exact ⟨rfl, rfl⟩

/-- The actions of a definition that has no section leave the records alone. -/
theorem exec_records {a : Act} (h : exec env c a = .ok c')
    (ha : (∃ str, a = .bootDefault str) ∨ (∃ number, a = .timeout number) ∨
      (∃ str, a = .password str) ∨ (∃ d, a = .setup d) ∨ (∃ i str, a = .userinterface i str) ∨
      (∃ i str, a = .userinterfaceSsh i str) ∨ ∃ str, a = .exec str) :
    (c.Clean → c'.Clean) ∧ SameFrame c c' := by
  rcases ha with ⟨_, rfl⟩ | ⟨_, rfl⟩ | ⟨_, rfl⟩ | ⟨_, rfl⟩ | ⟨_, _, rfl⟩ | ⟨_, _, rfl⟩ | ⟨_, rfl⟩
  all_goals
    refine ⟨?_, exec_sameFrame (by simp) (by simp) h⟩
    simp only [exec, enabled, bind, Except.bind, pure, Except.pure] at h
    repeat' split at h
    all_goals first
      | contradiction
      | (cases h; exact fun hclean => hclean)

/-- The action that closes a section initializes its record. -/
theorem exec_setupModule (h : exec env c .setupModule = .ok c') :
    c'.modconf = .init ∧ c'.bentry = c.bentry ∧ c'.netconf = c.netconf := by
  simp only [exec, enabled, bind, Except.bind, pure, Except.pure] at h
  repeat' split at h
  all_goals first
    | contradiction
    | (cases h; exact ⟨rfl, rfl, rfl⟩)

theorem exec_network (h : exec env c .network = .ok c') :
    c'.netconf = .init ∧ c'.bentry = c.bentry ∧ c'.modconf = c.modconf := by
  simp only [exec, enabled, bind, Except.bind, pure, Except.pure] at h
  repeat' split at h
  all_goals first
    | contradiction
    | (cases h; exact ⟨rfl, rfl, rfl⟩)

/-- The title and the label of a boot entry go into the record of the boot entry. -/
theorem titleLabel_keep {title : CStr} {label : Option CStr} {as : List Act}
    (h : execAll env (.title title :: labelActs label ++ as) c = .ok c') :
    ∃ b, execAll env as { c with bentry := b } = .ok c' := by
  cases label <;> exact ⟨_, h⟩

/-- **Every definition leaves the records initialized** and the section counters as they were. -/
theorem definition_clean {d : Definition} (hc : c.Nested) (h : execAll env d.acts c = .ok c') :
    (c.Clean → c'.Clean) ∧ SameFrame c c' := by
  cases d with
  | setupModule params =>
    obtain ⟨c₁, hparams, hend⟩ := execAll_append_eq_ok.mp h
    rw [execAll_singleton] at hend
    obtain ⟨⟨hb, hn⟩, hframe⟩ := modparams_keep hc hparams
    obtain ⟨hmod, hb', hn'⟩ := exec_setupModule hend
    exact ⟨fun hclean => ⟨hb'.trans (hb.trans hclean.1), hn'.trans (hn.trans hclean.2.1), hmod⟩,
      hframe.trans (exec_sameFrame (by simp) (by simp) hend)⟩
  | network params =>
    obtain ⟨c₁, hparams, hend⟩ := execAll_append_eq_ok.mp h
    rw [execAll_singleton] at hend
    obtain ⟨⟨hb, hm⟩, hframe⟩ := netparams_keep hc hparams
    obtain ⟨hnet, hb', hm'⟩ := exec_network hend
    exact ⟨fun hclean => ⟨hb'.trans (hb.trans hclean.1), hnet, hm'.trans (hm.trans hclean.2.2)⟩,
      hframe.trans (exec_sameFrame (by simp) (by simp) hend)⟩
  | bootentry title label options =>
    rw [Definition.acts, List.append_assoc] at h
    obtain ⟨b, h⟩ := titleLabel_keep h
    obtain ⟨c₁, hoptions, hend⟩ := execAll_append_eq_ok.mp h
    rw [execAll_singleton] at hend
    have hb : ({ c with bentry := b } : ParserContext).Nested := hc
    obtain ⟨⟨hn, hm⟩, hframe⟩ := options_keep hb hoptions
    have hend' := exec_sameFrame (by simp) (by simp) hend
    cases hend
    exact ⟨fun hclean => ⟨rfl, hn.trans hclean.2.1, hm.trans hclean.2.2⟩, hframe.trans hend'⟩
  | _ =>
    rw [Definition.acts, execAll_singleton] at h
    exact exec_records h (by simp)

/-- Every list of definitions leaves the records initialized and the counters as they were. -/
theorem config_clean {d : Config} (hc : c.Nested) (h : execAll env d.acts c = .ok c') :
    (c.Clean → c'.Clean) ∧ SameFrame c c' :=
  items_keep (fun c c' => c.Clean → c'.Clean) (fun _ h => h) (fun _ _ _ h h' hc => h' (h hc))
    (fun _ _ _ h => h) (fun _ _ _ hc h => definition_clean hc h) hc h

/-- **At every place among the definitions** the records are initialized, and the depth is that of
the place. -/
theorem before_clean {p : Path Definition} (hc : c.Nested) (hclean : c.Clean)
    (h : execAll env (p.before Definition.acts) c = .ok c') :
    c'.Clean ∧ c'.systemDepth = c.systemDepth + p.depth ∧ c'.args = c.args ∧
      (p.depth = 0 → c'.systemFirstInactive = c.systemFirstInactive) := by
  induction p generalizing c with
  | here rest =>
    cases h
    exact ⟨hclean, rfl, rfl, fun _ => rfl⟩
  | leaf a p ih =>
    obtain ⟨d, hd, h⟩ := execAll_append_eq_ok.mp h
    obtain ⟨hclean', hframe⟩ := definition_clean hc hd
    obtain ⟨h₁, h₂, h₃, h₄⟩ := ih (hframe.nested hc) (hclean' hclean) h
    exact ⟨h₁, by rw [h₂, hframe.1]; rfl, h₃.trans hframe.2.2,
      fun h0 => (h₄ h0).trans hframe.2.1⟩
  | system test body p ih =>
    have hwhole : ((Items.system test body .nil).acts Definition.acts) ++
        p.before Definition.acts = (Path.system test body p).before Definition.acts := by
      simp [Path.before]
    rw [← hwhole] at h
    obtain ⟨d, hd, h⟩ := execAll_append_eq_ok.mp h
    obtain ⟨hclean', hframe⟩ := config_clean (d := .system test body .nil) hc hd
    obtain ⟨h₁, h₂, h₃, h₄⟩ := ih (hframe.nested hc) (hclean' hclean) h
    exact ⟨h₁, by rw [h₂, hframe.1]; rfl, h₃.trans hframe.2.2,
      fun h0 => (h₄ h0).trans hframe.2.1⟩
  | inside test p rest ih =>
    obtain ⟨d, hd, h⟩ := execAll_cons_eq_ok.mp h
    cases hd
    generalize decide (test.Matches env c.executed) = b at h
    obtain ⟨k, hk⟩ := enterSystem_eq c b
    have hclean' : (c.enterSystem b).Clean := hk ▸ hclean
    obtain ⟨h₁, h₂, h₃, _⟩ := ih (enterSystem_nested hc b) hclean' h
    rw [hk] at h₂ h₃
    refine ⟨h₁, ?_, h₃, fun h0 => absurd h0 (Nat.succ_ne_zero _)⟩
    rw [h₂]
    show c.systemDepth + 1 + p.depth = c.systemDepth + (p.depth + 1)
    omega

end Records

/-! ## One list after another -/

/-- What a run of the actions adds to. -/
structure Output where
  bentryList : List CfgBentry
  uiList : List CfgUserinterface
  executed : List Command
  deriving DecidableEq, Repr

instance : Append Output :=
  ⟨fun o p => ⟨o.bentryList ++ p.bentryList, o.uiList ++ p.uiList, o.executed ++ p.executed⟩⟩

/-- What the context has collected. -/
def ParserContext.output (c : ParserContext) : Output :=
  ⟨c.toplevel.bentryList, c.toplevel.uiList, c.executed⟩

/-- `c'` is `c` with `o` collected before, and maybe another default, timeout and password. -/
structure After (o : Output) (c c' : ParserContext) : Prop where
  frame : SameFrame c c'
  bentry : c'.bentry = c.bentry
  netconf : c'.netconf = c.netconf
  modconf : c'.modconf = c.modconf
  output : c'.output = o ++ c.output

section Compose

variable {o : Output} {c c' : ParserContext}

theorem After.active (h : After o c c') : c'.active = c.active := by
  unfold ParserContext.active
  rw [h.frame.1, h.frame.2.1]

theorem After.uimode (h : After o c c') : c'.uimode = c.uimode := by
  unfold ParserContext.uimode
  rw [h.frame.2.2]

theorem After.enabled (h : After o c c') : c'.enabled = c.enabled := by
  unfold ParserContext.enabled
  rw [h.uimode, h.active]

theorem After.ite (h : After o c c') {d d' e e' : ParserContext} (hd : After o d d')
    (he : After o e e') :
    After o (if c.active then d else e) (if c'.active then d' else e') := by
  rw [h.active]
  split
  · exact hd
  · exact he

theorem After.execute (h : After o c c') (cmd : Command) :
    After o (c.execute cmd) (c'.execute cmd) := by
  obtain ⟨hbs, hus, hx⟩ := Output.mk.inj h.output
  refine ⟨h.frame, h.bentry, h.netconf, h.modconf, Output.mk.injEq .. ▸ ⟨hbs, hus, ?_⟩⟩
  show c'.executed ++ [cmd] = o.executed ++ (c.executed ++ [cmd])
  rw [hx, ← List.append_assoc]
  rfl

theorem After.addUserinterface (h : After o c c') (ui : CfgUserinterface) :
    After o { c with toplevel := c.toplevel.addUserinterface ui }
      { c' with toplevel := c'.toplevel.addUserinterface ui } := by
  obtain ⟨hbs, hus, hx⟩ := Output.mk.inj h.output
  refine ⟨h.frame, h.bentry, h.netconf, h.modconf, Output.mk.injEq .. ▸ ⟨hbs, ?_, hx⟩⟩
  show c'.toplevel.uiList ++ [ui] = o.uiList ++ (c.toplevel.uiList ++ [ui])
  rw [hus, ← List.append_assoc]
  rfl

theorem After.addBentry (h : After o c c') :
    After o { c with toplevel := c.toplevel.addBentry c.bentry, bentry := .init }
      { c' with toplevel := c'.toplevel.addBentry c'.bentry, bentry := .init } := by
  obtain ⟨hbs, hus, hx⟩ := Output.mk.inj h.output
  refine ⟨h.frame, rfl, h.netconf, h.modconf, Output.mk.injEq .. ▸ ⟨?_, hus, hx⟩⟩
  show c'.toplevel.bentryList ++ [c'.bentry] = o.bentryList ++ (c.toplevel.bentryList ++ [c.bentry])
  rw [h.bentry, hbs, ← List.append_assoc]
  rfl

theorem After.mapBentry (h : After o c c') (f : CfgBentry → CfgBentry) :
    After o { c with bentry := f c.bentry } { c' with bentry := f c'.bentry } :=
  ⟨h.frame, congrArg f h.bentry, h.netconf, h.modconf, h.output⟩

theorem After.mapNetconf (h : After o c c') (f : NbConf → NbConf) :
    After o { c with netconf := f c.netconf } { c' with netconf := f c'.netconf } :=
  ⟨h.frame, h.bentry, congrArg f h.netconf, h.modconf, h.output⟩

theorem After.mapModconf (h : After o c c') (f : MbConf → MbConf) :
    After o { c with modconf := f c.modconf } { c' with modconf := f c'.modconf } :=
  ⟨h.frame, h.bentry, h.netconf, congrArg f h.modconf, h.output⟩

theorem After.loadModule (h : After o c c') : After o c.loadModule c'.loadModule := by
  unfold ParserContext.loadModule
  rw [h.modconf]
  exact (h.execute _).mapModconf fun _ => .init

theorem After.enableNetwork (h : After o c c') : After o c.enableNetwork c'.enableNetwork := by
  unfold ParserContext.enableNetwork
  rw [h.netconf]
  exact (h.execute _).mapNetconf fun _ => .init

theorem After.enterSystem (h : After o c c') (b : Bool) :
    After o (c.enterSystem b) (c'.enterSystem b) := by
  unfold ParserContext.enterSystem
  dsimp only
  have hactive : ParserContext.active { c' with systemDepth := c'.systemDepth + 1 } =
      ParserContext.active { c with systemDepth := c.systemDepth + 1 } := by
    unfold ParserContext.active
    rw [h.frame.1, h.frame.2.1]
  rw [hactive]
  split
  · exact ⟨⟨congrArg (· + 1) h.frame.1, congrArg (· + 1) h.frame.1, h.frame.2.2⟩, h.bentry, h.netconf,
      h.modconf, h.output⟩
  · exact ⟨⟨congrArg (· + 1) h.frame.1, h.frame.2.1, h.frame.2.2⟩, h.bentry, h.netconf, h.modconf,
      h.output⟩

theorem After.exitSystem (h : After o c c') : After o c.exitSystem c'.exitSystem := by
  unfold ParserContext.exitSystem
  dsimp only
  rw [h.frame.1, h.frame.2.1]
  split
  · exact ⟨⟨rfl, rfl, h.frame.2.2⟩, h.bentry, h.netconf, h.modconf, h.output⟩
  · exact ⟨⟨congrArg (· - 1) h.frame.1, h.frame.2.1, h.frame.2.2⟩, h.bentry, h.netconf, h.modconf,
      h.output⟩

/-- Two contexts that differ in what was collected before end alike. -/
def SameEnd (o : Output) : Except Stop ParserContext → Except Stop ParserContext → Prop
  | .ok c, .ok c' => After o c c'
  | .error e, .error e' => e = e'
  | _, _ => False

theorem SameEnd.bind {β : Type} {x y : Except Stop β} (hxy : y = x)
    {f g : β → Except Stop ParserContext} (h : ∀ b, SameEnd o (f b) (g b)) :
    SameEnd o (x >>= f) (y >>= g) := by
  subst hxy
  cases y with
  | error e => exact (rfl : e = e)
  | ok b => exact h b

theorem SameEnd.ite (b : Bool) {x x' y y' : Except Stop ParserContext} (hx : SameEnd o x x')
    (hy : SameEnd o y y') : SameEnd o (if b then x else y) (if b then x' else y') := by
  cases b
  · exact hy
  · exact hx

/-- **An action does the same after whatever was collected before.** -/
theorem After.exec (a : Answers) (h : After o c c') (act : Act) :
    SameEnd o (Parser.exec a.env c act) (Parser.exec a.env c' act) := by
  have hsame : ∀ {e e' s s' : CStr} {t t' : CfgToplevel},
      t.bentryList = c.toplevel.bentryList → t.uiList = c.toplevel.uiList →
      t'.bentryList = c'.toplevel.bentryList → t'.uiList = c'.toplevel.uiList →
      After o { c with errmsg := e, bootDefault := s, toplevel := t }
        { c' with errmsg := e', bootDefault := s', toplevel := t' } := by
    intro e e' s s' t t' hb hu hb' hu'
    refine ⟨h.frame, h.bentry, h.netconf, h.modconf, ?_⟩
    rw [ParserContext.output, ParserContext.output, hb, hu, hb', hu']
    exact h.output
  cases act with
  | bootDefault str => exact h.ite (hsame rfl rfl rfl rfl) h
  | timeout number =>
    refine SameEnd.bind h.uimode fun onlyUi => ?_
    rw [h.active]
    exact .ite _ (hsame rfl rfl rfl rfl) (hsame rfl rfl rfl rfl)
  | password str => exact h.ite (hsame rfl rfl rfl rfl) h
  | setupModule =>
    exact SameEnd.bind h.enabled fun b => .ite b h.loadModule (h.mapModconf fun _ => .init)
  | modparam p => exact h.ite (h.mapModconf fun m => p.set m) h
  | setup d => exact SameEnd.bind h.enabled fun b => .ite b (h.execute _) h
  | network =>
    exact SameEnd.bind h.enabled fun b => .ite b h.enableNetwork (h.mapNetconf fun _ => .init)
  | netparam p => exact h.ite (h.mapNetconf fun n => p.set n) h
  | userinterface ident str =>
    simp only [Parser.exec]
    rw [h.active]
    refine .ite _ (SameEnd.bind h.uimode fun onlyUi => ?_) h
    cases onlyUi with
    | none => exact h.addUserinterface _
    | some _ => exact h
  | userinterfaceSsh ident str =>
    simp only [Parser.exec]
    rw [h.active]
    refine .ite _ (SameEnd.bind h.uimode fun onlyUi => ?_) h
    cases onlyUi with
    | none => exact h.addUserinterface _
    | some onlyUi =>
      dsimp only
      split
      · exact h.addUserinterface _
      · exact h
  | exec str => exact SameEnd.bind h.enabled fun b => .ite b (h.execute _) h
  | bootentry =>
    show After o _ _
    rw [h.active]
    cases c.active
    · exact h.mapBentry fun _ => .init
    · exact h.addBentry
  | title str => exact h.mapBentry fun b => { b with title := str }
  | label str => exact h.mapBentry fun b => { b with label := str }
  | option o => exact h.ite (h.mapBentry fun b => o.set b) h
  | enterSystem l =>
    show After o (c.enterSystem _) (c'.enterSystem _)
    rw [← matches_answers a l c.executed c'.executed]
    exact h.enterSystem _
  | exitSystem => exact h.exitSystem
  | ksetSetup d => exact h.execute _
  | ksetMod ident =>
    exact After.loadModule (h.mapModconf fun m => { m with name := ident })
  | netrest p => exact h.mapNetconf fun n => p.set n
  | netEnable => exact h.enableNetwork

theorem After.execAll (a : Answers) (as : List Act) (h : After o c c') :
    SameEnd o (Parser.execAll a.env as c) (Parser.execAll a.env as c') := by
  induction as generalizing c c' with
  | nil => exact h
  | cons act as ih =>
    have hact := h.exec a act
    rw [execAll_cons, execAll_cons]
    cases hc : Parser.exec a.env c act with
    | error e =>
      cases hc' : Parser.exec a.env c' act with
      | error e' => rw [hc, hc'] at hact; exact hact
      | ok d' => rw [hc, hc'] at hact; exact hact.elim
    | ok d =>
      cases hc' : Parser.exec a.env c' act with
      | error e' => rw [hc, hc'] at hact; exact hact.elim
      | ok d' =>
        rw [hc, hc'] at hact
        exact ih hact

theorem after_init (args : Option CStr) {c : ParserContext} (hclean : c.Clean)
    (hframe : SameFrame (.init args) c) : After c.output (.init args) c := by
  obtain ⟨hb, hn, hm⟩ := hclean
  refine ⟨hframe, hb, hn, hm, ?_⟩
  show c.output = c.output ++ ⟨[], [], []⟩
  exact Output.mk.injEq .. ▸
    ⟨(List.append_nil _).symm, (List.append_nil _).symm, (List.append_nil _).symm⟩

end Compose

/-- **Definition lists compose.** What two lists, one after the other, collect and execute is what
the first does and then what the second does from the initial context. At every place in a list the
records are initialized, before and behind each definition, and the depth is that of the place; so
behind a definition that is in no section the counters have their initial values. -/
theorem definitions_compose (a : Answers) (args : Option CStr) :
    (∀ d₁ d₂ : Config, (execAll a.env (Config.acts (d₁ ++ d₂)) (.init args)).map output = do
      let o₁ ← (execAll a.env d₁.acts (.init args)).map output
      let o₂ ← (execAll a.env d₂.acts (.init args)).map output
      pure (o₁ ++ o₂)) ∧
    ∀ (p : Path Definition) (d : Definition) (c c' : ParserContext),
      execAll a.env (p.before Definition.acts) (.init args) = .ok c →
      execAll a.env d.acts c = .ok c' →
      c.Clean ∧ c'.Clean ∧ c.systemDepth = p.depth ∧ c'.systemDepth = p.depth ∧
        (p.depth = 0 → c'.systemFirstInactive = maxSystemDepth) := by
  constructor
  · intro d₁ d₂
    have hacts : Config.acts (d₁ ++ d₂) = d₁.acts ++ d₂.acts := Items.acts_append _ d₁ d₂
    rw [hacts, execAll_append]
    cases h₁ : execAll a.env d₁.acts (.init args) with
    | error e => rfl
    | ok c₁ =>
      obtain ⟨hclean, hframe⟩ := config_clean (nested_init args) h₁
      have hend := (after_init args (hclean ⟨rfl, rfl, rfl⟩) hframe).execAll a d₂.acts
      show (execAll a.env d₂.acts c₁).map output = do
        let o₂ ← (execAll a.env d₂.acts (.init args)).map output
        pure (c₁.output ++ o₂)
      cases h₂ : execAll a.env d₂.acts (.init args) with
      | error e =>
        cases h₂' : execAll a.env d₂.acts c₁ with
        | error e' => rw [h₂, h₂'] at hend; exact congrArg Except.error hend.symm
        | ok c' => rw [h₂, h₂'] at hend; exact hend.elim
      | ok c₂ =>
        cases h₂' : execAll a.env d₂.acts c₁ with
        | error e' => rw [h₂, h₂'] at hend; exact hend.elim
        | ok c' => rw [h₂, h₂'] at hend; exact congrArg Except.ok hend.output
  · intro p d c c' hbefore hd
    obtain ⟨hclean, hdepth, _, hfirst⟩ := before_clean (nested_init args) ⟨rfl, rfl, rfl⟩ hbefore
    have hdepth' : c.systemDepth = p.depth := hdepth.trans (Nat.zero_add _)
    obtain ⟨hclean', hframe⟩ := definition_clean (execAll_nested (nested_init args) hbefore) hd
    exact ⟨hclean, hclean' hclean, hdepth', hframe.1.trans hdepth',
      fun h0 => hframe.2.1.trans (hfirst h0)⟩

/-- A boot entry that reboots. -/
def rebootDefinition : Definition := .bootentry ['r'] none (.leaf .reboot .nil)

theorem definitions_compose_reboot :
    let a : Answers := ⟨[], fun _ => false, fun _ => none⟩
    let entry : CfgBentry := { CfgBentry.init with title := ['r'], action := .reboot }
    ((execAll a.env (Config.acts (.leaf rebootDefinition .nil ++ .leaf rebootDefinition .nil))
        (.init (some []))).map output = .ok ⟨[entry, entry], [], []⟩) ∧
      ∃ c', execAll a.env rebootDefinition.acts (.init (some [])) = .ok c' ∧ c'.Clean := by
  intro a entry
  have hcompose := definitions_compose a (some [])
  refine ⟨(hcompose.1 _ _).trans rfl, _, rfl, ?_⟩
  exact (hcompose.2 (.here .nil) rebootDefinition _ _ rfl rfl).2.1

end Sysload.Parser
