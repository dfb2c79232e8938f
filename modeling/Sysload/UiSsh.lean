import Sysload.Parser.Scanner

/-!
# The options of the ssh user interface (`sysload.conf.y`, `ui_control.c`, `ui_ssh.c`)

The rest of a line `userinterface ssh <ui> ...` becomes the command line of the user interface `ssh`.
`userinterface()` starts `ui_ssh` with all of it as one argument; `get_value()` in `ui_ssh` looks for
an argument that begins with the key, and returns what follows.

Source: `src/core/sysload.conf.y`, the rule for `userinterface ssh`; `src/core/ui_control.c`,
`userinterface`; `src/core/ui_ssh.c`, `get_value`. Out of scope are `assemble_key_param` and the
start of `sshd`.

Results:
* `strmode_optionLine`, `exec_userinterfaceSsh`: the option line comes into the configuration as it is.
* `delivered_iff`: what `get_value()` makes of the line.
* **`options_delivered_iff`**: every option is delivered if there is only one.
-/

namespace Sysload.UiSsh

open Sysload.Parser

/-! ## From the configuration to the module -/

/-- `CFG_DEFAULTPATH`. -/
def cfgDefaultpath : CStr := "/usr/sysload".toList

/-- `UI_MODULE_PATH`. -/
def uiModulePath : CStr := "ui".toList

/-- The file that `userinterface()` executes for a user interface. `path` is the value of `CFG_PATH`. -/
def moduleCall (path : CStr) (ui : CfgUserinterface) : CStr :=
  (if path.length = 0 then cfgDefaultpath else path) ++ "/".toList ++ uiModulePath ++
    "/ui_".toList ++ ui.module

/-- `strrchr(str, '/') + 1`. -/
def behindSlash (str : CStr) : CStr := (str.reverse.takeWhile fun c => c != '/').reverse

/-- The arguments with which `userinterface()` executes it. -/
def execlArgv (path : CStr) (ui : CfgUserinterface) : List CStr :=
  [behindSlash (moduleCall path ui), ui.cmdline]

/-- `get_value` of `ui_ssh`. -/
def getValue (key : CStr) : List CStr → Option CStr
  | [] => none
  | str :: list =>
    if key.isPrefixOf str then
      match str.drop key.length with
      | '=' :: value => some value
      -- a blank instead of a '=': the value is the next argument
      | [] => list.head?
      | rest => some rest
    else getValue key list

/-! ## Option lines -/

/-- An option as it is written. -/
def optionText (option : CStr × CStr) : CStr := option.1 ++ '=' :: option.2

/-- An option line. -/
def optionLine : List (CStr × CStr) → CStr
  | [] => []
  | [option] => optionText option
  | option :: options => optionText option ++ ' ' :: optionLine options

/-- The name of the module, its first argument. -/
def moduleName : CStr := "ui_ssh".toList

/-- Neither a blank nor the end of a line or of a string. -/
def Plain (str : CStr) : Prop := ∀ c ∈ str, whitespace.mem c = false ∧ c ≠ '\n' ∧ c ≠ nul

theorem plain_iff_all {str : CStr} :
    (str.all fun c => !whitespace.mem c && c != '\n' && c != nul) = true ↔ Plain str := by
  simp [Plain, and_assoc]

instance (str : CStr) : Decidable (Plain str) := decidable_of_iff _ plain_iff_all

/-- Neither key is a prefix of the other. -/
def Apart (key key' : CStr) : Prop := ¬ key <+: key' ∧ ¬ key' <+: key

instance (key key' : CStr) : Decidable (Apart key key') := inferInstanceAs (Decidable (_ ∧ _))

/-- Options with plain keys and values, no key a prefix of another key or of the module name. -/
structure ValidOptions (options : List (CStr × CStr)) : Prop where
  nonempty : options ≠ []
  plain : ∀ option ∈ options, Plain option.1 ∧ Plain option.2
  apart : options.Pairwise fun option option' => Apart option.1 option'.1
  moduleName : ∀ option ∈ options, ¬ option.1 <+: moduleName

/-- Every option is found with its value, and no other key is found. -/
def Delivered (options : List (CStr × CStr)) (argv : List CStr) : Prop :=
  (∀ option ∈ options, getValue option.1 argv = some option.2) ∧
    ∀ key, ¬ key <+: moduleName → (∀ option ∈ options, Apart key option.1) →
      getValue key argv = none

/-- What begins with a string that has a slash only in front of a name ends in that name. -/
theorem behindSlash_append (path name : CStr) (h : '/' ∉ name) :
    behindSlash (path ++ '/' :: name) = name := by
  have hall : ∀ c ∈ name.reverse, (c != '/') = true := by
    intro c hc
    exact bne_iff_ne.mpr fun heq => h (heq ▸ List.mem_reverse.mp hc)
  unfold behindSlash
  rw [List.reverse_append, List.reverse_cons, List.append_assoc,
    List.takeWhile_append_of_pos hall, List.singleton_append, List.takeWhile_cons_of_neg (by decide),
    List.append_nil, List.reverse_reverse]

/-- **`ui_ssh` is started with its name and the whole command line.** -/
theorem execlArgv_ssh (path line : CStr) :
    execlArgv path ⟨"ssh".toList, line⟩ = [moduleName, line] := by
  have hcall : moduleCall path ⟨"ssh".toList, line⟩ =
      ((if path.length = 0 then cfgDefaultpath else path) ++ "/".toList ++ uiModulePath) ++
        '/' :: moduleName := by
    unfold moduleCall
    rw [List.append_assoc]
    rfl
  rw [execlArgv, hcall, behindSlash_append _ _ (by decide)]

/-! ## The lookup -/

theorem getValue_cons_other {key str : CStr} (h : ¬ key <+: str) (list : List CStr) :
    getValue key (str :: list) = getValue key list := by
  rw [getValue, if_neg (by rwa [List.isPrefixOf_iff_prefix])]

/-- An argument that begins with the key and a `=` is found, with all that follows. -/
theorem getValue_assignment (key rest : CStr) (list : List CStr) :
    getValue key ((key ++ '=' :: rest) :: list) = some rest := by
  rw [getValue, if_pos (List.isPrefixOf_iff_prefix.mpr (List.prefix_append _ _)),
    List.drop_left]
  rfl

theorem optionLine_cons (option : CStr × CStr) (options : List (CStr × CStr)) :
    ∃ behind, optionLine (option :: options) = option.1 ++ '=' :: (option.2 ++ behind) ∧
      (behind = [] ↔ options = []) := by
  cases options with
  | nil => exact ⟨[], by simp [optionLine, optionText], by simp⟩
  | cons option' options =>
    exact ⟨' ' :: optionLine (option' :: options), by simp [optionLine, optionText], by simp⟩

/-- **In the module** every option is found if there is only one. -/
theorem delivered_iff {options : List (CStr × CStr)} (h : ValidOptions options) :
    Delivered options [moduleName, optionLine options] ↔ options.length = 1 := by
  obtain ⟨⟨key, value⟩, rest, rfl⟩ := List.exists_cons_of_ne_nil h.nonempty
  obtain ⟨behind, hline, hbehind⟩ := optionLine_cons (key, value) rest
  have hfirst : getValue key [moduleName, optionLine ((key, value) :: rest)] =
      some (value ++ behind) := by
    rw [getValue_cons_other (h.moduleName _ List.mem_cons_self), hline]
    exact getValue_assignment key (value ++ behind) []
  have hone : ((key, value) :: rest).length = 1 ↔ behind = [] := by
    rw [List.length_cons, Nat.succ_inj, List.length_eq_zero_iff, hbehind]
  rw [hone]
  constructor
  · intro hdelivered
    have hvalue := hdelivered.1 _ List.mem_cons_self
    rw [hfirst] at hvalue
    exact List.append_right_eq_self.mp (Option.some.inj hvalue)
  · intro hnil
    obtain rfl := hbehind.mp hnil
    refine ⟨fun option hoption => ?_, fun absent hname hapart => ?_⟩
    · obtain rfl := List.mem_singleton.mp hoption
      rw [hfirst, hnil, List.append_nil]
    · obtain ⟨hnot, hnot'⟩ := hapart _ List.mem_cons_self
      have hline' : ¬ absent <+: optionLine [(key, value)] := by
        rw [hline]
        intro hprefix
        rcases List.prefix_or_prefix_of_prefix hprefix (List.prefix_append key _) with h' | h'
        · exact hnot h'
        · exact hnot' h'
      rw [getValue_cons_other hname, getValue_cons_other hline']
      rfl

/-! ## The way of an option line -/

/-- An option line is one line, and does not begin with a blank. -/
theorem ValidOptions.line {options : List (CStr × CStr)} (h : ValidOptions options) :
    (∀ c ∈ optionLine options, c ≠ '\n' ∧ c ≠ nul) ∧
      ∃ c rest, optionLine options = c :: rest ∧ whitespace.mem c = false := by
  constructor
  · have htext : ∀ option ∈ options, ∀ c ∈ optionText option, c ≠ '\n' ∧ c ≠ nul := by
      intro option hoption c hc
      rcases List.mem_append.mp hc with hkey | hvalue
      · exact ((h.plain option hoption).1 c hkey).2
      · rcases List.mem_cons.mp hvalue with rfl | hvalue
        · exact ⟨by decide, by decide⟩
        · exact ((h.plain option hoption).2 c hvalue).2
    clear h
    induction options with
    | nil => exact fun c hc => absurd hc List.not_mem_nil
    | cons option options ih =>
      cases options with
      | nil => exact htext option List.mem_cons_self
      | cons option' options =>
        intro c hc
        rcases List.mem_append.mp hc with hc | hc
        · exact htext option List.mem_cons_self c hc
        · rcases List.mem_cons.mp hc with rfl | hc
          · exact ⟨by decide, by decide⟩
          · exact ih (fun o ho => htext o (List.mem_cons_of_mem _ ho)) c hc
  · obtain ⟨⟨key, value⟩, rest, rfl⟩ := List.exists_cons_of_ne_nil h.nonempty
    obtain ⟨behind, hline, _⟩ := optionLine_cons (key, value) rest
    cases key with
    | nil => exact absurd List.nil_prefix (h.moduleName _ List.mem_cons_self)
    | cons c key =>
      exact ⟨c, _, hline, ((h.plain _ List.mem_cons_self).1 c List.mem_cons_self).1⟩

/-- **The scanner** returns an option line as it is written, without the blanks in front. -/
theorem strmode_optionLine {options : List (CStr × CStr)} (h : ValidOptions options) {s : Scanner}
    {active : Bool} {load : CStr → Option (List Char)} {blanks rest : List Char}
    (hmode : s.mode = .strmode) (htext : s.text = blanks ++ optionLine options ++ '\n' :: rest)
    (hblanks : ∀ b ∈ blanks, whitespace.mem b = true) :
    ∃ yytext, (s.flexStep active load).2 = some (.token ⟨.tString, optionLine options⟩ yytext) := by
  obtain ⟨hplain, c, tail, hhead, hc⟩ := h.line
  have hblank : ∀ b ∈ blanks, b ≠ '\n' ∧ b ≠ nul := by
    intro b hb
    constructor
    · rintro rfl
      exact absurd (hblanks _ hb) (by decide)
    · rintro rfl
      exact absurd (hblanks _ hb) (by decide)
  have hmem : ∀ x ∈ blanks ++ optionLine options, x ≠ '\n' ∧ x ≠ nul := fun x hx =>
    (List.mem_append.mp hx).elim (hblank x) (hplain x)
  have hnewline : '\n' ∉ blanks ++ optionLine options := fun hx => (hmem _ hx).1 rfl
  have hnul : nul ∉ blanks ++ optionLine options := fun hx => (hmem _ hx).2 rfl
  have hdrop : dropBlanks (blanks ++ optionLine options) = optionLine options := by
    rw [dropBlanks, List.dropWhile_append_of_pos hblanks, hhead]
    exact List.dropWhile_cons_of_neg (by rw [hc]; exact Bool.false_ne_true)
  have hstep := @Scanner.flexStep_strmode active load s hmode _ rest hnewline htext
  rw [cstr_eq_self hnul, hdrop] at hstep
  exact ⟨_, by rw [hstep]⟩

/-- **The grammar** adds the user interface, when it is not started for one only. -/
theorem exec_userinterfaceSsh {env : Env} {c : ParserContext} {ui line : CStr}
    (hactive : c.active = true) (hnormal : c.uimode = .ok none) :
    exec env c (.userinterfaceSsh ui line) =
      .ok { c with toplevel := c.toplevel.addUserinterface ⟨"ssh".toList, line⟩ } := by
  simp only [exec, if_pos hactive, hnormal]
  rfl

/-- **The options of a line `userinterface ssh`** all reach `ui_ssh` if there is only one. -/
theorem options_delivered_iff {options : List (CStr × CStr)} (h : ValidOptions options)
    {env : Env} {c : ParserContext} {s : Scanner} {load : CStr → Option (List Char)}
    {blanks rest : List Char} (ui path : CStr) (hactive : c.active = true)
    (hnormal : c.uimode = .ok none) (hmode : s.mode = .strmode)
    (htext : s.text = blanks ++ optionLine options ++ '\n' :: rest)
    (hblanks : ∀ b ∈ blanks, whitespace.mem b = true) :
    ∃ line yytext c' entry,
      (s.flexStep c.active load).2 = some (.token ⟨.tString, line⟩ yytext) ∧
      exec env c (.userinterfaceSsh ui line) = .ok c' ∧
      c'.toplevel.uiList = c.toplevel.uiList ++ [entry] ∧
      (Delivered options (execlArgv path entry) ↔ options.length = 1) := by
  obtain ⟨yytext, htoken⟩ := @strmode_optionLine options h _ c.active load _ _ hmode htext hblanks
  refine ⟨_, yytext, _, ⟨"ssh".toList, optionLine options⟩, htoken,
    exec_userinterfaceSsh hactive hnormal, rfl, ?_⟩
  rw [execlArgv_ssh]
  exact delivered_iff h

/-- A port and a key. -/
def portAndKey : List (CStr × CStr) :=
  [("port".toList, "2222".toList), ("rsa_key".toList, "ftp://host/key".toList)]

theorem portAndKey_valid : ValidOptions portAndKey where
  nonempty := List.cons_ne_nil _ _
  plain := fun option hmem => by
    rcases List.mem_pair.mp hmem with rfl | rfl
    · exact ⟨plain_iff_all.mp rfl, plain_iff_all.mp rfl⟩
    · exact ⟨plain_iff_all.mp rfl, plain_iff_all.mp rfl⟩
  apart := List.pairwise_pair.mpr (by decide)
  moduleName := fun option hmem => by
    rcases List.mem_pair.mp hmem with rfl | rfl
    · decide
    · decide

/-- The rule holds of these options, in a new parser. -/
theorem options_delivered_iff_portAndKey :
    ∃ line yytext c' entry,
      ((⟨.strmode, 1, " ".toList ++ optionLine portAndKey ++ "\n".toList, []⟩ : Scanner).flexStep
        (ParserContext.init (some [])).active fun _ => none).2 =
          some (.token ⟨.tString, line⟩ yytext) ∧
      exec ⟨[], fun _ _ => false, fun _ _ => none⟩ (.init (some []))
        (.userinterfaceSsh "linemode".toList line) = .ok c' ∧
      c'.toplevel.uiList = [entry] ∧
      (Delivered portAndKey (execlArgv [] entry) ↔ portAndKey.length = 1) :=
  options_delivered_iff portAndKey_valid "linemode".toList [] rfl rfl rfl rfl fun b hb => by
    rw [List.mem_singleton.mp hb]
    rfl

/-- **Two options**: the port is the rest of the line, and the key is not found. -/
theorem portAndKey_notDelivered :
    getValue "port".toList (execlArgv [] ⟨"ssh".toList, optionLine portAndKey⟩) =
      some "2222 rsa_key=ftp://host/key".toList ∧
    getValue "rsa_key".toList (execlArgv [] ⟨"ssh".toList, optionLine portAndKey⟩) = none ∧
    ¬ Delivered portAndKey (execlArgv [] ⟨"ssh".toList, optionLine portAndKey⟩) := by
  refine ⟨by decide, by decide, fun hdelivered => ?_⟩
  rw [execlArgv_ssh, delivered_iff portAndKey_valid] at hdelivered
  exact absurd hdelivered (by decide)

end Sysload.UiSsh
