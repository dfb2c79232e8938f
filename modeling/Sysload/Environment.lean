import Sysload.Config
import Mathlib.Data.List.Nodup
import Mathlib.Logic.Function.Basic

/-!
# The configuration in the process environment (`config.c`)

`cfg_set_env` writes a configuration to the environment of the process, where the user interfaces
find it (`cfg_get_env`). The environment is a map from names to values; `putenv` takes the name up to
the first `=`.

* The variables of boot entry `i` are `SYSLOAD_B<i>_<NAME>`. `indexed_injective` tells them
  apart, for an index without a bound.
* `cfg_set_env` is a list of assignments (`toplevelAssignments`, `bentryAssignments`) with one value for
  each name.
* The integers of a configuration are of type `int` in C, and without a bound here. So `%d` reads the
  number that was printed, and does not cut it to 32 bits; for an `int` this is the same
  (`scanInt_printInt`).

Source: `src/core/config.c`, `cfg_set_env` and `cfg_get_env` with the functions they call. Out of
scope are the memory of the environment and a `putenv` that fails.

Results:
* `assignAll_get`: a list of assignments without two values for one name sets each of them.
* **`cfgGetEnv_cfgSetEnv`**: what is read back is what was written, whatever was there before.
-/

namespace Sysload

/-! ## The environment -/

/-- The environment of a process. -/
abbrev Environ := CStr → Option CStr

/-- `putenv("name=value")`. -/
def putenv (str : CStr) (env : Environ) : Environ :=
  Function.update env (str.takeWhile fun c => c != '=')
    (some ((str.dropWhile fun c => c != '=').drop 1))

/-- `CFG_PREFIX`. -/
def cfgPrefix : CStr := "SYSLOAD".toList

/-- `"%s_%s"` with the common beginning of all names. -/
def envName (name : CStr) : CStr := cfgPrefix ++ '_' :: name

/-- `"B%d_%s"`. -/
def indexed (name : CStr) (index : Nat) : CStr := 'B' :: Nat.toDigits 10 index ++ '_' :: name

/-- `cfg_set_env_str`. -/
def cfgSetEnvStr (name value : CStr) (env : Environ) : Environ :=
  putenv (envName name ++ '=' :: value) env

/-- `cfg_set_env_int`. -/
def cfgSetEnvInt (name : CStr) (value : Int) (env : Environ) : Environ :=
  putenv (envName name ++ '=' :: printInt value) env

/-- `cfg_get_env_str`: `value` stays as it is where the variable does not exist. -/
def cfgGetEnvStr (env : Environ) (name value : CStr) : CStr :=
  match env (envName name) with
  | some outstr => outstr
  | none => value

/-- `cfg_get_env_int`. -/
def cfgGetEnvInt (env : Environ) (name : CStr) (value : Int) : Int :=
  match env (envName name) with
  | some outstr => (scanNumber outstr).getD value
  | none => value

/-- `cfg_set_env_str_i`. -/
def cfgSetEnvStrI (name : CStr) (index : Nat) (value : CStr) (env : Environ) : Environ :=
  cfgSetEnvStr (indexed name index) value env

/-- `cfg_set_env_int_i`. -/
def cfgSetEnvIntI (name : CStr) (index : Nat) (value : Int) (env : Environ) : Environ :=
  cfgSetEnvInt (indexed name index) value env

/-- `cfg_get_env_str_i`. -/
def cfgGetEnvStrI (env : Environ) (name : CStr) (index : Nat) (value : CStr) : CStr :=
  cfgGetEnvStr env (indexed name index) value

/-- `cfg_get_env_int_i`. -/
def cfgGetEnvIntI (env : Environ) (name : CStr) (index : Nat) (value : Int) : Int :=
  cfgGetEnvInt env (indexed name index) value

/-- The integer that stands for a boot action. -/
def BootAction.toInt : BootAction → Int
  | kernelBoot => 0
  | insfileBoot => 1
  | bootmapBoot => 2
  | reboot => 3
  | halt => 4
  | shell => 5
  | exit => 6

/-- The boot action an integer stands for; `action` is kept where there is none. -/
def BootAction.ofInt (n : Int) (action : BootAction) : BootAction :=
  match n with
  | 0 => .kernelBoot
  | 1 => .insfileBoot
  | 2 => .bootmapBoot
  | 3 => .reboot
  | 4 => .halt
  | 5 => .shell
  | 6 => .exit
  | _ => action

theorem BootAction.ofInt_toInt (a b : BootAction) : BootAction.ofInt a.toInt b = a := by
  cases a <;> rfl

/-- The body of the loop of `cfg_set_env`. -/
def cfgSetEnvBentry (i : Nat) (b : CfgBentry) (env : Environ) : Environ :=
  let env := cfgSetEnvStrI "TITLE".toList i b.title env
  let env := cfgSetEnvStrI "LABEL".toList i b.label env
  let env := cfgSetEnvStrI "ROOT".toList i b.root env
  let env := cfgSetEnvStrI "KERNEL".toList i b.kernel env
  let env := cfgSetEnvStrI "INITRD".toList i b.initrd env
  let env := cfgSetEnvStrI "CMDLINE".toList i b.cmdline env
  let env := cfgSetEnvStrI "PARMFILE".toList i b.parmfile env
  let env := cfgSetEnvStrI "INSFILE".toList i b.insfile env
  let env := cfgSetEnvStrI "BOOTMAP".toList i b.bootmap env
  let env := cfgSetEnvIntI "LOCKED".toList i b.locked env
  let env := cfgSetEnvStrI "PAUSE".toList i b.pause env
  cfgSetEnvIntI "ACTION".toList i b.action.toInt env

/-- The loop of `cfg_set_env`, from entry `i` on. -/
def cfgSetEnvBentries : Nat → List CfgBentry → Environ → Environ
  | _, [], env => env
  | i, b :: bs, env => cfgSetEnvBentries (i + 1) bs (cfgSetEnvBentry i b env)

/-- `cfg_set_env`. -/
def cfgSetEnv (config : CfgToplevel) (env : Environ) : Environ :=
  let env := cfgSetEnvStr "VERSION".toList "1.0".toList env
  let env := cfgSetEnvInt "DEFAULT".toList config.bootDefault env
  let env := cfgSetEnvInt "TIMEOUT".toList config.timeout env
  let env := cfgSetEnvStr "PASSWORD".toList config.password env
  let env := cfgSetEnvInt "BENTRY_COUNT".toList config.bentryList.length env
  cfgSetEnvBentries 0 config.bentryList env

/-- The body of the loop of `cfg_get_env`: a new entry, filled in. -/
def cfgGetEnvBentry (env : Environ) (i : Nat) : CfgBentry :=
  let b := CfgBentry.init
  { title := cfgGetEnvStrI env "TITLE".toList i b.title
    label := cfgGetEnvStrI env "LABEL".toList i b.label
    root := cfgGetEnvStrI env "ROOT".toList i b.root
    kernel := cfgGetEnvStrI env "KERNEL".toList i b.kernel
    initrd := cfgGetEnvStrI env "INITRD".toList i b.initrd
    cmdline := cfgGetEnvStrI env "CMDLINE".toList i b.cmdline
    parmfile := cfgGetEnvStrI env "PARMFILE".toList i b.parmfile
    insfile := cfgGetEnvStrI env "INSFILE".toList i b.insfile
    bootmap := cfgGetEnvStrI env "BOOTMAP".toList i b.bootmap
    locked := cfgGetEnvIntI env "LOCKED".toList i b.locked
    pause := cfgGetEnvStrI env "PAUSE".toList i b.pause
    action := .ofInt (cfgGetEnvIntI env "ACTION".toList i b.action.toInt) b.action }

/-- `cfg_get_env`. The entries are added to those that are there. -/
def cfgGetEnv (env : Environ) (config : CfgToplevel) : CfgToplevel :=
  let maxEntryCount := cfgGetEnvInt env "BENTRY_COUNT".toList 0
  { config with
    bootDefault := cfgGetEnvInt env "DEFAULT".toList config.bootDefault
    timeout := cfgGetEnvInt env "TIMEOUT".toList config.timeout
    password := cfgGetEnvStr env "PASSWORD".toList config.password
    bentryList := config.bentryList ++ (List.range maxEntryCount.toNat).map (cfgGetEnvBentry env) }

/-! ## Names -/

theorem indexed_injective {v w : CStr} {i j : Nat} (h : indexed v i = indexed w j) :
    v = w ∧ i = j := by
  have hstop : ∀ (n : Nat) (u : CStr),
      (Nat.toDigits 10 n ++ '_' :: u).takeWhile Char.isDigit = Nat.toDigits 10 n := by
    intro n u
    rw [List.takeWhile_append_of_pos isDigit_toDigits]
    simp
  have htail : Nat.toDigits 10 i ++ '_' :: v = Nat.toDigits 10 j ++ '_' :: w :=
    (List.cons.inj h).2
  have hdigits : Nat.toDigits 10 i = Nat.toDigits 10 j := by
    rw [← hstop i v, htail, hstop j w]
  constructor
  · rw [hdigits] at htail
    exact (List.cons.inj (List.append_cancel_left htail)).2
  · calc
      i = Nat.ofDigitChars 10 (Nat.toDigits 10 i) 0 := Nat.ofDigitChars_ten_toDigits.symm
      _ = Nat.ofDigitChars 10 (Nat.toDigits 10 j) 0 := by rw [hdigits]
      _ = j := Nat.ofDigitChars_ten_toDigits

theorem envName_injective {v w : CStr} (h : envName v = envName w) : v = w :=
  (List.cons.inj (List.append_cancel_left h)).2

/-- The second character of an indexed name is a digit. -/
theorem indexed_second (v : CStr) (i : Nat) :
    ∃ d rest, indexed v i = 'B' :: d :: rest ∧ d.isDigit = true := by
  cases hd : Nat.toDigits 10 i with
  | nil => exact absurd hd Nat.toDigits_ne_nil
  | cons d ds =>
    refine ⟨d, ds ++ '_' :: v, by simp [indexed, hd], ?_⟩
    exact isDigit_toDigits d (hd ▸ List.mem_cons_self)

/-! ## Assignments -/

/-- Set the variables of a list of assignments, one after the other. -/
def assignAll (l : List (CStr × CStr)) (env : Environ) : Environ :=
  l.foldl (fun env a => Function.update env (envName a.1) (some a.2)) env

@[simp] theorem assignAll_nil (env : Environ) : assignAll [] env = env := rfl

@[simp] theorem assignAll_cons (a : CStr × CStr) (l : List (CStr × CStr)) (env : Environ) :
    assignAll (a :: l) env = assignAll l (Function.update env (envName a.1) (some a.2)) := rfl

theorem assignAll_append (l m : List (CStr × CStr)) (env : Environ) :
    assignAll (l ++ m) env = assignAll m (assignAll l env) := List.foldl_append

/-- A name that is not assigned keeps its value. -/
theorem assignAll_of_notMem {l : List (CStr × CStr)} {name : CStr} (env : Environ)
    (h : ∀ value, (name, value) ∉ l) : assignAll l env (envName name) = env (envName name) := by
  induction l generalizing env with
  | nil => rfl
  | cons a l ih =>
    have hne : envName name ≠ envName a.1 := by
      intro heq
      exact h a.2 (envName_injective heq ▸ List.mem_cons_self)
    rw [assignAll_cons, ih _ fun value hmem => h value (List.mem_cons_of_mem _ hmem),
      Function.update_of_ne hne]

/-- **Assignments without two values for one name** set each of them. -/
theorem assignAll_get {l : List (CStr × CStr)} {name value : CStr} (env : Environ)
    (hmem : (name, value) ∈ l) (hone : ∀ v, (name, v) ∈ l → v = value) :
    assignAll l env (envName name) = some value := by
  induction l generalizing env with
  | nil => exact absurd hmem List.not_mem_nil
  | cons a l ih =>
    rw [assignAll_cons]
    by_cases hlater : ∃ v, (name, v) ∈ l
    · obtain ⟨v, hv⟩ := hlater
      have heq := hone v (List.mem_cons_of_mem _ hv)
      exact ih _ (heq ▸ hv) fun v hv => hone v (List.mem_cons_of_mem _ hv)
    · have hnot : ∀ v, (name, v) ∉ l := fun v hv => hlater ⟨v, hv⟩
      obtain rfl : (name, value) = a := (List.mem_cons.mp hmem).resolve_right (hnot value)
      rw [assignAll_of_notMem _ hnot, Function.update_self]

theorem putenv_envName {name : CStr} (value : CStr) (env : Environ) (h : '=' ∉ name) :
    putenv (envName name ++ '=' :: value) env =
      Function.update env (envName name) (some value) := by
  have hname : ∀ c ∈ envName name, (c != '=') = true := by
    intro c hc
    rcases List.mem_append.mp hc with hpre | hrest
    · have hcfgPrefix : cfgPrefix.all (fun c => c != '=') = true := rfl
      exact List.all_eq_true.mp hcfgPrefix c hpre
    · rcases List.mem_cons.mp hrest with rfl | hmem
      · rfl
      · exact bne_iff_ne.mpr fun heq => h (heq ▸ hmem)
  unfold putenv
  rw [List.takeWhile_append_of_pos hname, List.dropWhile_append_of_pos hname]
  simp

/-- The variables of a boot entry, with the values they get. -/
def bentryVars : List (CStr × (CfgBentry → CStr)) :=
  [("TITLE".toList, (·.title)), ("LABEL".toList, (·.label)), ("ROOT".toList, (·.root)),
    ("KERNEL".toList, (·.kernel)), ("INITRD".toList, (·.initrd)), ("CMDLINE".toList, (·.cmdline)),
    ("PARMFILE".toList, (·.parmfile)), ("INSFILE".toList, (·.insfile)),
    ("BOOTMAP".toList, (·.bootmap)), ("LOCKED".toList, fun b => printInt b.locked),
    ("PAUSE".toList, (·.pause)), ("ACTION".toList, fun b => printInt b.action.toInt)]

/-- The assignments for the boot entries from index `i` on. -/
def bentryAssignments : Nat → List CfgBentry → List (CStr × CStr)
  | _, [] => []
  | i, b :: bs => bentryVars.map (fun v => (indexed v.1 i, v.2 b)) ++ bentryAssignments (i + 1) bs

/-- The variables of the configuration itself, with the values they get. -/
def toplevelAssignments (config : CfgToplevel) : List (CStr × CStr) :=
  [("VERSION".toList, "1.0".toList), ("DEFAULT".toList, printInt config.bootDefault),
    ("TIMEOUT".toList, printInt config.timeout), ("PASSWORD".toList, config.password),
    ("BENTRY_COUNT".toList, printInt config.bentryList.length)]

theorem eq_notMem_indexed {v : CStr} (i : Nat) (h : '=' ∉ v) : '=' ∉ indexed v i := by
  intro hmem
  rcases List.mem_cons.mp hmem with heq | hmem
  · exact absurd heq (by decide)
  · rcases List.mem_append.mp hmem with hdigit | hrest
    · exact absurd (isDigit_toDigits _ hdigit) (by decide)
    · rcases List.mem_cons.mp hrest with heq | hv
      · exact absurd heq (by decide)
      · exact h hv

theorem cfgSetEnvBentry_eq (i : Nat) (b : CfgBentry) (env : Environ) :
    cfgSetEnvBentry i b env =
      assignAll (bentryVars.map fun v => (indexed v.1 i, v.2 b)) env := by
  simp only [cfgSetEnvBentry, cfgSetEnvStrI, cfgSetEnvIntI, cfgSetEnvStr, cfgSetEnvInt]
  repeat rw [putenv_envName _ _ (eq_notMem_indexed i (by decide))]
  rfl

theorem cfgSetEnvBentries_eq (i : Nat) (bs : List CfgBentry) (env : Environ) :
    cfgSetEnvBentries i bs env = assignAll (bentryAssignments i bs) env := by
  induction bs generalizing i env with
  | nil => rfl
  | cons b bs ih =>
    rw [cfgSetEnvBentries, ih, cfgSetEnvBentry_eq, bentryAssignments, assignAll_append]

theorem cfgSetEnv_eq (config : CfgToplevel) (env : Environ) :
    cfgSetEnv config env =
      assignAll (toplevelAssignments config ++ bentryAssignments 0 config.bentryList) env := by
  rw [assignAll_append, ← cfgSetEnvBentries_eq]
  simp only [cfgSetEnv, cfgSetEnvStr, cfgSetEnvInt]
  repeat rw [putenv_envName _ _ (by decide)]
  rfl

/-! ## One value for each name -/

theorem mem_bentryAssignments {bs : List CfgBentry} {i : Nat} {a : CStr × CStr} :
    a ∈ bentryAssignments i bs ↔
      ∃ j b, bs[j]? = some b ∧ ∃ v ∈ bentryVars, a = (indexed v.1 (i + j), v.2 b) := by
  induction bs generalizing i with
  | nil => simp [bentryAssignments]
  | cons b bs ih =>
    rw [bentryAssignments, List.mem_append, List.mem_map, ih]
    constructor
    · rintro (⟨v, hv, rfl⟩ | ⟨j, b', hj, v, hv, rfl⟩)
      · exact ⟨0, b, rfl, v, hv, rfl⟩
      · exact ⟨j + 1, b', hj, v, hv, by rw [Nat.add_assoc, Nat.add_comm 1]⟩
    · rintro ⟨_ | j, b', hj, v, hv, rfl⟩
      · cases hj
        exact Or.inl ⟨v, hv, rfl⟩
      · exact Or.inr ⟨j, b', hj, v, hv, by rw [Nat.add_assoc, Nat.add_comm 1]⟩

theorem bentryVars_nodup : (bentryVars.map Prod.fst).Nodup := by decide

/-- A variable of the configuration itself is not one of a boot entry. -/
theorem toplevel_ne_indexed {config : CfgToplevel} {a : CStr × CStr}
    (ha : a ∈ toplevelAssignments config) (v : CStr) (i : Nat) : a.1 ≠ indexed v i := by
  obtain ⟨d, rest, hindexed, hd⟩ := indexed_second v i
  intro heq
  rw [hindexed] at heq
  simp only [toplevelAssignments, List.mem_cons, List.not_mem_nil, or_false] at ha
  rcases ha with rfl | rfl | rfl | rfl | rfl
  case inr.inr.inr.inr =>
    obtain ⟨rfl, _⟩ := List.cons.inj (List.cons.inj heq).2
    exact absurd hd (by decide)
  all_goals exact absurd (List.cons.inj heq).1 (by decide)

theorem toplevel_one {config : CfgToplevel} {name v w : CStr}
    (hv : (name, v) ∈ toplevelAssignments config) (hw : (name, w) ∈ toplevelAssignments config) :
    v = w := by
  have hnodup : ((toplevelAssignments config).map Prod.fst).Nodup := by
    show ["VERSION".toList, "DEFAULT".toList, "TIMEOUT".toList, "PASSWORD".toList,
      "BENTRY_COUNT".toList].Nodup
    decide
  exact congrArg Prod.snd (List.inj_on_of_nodup_map hnodup hv hw rfl)

/-- **`cfg_set_env` has one value for each name.** -/
theorem assignments_one {config : CfgToplevel} {name v w : CStr}
    (hv : (name, v) ∈ toplevelAssignments config ++ bentryAssignments 0 config.bentryList)
    (hw : (name, w) ∈ toplevelAssignments config ++ bentryAssignments 0 config.bentryList) :
    v = w := by
  rcases List.mem_append.mp hv with hv | hv <;> rcases List.mem_append.mp hw with hw | hw
  · exact toplevel_one hv hw
  · obtain ⟨j, b, _, x, _, heq⟩ := mem_bentryAssignments.mp hw
    exact absurd (Prod.mk.inj heq).1 (toplevel_ne_indexed hv _ _)
  · obtain ⟨j, b, _, x, _, heq⟩ := mem_bentryAssignments.mp hv
    exact absurd (Prod.mk.inj heq).1 (toplevel_ne_indexed hw _ _)
  · obtain ⟨j, b, hj, x, hx, heq⟩ := mem_bentryAssignments.mp hv
    obtain ⟨j', b', hj', x', hx', heq'⟩ := mem_bentryAssignments.mp hw
    obtain ⟨hname, rfl⟩ := Prod.mk.inj heq
    obtain ⟨hname', rfl⟩ := Prod.mk.inj heq'
    obtain ⟨hvar, hindex⟩ := indexed_injective (hname.symm.trans hname')
    obtain rfl : j = j' := by omega
    obtain rfl : b = b' := Option.some.inj (hj.symm.trans hj')
    obtain rfl := List.inj_on_of_nodup_map bentryVars_nodup hx hx' hvar
    rfl

/-! ## The round trip -/

section RoundTrip

variable {config : CfgToplevel} {env : Environ}

theorem cfgSetEnv_get {a : CStr × CStr}
    (ha : a ∈ toplevelAssignments config ++ bentryAssignments 0 config.bentryList) :
    cfgSetEnv config env (envName a.1) = some a.2 := by
  rw [cfgSetEnv_eq]
  exact assignAll_get env ha fun v hv => assignments_one hv ha

theorem cfgSetEnv_get_toplevel {name value : CStr}
    (h : (name, value) ∈ toplevelAssignments config) :
    cfgSetEnv config env (envName name) = some value :=
  cfgSetEnv_get (List.mem_append_left _ h)

theorem cfgSetEnv_get_bentry {i : Nat} {b : CfgBentry} (hb : config.bentryList[i]? = some b)
    {name : CStr} {f : CfgBentry → CStr} (h : (name, f) ∈ bentryVars) :
    cfgSetEnv config env (envName (indexed name i)) = some (f b) :=
  cfgSetEnv_get (a := (indexed name i, f b)) (List.mem_append_right _
    (mem_bentryAssignments.mpr ⟨i, b, hb, (name, f), h, by rw [Nat.zero_add]⟩))

/-- A boot entry is read back with all its members. -/
theorem cfgGetEnvBentry_cfgSetEnv {i : Nat} {b : CfgBentry}
    (hb : config.bentryList[i]? = some b) : cfgGetEnvBentry (cfgSetEnv config env) i = b := by
  have hstr : ∀ (name : CStr) (f : CfgBentry → CStr) (value : CStr), (name, f) ∈ bentryVars →
      cfgGetEnvStrI (cfgSetEnv config env) name i value = f b := by
    intro name f value h
    rw [cfgGetEnvStrI, cfgGetEnvStr, cfgSetEnv_get_bentry hb h]
  have hint : ∀ (name : CStr) (f : CfgBentry → Int) (value : Int),
      (name, fun b => printInt (f b)) ∈ bentryVars →
        cfgGetEnvIntI (cfgSetEnv config env) name i value = f b := by
    intro name f value h
    rw [cfgGetEnvIntI, cfgGetEnvInt, cfgSetEnv_get_bentry hb h]
    show (scanNumber (printInt (f b))).getD value = f b
    rw [scanNumber_printInt]
    rfl
  unfold cfgGetEnvBentry
  dsimp only
  rw [hstr _ (·.title) _ (by simp [bentryVars]), hstr _ (·.label) _ (by simp [bentryVars]),
    hstr _ (·.root) _ (by simp [bentryVars]), hstr _ (·.kernel) _ (by simp [bentryVars]),
    hstr _ (·.initrd) _ (by simp [bentryVars]), hstr _ (·.cmdline) _ (by simp [bentryVars]),
    hstr _ (·.parmfile) _ (by simp [bentryVars]), hstr _ (·.insfile) _ (by simp [bentryVars]),
    hstr _ (·.bootmap) _ (by simp [bentryVars]), hint _ (·.locked) _ (by simp [bentryVars]),
    hstr _ (·.pause) _ (by simp [bentryVars]),
    hint _ (fun b => b.action.toInt) _ (by simp [bentryVars]), BootAction.ofInt_toInt]

theorem cfgGetEnvInt_cfgSetEnv {name : CStr} {n : Int} (value : Int)
    (h : (name, printInt n) ∈ toplevelAssignments config) :
    cfgGetEnvInt (cfgSetEnv config env) name value = n := by
  rw [cfgGetEnvInt, cfgSetEnv_get_toplevel h]
  show (scanNumber (printInt n)).getD value = n
  rw [scanNumber_printInt]
  rfl

variable (config env)

/-- **The configuration survives the environment**: whatever was in the environment before, a new
configuration that is read from it has the default, the timeout, the password and the boot entries
of the one that was written. -/
theorem cfgGetEnv_cfgSetEnv :
    cfgGetEnv (cfgSetEnv config env) .init =
      { CfgToplevel.init with
        bootDefault := config.bootDefault
        timeout := config.timeout
        password := config.password
        bentryList := config.bentryList } := by
  have hcount : cfgGetEnvInt (cfgSetEnv config env) "BENTRY_COUNT".toList 0 =
      config.bentryList.length := cfgGetEnvInt_cfgSetEnv _ (by simp [toplevelAssignments])
  have hentries : (List.range config.bentryList.length).map
      (cfgGetEnvBentry (cfgSetEnv config env)) = config.bentryList := by
    refine List.ext_getElem (by simp) fun i hi hi' => ?_
    rw [List.getElem_map, List.getElem_range]
    exact cfgGetEnvBentry_cfgSetEnv (List.getElem?_eq_getElem hi')
  have hdefault : ∀ value, cfgGetEnvInt (cfgSetEnv config env) "DEFAULT".toList value =
      config.bootDefault := fun value => cfgGetEnvInt_cfgSetEnv value (by simp [toplevelAssignments])
  have htimeout : ∀ value, cfgGetEnvInt (cfgSetEnv config env) "TIMEOUT".toList value =
      config.timeout := fun value => cfgGetEnvInt_cfgSetEnv value (by simp [toplevelAssignments])
  have hpassword : ∀ value, cfgGetEnvStr (cfgSetEnv config env) "PASSWORD".toList value =
      config.password := fun value => by
    have hmem : ("PASSWORD".toList, config.password) ∈ toplevelAssignments config := by
      simp [toplevelAssignments]
    rw [cfgGetEnvStr, cfgSetEnv_get_toplevel hmem]
  unfold cfgGetEnv
  dsimp only
  rw [hcount, hdefault, htimeout, hpassword, Int.toNat_natCast, hentries]
  rfl

end RoundTrip

end Sysload
