import Sysload.Loader.Command

/-!
# What the grammar actions do (`sysload.conf.y`, `parser_sysload.c`, `parser.h`)

`Act` has a constructor for each action of the grammar that does something besides building a
string, and `exec` is what it does with the parser context. The actions of one kind (an option of a
boot entry, a parameter of a network or module section) differ only in the member they set; that
is said by `BootOption.set`, `NetParam.set` and `ModParam.set`.

The commands that an action runs are recorded in `executed`. Everything outside (`/proc/sysinfo`,
the network interfaces, the included URIs) is an `Env`; as commands change the machine, it may
answer differently after each of them.

Source: `src/core/sysload.conf.y`, its actions; `src/core/parser_sysload.c`, `src/core/parser.c` and
`src/core/parser.h`; `src/core/modbase.c` and `src/core/netbase.h`. Out of scope is what the
commands do to the machine.
-/

namespace Sysload.Parser

/-- `enum nb_mode`. -/
inductive NbMode where
  | static
  | dhcp
  deriving DecidableEq, Repr

/-- `struct nb_conf`, as far as the parser sets it. -/
structure NbConf where
  mode : NbMode
  interface : CStr
  address : CStr
  mask : CStr
  gateway : CStr
  nameserver : CStr
  deriving DecidableEq, Repr

/-- `nb_conf_init`, `nb_conf_reset`. -/
def NbConf.init : NbConf := ⟨.static, [], [], [], [], []⟩

/-- `struct mb_conf`. -/
structure MbConf where
  name : CStr
  param : CStr
  kernelversion : CStr
  deriving DecidableEq, Repr

/-- `mb_conf_init`, `mb_conf_reset`. -/
def MbConf.init : MbConf := ⟨[], [], []⟩

/-- What the parser has done to the machine: `cfg_system` or `nb_conf_enable`. -/
inductive Command where
  | system (cmd : CStr)
  | network (conf : NbConf)
  deriving DecidableEq, Repr

/-- A look at the machine: `parser_vmguest_test`, `parser_lpar_test`, `nb_test_mac`. -/
inductive SysTest where
  | vmguest (name : CStr)
  | lpar (name : CStr)
  | mac (addr : CStr)
  deriving DecidableEq, Repr

/-- What the parser finds around it, after some commands. `load` is what `comp_load` and `fopen`
make of a URI with a valid scheme. -/
structure Env where
  defaultpath : CStr
  test : List Command → SysTest → Bool
  load : List Command → CStr → Option (List Char)

/-- An environment in which no command changes an answer. -/
structure Answers where
  defaultpath : CStr
  test : SysTest → Bool
  load : CStr → Option (List Char)

/-- The environment with fixed answers. -/
def Answers.env (a : Answers) : Env := ⟨a.defaultpath, fun _ => a.test, fun _ => a.load⟩

/-- `open_incl_uri`: `comp_load` verifies the URI scheme first. -/
def Env.openInclUri (env : Env) (executed : List Command) (uri : CStr) : Option (List Char) :=
  if verifyUriScheme uri then env.load executed uri else none

/-! ## The test of a system section -/

/-- `systemid`. -/
inductive SystemId where
  | uuid (ident : CStr)
  | mac (addr : CStr)
  | vmguest (name : CStr)
  | vmguestLpar (name lparname : CStr)
  | lpar (name : CStr)
  deriving DecidableEq, Repr

/-- `systemlist`. -/
inductive SystemList where
  | one (id : SystemId)
  | more (l : SystemList) (id : SystemId)
  | not (l : SystemList)
  deriving DecidableEq, Repr

/-- The strings `"true"` and `"false"`. -/
def boolStr (b : Bool) : CStr := if b then "true".toList else "false".toList

section Tests

variable (env : Env) (executed : List Command)

/-- The value of a `systemid`. A `uuid` is not tested: its value is the identifier itself. -/
def SystemId.value : SystemId → CStr
  | .uuid ident => ident
  | .mac addr => boolStr (env.test executed (.mac addr))
  | .vmguest name => boolStr (env.test executed (.vmguest name))
  | .vmguestLpar name lparname =>
    boolStr (env.test executed (.vmguest name) && env.test executed (.lpar lparname))
  | .lpar name => boolStr (env.test executed (.lpar name))

/-- The value of a `systemlist`: `"true"` if one of the tests is. -/
def SystemList.value : SystemList → CStr
  | .one id => id.value env executed
  | .more l id =>
    if l.value = "true".toList then l.value
    else if id.value env executed = "true".toList then id.value env executed
    else l.value
  | .not l => if l.value = "true".toList then "false".toList else "true".toList

/-- The system statement matches. -/
def SystemList.Matches (l : SystemList) : Prop := l.value env executed = "true".toList

instance (l : SystemList) : Decidable (l.Matches env executed) :=
  inferInstanceAs (Decidable (_ = _))

end Tests

/-- With fixed answers a system test does not depend on what has been executed. -/
theorem matches_answers (a : Answers) (l : SystemList) (x y : List Command) :
    decide (l.Matches a.env x) = decide (l.Matches a.env y) := by
  have hid : ∀ id : SystemId, id.value a.env x = id.value a.env y := fun id => by cases id <;> rfl
  have hvalue : l.value a.env x = l.value a.env y := by
    induction l with
    | one id => exact hid id
    | more l id ih => simp only [SystemList.value, ih, hid]
    | not l ih => simp only [SystemList.value, ih]
  exact decide_eq_decide.mpr (by rw [SystemList.Matches, SystemList.Matches, hvalue])

/-! ## Parameters -/

/-- `modparam`. -/
inductive ModParam where
  | name (str : CStr)
  | param (str : CStr)
  | kernelversion (str : CStr)
  deriving DecidableEq, Repr

/-- The assignment of a `modparam`. -/
def ModParam.set (conf : MbConf) : ModParam → MbConf
  | .name str => { conf with name := str }
  | .param str => { conf with param := str }
  | .kernelversion str => { conf with kernelversion := str }

/-- `netparam`. -/
inductive NetParam where
  | mode (mode : NbMode)
  | address (str : CStr)
  | mask (str : CStr)
  | gateway (str : CStr)
  | nameserver (str : CStr)
  | interface (str : CStr)
  deriving DecidableEq, Repr

/-- The assignment of a `netparam`. -/
def NetParam.set (conf : NbConf) : NetParam → NbConf
  | .mode m => { conf with mode := m }
  | .address str => { conf with address := str }
  | .mask str => { conf with mask := str }
  | .gateway str => { conf with gateway := str }
  | .nameserver str => { conf with nameserver := str }
  | .interface str => { conf with interface := str }

/-- `option`, but for the system section. -/
inductive BootOption where
  | root (uri : CStr)
  | lock
  | pause (str : CStr)
  | kernel (str : CStr)
  | initrd (str : CStr)
  | cmdline (str : CStr)
  | parmfile (str : CStr)
  | insfile (str : CStr)
  | bootmap (str : CStr)
  | reboot
  | halt
  | shell
  | exit
  deriving DecidableEq, Repr

/-- The assignments of an `option`. -/
def BootOption.set (b : CfgBentry) : BootOption → CfgBentry
  | .root uri => { b with root := uri }
  | .lock => { b with locked := 1 }
  | .pause str => { b with pause := str }
  | .kernel str => { b with action := .kernelBoot, kernel := str }
  | .initrd str => { b with initrd := str }
  | .cmdline str => { b with cmdline := str }
  | .parmfile str => { b with parmfile := str }
  | .insfile str => { b with action := .insfileBoot, insfile := str }
  | .bootmap str => { b with action := .bootmapBoot, bootmap := str }
  | .reboot => { b with action := .reboot }
  | .halt => { b with action := .halt }
  | .shell => { b with action := .shell }
  | .exit => { b with action := .exit }

/-- A device to be set online. -/
inductive Device where
  | dasd (busid : CStr)
  | qeth (busid1 busid2 busid3 : CStr)
  | zfcp (busid wwpn lun : CStr)
  deriving DecidableEq, Repr

/-- `SETUP_MODULE_PATH`. -/
def setupModulePath : CStr := "setup".toList

/-- The command of `parser_setup_dasd`, `parser_setup_qeth` and `parser_setup_zfcp`. -/
def Device.setup (env : Env) : Device → Command
  | .dasd busid => .system (env.defaultpath ++ '/' :: setupModulePath ++ "/setup_dasd ".toList ++ busid)
  | .qeth busid1 busid2 busid3 =>
    .system (env.defaultpath ++ '/' :: setupModulePath ++ "/setup_qeth ".toList ++ busid1 ++
      ' ' :: busid2 ++ ' ' :: busid3)
  | .zfcp busid wwpn lun =>
    .system (env.defaultpath ++ '/' :: setupModulePath ++ "/setup_zfcp ".toList ++ busid ++
      ' ' :: wwpn ++ ' ' :: lun)

/-- `mb_conf_load`. -/
def MbConf.load (conf : MbConf) : Command :=
  .system ("/sbin/modprobe ".toList ++ conf.name ++ ' ' :: conf.param)

/-! ## The parser context -/

/-- `MAX_SYSTEM_DEPTH`. -/
def maxSystemDepth : Nat := 999

/-- `struct parser_context`. Of `args` the parser reads `only_ui`; the pointer may be `NULL`. -/
structure ParserContext where
  errmsg : CStr
  bootDefault : CStr
  systemDepth : Nat
  systemFirstInactive : Nat
  args : Option CStr
  toplevel : CfgToplevel
  bentry : CfgBentry
  netconf : NbConf
  modconf : MbConf
  executed : List Command
  deriving DecidableEq, Repr

/-- `parser_init`, with a new `cfg_toplevel`. -/
def ParserContext.init (args : Option CStr) : ParserContext where
  errmsg := []
  bootDefault := "0".toList
  systemDepth := 0
  systemFirstInactive := maxSystemDepth
  args := args
  toplevel := .init
  bentry := .init
  netconf := .init
  modconf := .init
  executed := []

namespace ParserContext

/-- `parser_active_system() == PA_ACTIVE`. -/
def active (c : ParserContext) : Bool := !decide (c.systemFirstInactive ≤ c.systemDepth)

/-- `parser_enter_system`. -/
def enterSystem (c : ParserContext) (isActive : Bool) : ParserContext :=
  let c := { c with systemDepth := c.systemDepth + 1 }
  if c.active ∧ ¬ isActive then { c with systemFirstInactive := c.systemDepth } else c

/-- `parser_exit_system`. -/
def exitSystem (c : ParserContext) : ParserContext :=
  let c :=
    if c.systemFirstInactive = c.systemDepth then { c with systemFirstInactive := maxSystemDepth }
    else c
  { c with systemDepth := c.systemDepth - 1 }

/-- `parser_uimode`: `none` for `NULL`. Without `args` it follows a null pointer. -/
def uimode (c : ParserContext) : Except Stop (Option CStr) :=
  match c.args with
  | none => .error .overrun
  | some onlyUi => .ok (if onlyUi.length = 0 then none else some onlyUi)

/-- `(parser_uimode() == NULL) && (parser_active_system() == PA_ACTIVE)`. -/
def enabled (c : ParserContext) : Except Stop Bool := do
  let onlyUi ← c.uimode
  pure (onlyUi.isNone && c.active)

/-- Run a command. -/
def execute (c : ParserContext) (cmd : Command) : ParserContext :=
  { c with executed := c.executed ++ [cmd] }

/-- `nb_conf_enable` and `nb_conf_reset`. -/
def enableNetwork (c : ParserContext) : ParserContext :=
  { c.execute (.network c.netconf) with netconf := .init }

/-- `mb_conf_load` and `mb_conf_reset`. -/
def loadModule (c : ParserContext) : ParserContext :=
  { c.execute c.modconf.load with modconf := .init }

end ParserContext

/-! ## The actions -/

/-- The actions of the grammar. -/
inductive Act where
  | bootDefault (str : CStr)
  | timeout (number : CStr)
  | password (str : CStr)
  | setupModule
  | modparam (p : ModParam)
  | setup (d : Device)
  | network
  | netparam (p : NetParam)
  | userinterface (ident str : CStr)
  | userinterfaceSsh (ident str : CStr)
  | exec (str : CStr)
  | bootentry
  | title (str : CStr)
  | label (str : CStr)
  | option (o : BootOption)
  | enterSystem (l : SystemList)
  | exitSystem
  | ksetSetup (d : Device)
  | ksetMod (ident : CStr)
  | netrest (p : NetParam)
  | netEnable
  deriving DecidableEq, Repr

/-- The action as the grammar has it. -/
def exec (env : Env) (c : ParserContext) : Act → Except Stop ParserContext
  | .bootDefault str => .ok (if c.active then { c with bootDefault := str } else c)
  | .timeout number => do
    let onlyUi ← c.uimode
    if onlyUi.isSome || !c.active then
      pure { c with toplevel := { c.toplevel with timeout := 0 } }
    else
      let timeout := (scanInt number).getD c.toplevel.timeout
      pure { c with toplevel := { c.toplevel with timeout := timeout } }
  | .password str =>
    .ok (if c.active then { c with toplevel := { c.toplevel with password := str } } else c)
  | .setupModule => do
    if ← c.enabled then pure c.loadModule else pure { c with modconf := .init }
  | .modparam p => .ok (if c.active then { c with modconf := p.set c.modconf } else c)
  | .setup d => do
    if ← c.enabled then pure (c.execute (d.setup env)) else pure c
  | .network => do
    if ← c.enabled then pure c.enableNetwork else pure { c with netconf := .init }
  | .netparam p => .ok (if c.active then { c with netconf := p.set c.netconf } else c)
  | .userinterface ident str =>
    if c.active then do
      match ← c.uimode with
      | none => pure { c with toplevel := c.toplevel.addUserinterface ⟨ident, str⟩ }
      | some _ => pure c
    else .ok c
  | .userinterfaceSsh ident str =>
    if c.active then do
      match ← c.uimode with
      | none => pure { c with toplevel := c.toplevel.addUserinterface ⟨"ssh".toList, str⟩ }
      | some onlyUi =>
        if onlyUi = ident then
          pure { c with toplevel := c.toplevel.addUserinterface ⟨ident, "/dev/tty".toList⟩ }
        else pure c
    else .ok c
  | .exec str => do
    if ← c.enabled then pure (c.execute (.system str)) else pure c
  | .bootentry =>
    .ok { c with
      toplevel := if c.active then c.toplevel.addBentry c.bentry else c.toplevel
      bentry := .init }
  | .title str => .ok { c with bentry := { c.bentry with title := str } }
  | .label str => .ok { c with bentry := { c.bentry with label := str } }
  | .option o => .ok (if c.active then { c with bentry := o.set c.bentry } else c)
  | .enterSystem l => .ok (c.enterSystem (decide (l.Matches env c.executed)))
  | .exitSystem => .ok c.exitSystem
  | .ksetSetup d => .ok (c.execute (d.setup env))
  | .ksetMod ident => .ok { c with modconf := { c.modconf with name := ident } }.loadModule
  | .netrest p => .ok { c with netconf := p.set c.netconf }
  | .netEnable => .ok c.enableNetwork

/-- A sequence of actions. -/
def execAll (env : Env) : List Act → ParserContext → Except Stop ParserContext
  | [], c => .ok c
  | a :: as, c => exec env c a >>= execAll env as

@[simp] theorem execAll_nil (env : Env) (c : ParserContext) : execAll env [] c = .ok c := rfl

theorem execAll_cons (env : Env) (a : Act) (as : List Act) (c : ParserContext) :
    execAll env (a :: as) c = exec env c a >>= execAll env as := rfl

@[simp] theorem execAll_singleton (env : Env) (a : Act) (c : ParserContext) :
    execAll env [a] c = exec env c a := by
  rw [execAll_cons]
  exact bind_pure _

theorem execAll_append (env : Env) (as bs : List Act) (c : ParserContext) :
    execAll env (as ++ bs) c = execAll env as c >>= execAll env bs := by
  induction as generalizing c with
  | nil => rfl
  | cons a as ih =>
    rw [List.cons_append, execAll_cons, execAll_cons, bind_assoc]
    exact congrArg _ (funext ih)

theorem execAll_cons_eq_ok {env : Env} {a : Act} {as : List Act} {c c' : ParserContext} :
    execAll env (a :: as) c = .ok c' ↔
      ∃ d, exec env c a = .ok d ∧ execAll env as d = .ok c' := by
  rw [execAll_cons]
  cases exec env c a with
  | error e => exact ⟨fun h => (by cases h), fun ⟨d, h, _⟩ => (by cases h)⟩
  | ok d => exact ⟨fun h => ⟨d, rfl, h⟩, fun ⟨d', h, h'⟩ => by cases h; exact h'⟩

theorem execAll_append_eq_ok {env : Env} {as bs : List Act} {c c' : ParserContext} :
    execAll env (as ++ bs) c = .ok c' ↔
      ∃ d, execAll env as c = .ok d ∧ execAll env bs d = .ok c' := by
  rw [execAll_append]
  cases execAll env as c with
  | error e => exact ⟨fun h => (by cases h), fun ⟨d, h, _⟩ => (by cases h)⟩
  | ok d => exact ⟨fun h => ⟨d, rfl, h⟩, fun ⟨d', h, h'⟩ => by cases h; exact h'⟩

end Sysload.Parser
