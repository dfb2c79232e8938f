import Sysload.Parser.Context

/-!
# Configurations (`sysload.conf.y`)

A configuration is a list of definitions. Definitions, module parameters, network parameters and
boot options all come in lists with system sections between the items, so there is one type of
lists, `Items`. `Config.acts` are the grammar actions of a configuration in their order.

A `Path` is the way to one place in such a list; `Path.plug` puts something there.

Source: `src/core/sysload.conf.y`, the rules below `deflist`. Out of scope are the rules for kernel
arguments, which are in `Automaton.lean`.
-/

namespace Sysload.Parser

/-- A list of items and system sections. -/
inductive Items (α : Type) where
  | nil
  | leaf (a : α) (rest : Items α)
  | system (test : SystemList) (body rest : Items α)
  deriving DecidableEq, Repr

/-- The value of a `T_NUMBER`. -/
def Digits : Type := { str : CStr // str ≠ [] ∧ str.all Char.isDigit = true }

instance : DecidableEq Digits := inferInstanceAs (DecidableEq { _str : CStr // _ })

/-- `def`, but for the system section. -/
inductive Definition where
  | bootDefault (str : CStr)
  | timeout (number : Digits)
  | password (str : CStr)
  | setupModule (params : Items ModParam)
  | setup (d : Device)
  | network (params : Items NetParam)
  | userinterface (ident str : CStr)
  | userinterfaceSsh (ident str : CStr)
  | exec (str : CStr)
  | bootentry (title : CStr) (label : Option CStr) (options : Items BootOption)

/-- `deflist`. -/
abbrev Config := Items Definition

namespace Items

variable {α : Type}

/-- One list after another. -/
def append : Items α → Items α → Items α
  | .nil, m => m
  | .leaf a rest, m => .leaf a (rest.append m)
  | .system test body rest, m => .system test body (rest.append m)

instance : Append (Items α) := ⟨append⟩

/-- The actions of a list, from those of an item. -/
def acts (f : α → List Act) : Items α → List Act
  | .nil => []
  | .leaf a rest => f a ++ rest.acts f
  | .system test body rest => .enterSystem test :: body.acts f ++ .exitSystem :: rest.acts f

@[simp] theorem acts_nil (f : α → List Act) : (nil : Items α).acts f = [] := rfl

@[simp] theorem acts_leaf (f : α → List Act) (a : α) (rest : Items α) :
    (leaf a rest).acts f = f a ++ rest.acts f := rfl

@[simp] theorem acts_system (f : α → List Act) (test : SystemList) (body rest : Items α) :
    (system test body rest).acts f =
      .enterSystem test :: body.acts f ++ .exitSystem :: rest.acts f := rfl

@[simp] theorem acts_append (f : α → List Act) (l m : Items α) :
    (l ++ m).acts f = l.acts f ++ m.acts f := by
  show (l.append m).acts f = _
  induction l with
  | nil => rfl
  | leaf a rest ih => rw [append, acts_leaf, ih, acts_leaf, List.append_assoc]
  | system test body rest _ ih => simp only [append, acts_system, ih, List.append_assoc,
      List.cons_append]

/-- An item satisfies `p`. -/
def any (p : α → Bool) : Items α → Bool
  | .nil => false
  | .leaf a rest => p a || rest.any p
  | .system _ body rest => body.any p || rest.any p

theorem any_false (l : Items α) : (l.any fun _ => false) = false := by
  induction l with
  | nil => rfl
  | leaf a rest ih => exact ih
  | system test body rest ihbody ihrest => rw [any, ihbody, ihrest, Bool.or_false]

end Items

/-- The actions of the parameters of a module. -/
def modActs (l : Items ModParam) : List Act := l.acts fun p => [.modparam p]

/-- The actions of the parameters of a network. -/
def netActs (l : Items NetParam) : List Act := l.acts fun p => [.netparam p]

/-- The actions of the options of a boot entry. -/
def optionActs (l : Items BootOption) : List Act := l.acts fun o => [.option o]

/-- The action of a label. -/
def labelActs : Option CStr → List Act
  | none => []
  | some str => [.label str]

/-- The actions of a definition. -/
def Definition.acts : Definition → List Act
  | .bootDefault str => [.bootDefault str]
  | .timeout number => [.timeout number.val]
  | .password str => [.password str]
  | .setupModule params => modActs params ++ [.setupModule]
  | .setup d => [.setup d]
  | .network params => netActs params ++ [.network]
  | .userinterface ident str => [.userinterface ident str]
  | .userinterfaceSsh ident str => [.userinterfaceSsh ident str]
  | .exec str => [.exec str]
  | .bootentry title label options =>
    .title title :: labelActs label ++ optionActs options ++ [.bootentry]

/-- What holds of the actions of every item, and of entering and leaving sections, holds of all actions
of a list. -/
theorem Items.forall_acts {α : Type} {f : α → List Act} (P : Act → Prop)
    (henter : ∀ l, P (.enterSystem l)) (hexit : P .exitSystem) (hleaf : ∀ a, ∀ act ∈ f a, P act)
    (l : Items α) : ∀ act ∈ l.acts f, P act := by
  induction l with
  | nil => exact fun act h => absurd h List.not_mem_nil
  | leaf a rest ih =>
    intro act h
    exact (List.mem_append.mp h).elim (hleaf a act) (ih act)
  | system test body rest ihbody ihrest =>
    intro act h
    rcases List.mem_append.mp h with h | h
    · rcases List.mem_cons.mp h with rfl | h
      · exact henter test
      · exact ihbody act h
    · rcases List.mem_cons.mp h with rfl | h
      · exact hexit
      · exact ihrest act h

/-- The actions of a configuration. -/
def Config.acts (d : Config) : List Act := Items.acts Definition.acts d

/-! ## Places in a configuration -/

/-- The way to a place in a list. -/
inductive Path (α : Type) where
  | here (rest : Items α)
  | leaf (a : α) (p : Path α)
  | system (test : SystemList) (body : Items α) (p : Path α)
  | inside (test : SystemList) (p : Path α) (rest : Items α)

namespace Path

variable {α : Type}

/-- The list with something at the place; `k` puts it before the rest of the innermost list. -/
def plug (k : Items α → Items α) : Path α → Items α
  | .here rest => k rest
  | .leaf a p => .leaf a (p.plug k)
  | .system test body p => .system test body (p.plug k)
  | .inside test p rest => .system test (p.plug k) rest

/-- The number of system sections around the place. -/
def depth : Path α → Nat
  | .here _ => 0
  | .leaf _ p => p.depth
  | .system _ _ p => p.depth
  | .inside _ p _ => p.depth + 1

/-- The actions before the place. -/
def before (f : α → List Act) : Path α → List Act
  | .here _ => []
  | .leaf a p => f a ++ p.before f
  | .system test body p => .enterSystem test :: body.acts f ++ .exitSystem :: p.before f
  | .inside test p _ => .enterSystem test :: p.before f

/-- The actions behind the place. -/
def after (f : α → List Act) : Path α → List Act
  | .here rest => rest.acts f
  | .leaf _ p => p.after f
  | .system _ _ p => p.after f
  | .inside _ p rest => p.after f ++ .exitSystem :: rest.acts f

/-- The actions of a list, seen from one place. -/
theorem acts_plug (f : α → List Act) {k : Items α → Items α} {as : List Act}
    (hk : ∀ rest, (k rest).acts f = as ++ rest.acts f) (p : Path α) :
    (p.plug k).acts f = p.before f ++ as ++ p.after f := by
  induction p with
  | here rest => exact hk rest
  | leaf a p ih => simp only [plug, before, after, Items.acts_leaf, ih, List.append_assoc]
  | system test body p ih =>
    simp only [plug, before, after, Items.acts_system, ih, List.append_assoc, List.cons_append]
  | inside test p rest ih =>
    simp only [plug, before, after, Items.acts_system, ih, List.append_assoc, List.cons_append]

end Path

end Sysload.Parser
