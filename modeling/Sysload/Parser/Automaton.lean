import Sysload.Parser.Grammar

/-!
# The parser (`sysload.conf.y`)

The parser that bison makes of the grammar takes one token after the other and keeps a stack of the
sections that are open. Most rules are flat: a sequence of tokens with an action behind it. Such a
rule is a `Row`, and `rows` lists the rules that can be read at a `Place`. Between two rows the
control is a place and the stack of the enclosing sections (`Control`); within a row it also has
the tokens read so far.

Where a list or an optional part can end, bison reduces by default: without looking at what the next
token is. These are the places with a `reduction`; it is made when no row begins with the token.

* `shift` is what the parser does with a token: the actions it runs and the new control, or `none`
  for a syntax error. `finish` is what it does with the end of the input.
* The control does not depend on the parser context.

Source: `src/core/sysload.conf.y`. Out of scope are the tables that bison makes of it; there is no
error recovery, as the grammar has no rule for it.

Results:
* `feed_row`: the tokens of a row run its actions.
* `feed_config`: the tokens of a configuration run its actions.
-/

namespace Sysload.Parser

/-- The tokens of the grammar; single characters are tokens too. `T_INCLUDE` and `T_LINEMODE` are
declared and never delivered. -/
inductive Kind where
  | tDefault | tTimeout | tPassword | tExec | tSetup | tKset | tUserinterface | tSsh | tModule | tMod
  | tName | tParam | tKernelversion | tBootEntry | tTitle | tLabel | tRoot | tKernel | tInitrd
  | tCmdline | tParmfile | tInsfile | tBootmap | tLock | tPause | tHalt | tShell | tExit | tReboot
  | tString | tIdent | tNumber | tHexnum | tBusid | tBusidval | tDasd | tZfcp | tWwpn | tLun | tQeth
  | tNetwork | tKnet | tDhcp | tStatic | tMode | tMask | tIpaddr | tUristart | tUribracket | tAddress
  | tGateway | tNameserver | tInterface | tSystem | tUuid | tMac | tMacval | tVmguest | tLpar | tTrue
  | tFalse | tNot | tUnrecognized
  | lparen | rparen | comma | slash | lbrace | rbrace | equals
  deriving DecidableEq, Repr

/-- A token with its semantic value, empty where the grammar uses none. -/
structure Token where
  kind : Kind
  val : CStr
  deriving DecidableEq, Repr

/-- The four lists of the grammar. -/
inductive Level where
  | deflist
  | modparamlist
  | netparamlist
  | optionlist
  deriving DecidableEq, Repr

/-- What a closing brace ends. -/
inductive Closer where
  | system (l : Level)
  | setupModule
  | network
  | bootentry
  deriving DecidableEq, Repr

/-- The action at a closing brace. -/
def Closer.act : Closer → Act
  | .system _ => .exitSystem
  | .setupModule => .setupModule
  | .network => .network
  | .bootentry => .bootentry

/-- The list that goes on behind a closing brace. -/
def Closer.level : Closer → Level
  | .system l => l
  | .setupModule => .deflist
  | .network => .deflist
  | .bootentry => .deflist

/-- The places between two rows. -/
inductive Place where
  /-- `input`: nothing has been read. -/
  | input
  /-- In a list; `nonempty` if an element has been read. -/
  | list (l : Level) (nonempty : Bool)
  /-- Behind the brace of a boot entry. -/
  | title
  /-- Behind the title. -/
  | label
  /-- In a `systemlist`, behind `nots` open `T_NOT '('`. -/
  | systemlist (l : Level) (nots : Nat) (acc : Option SystemList)
  /-- Behind the `systemlist`. -/
  | brace (l : Level)
  /-- In `knet_params`, behind some addresses. -/
  | knetRest (ident : CStr) (addrs : List CStr)
  /-- Behind `knet_params`. -/
  | finished
  /-- In front of a `kset_param`. -/
  | ksetParam
  /-- Behind a `kset_param`. -/
  | ksetRest
  /-- In `net_rest`, behind some addresses. -/
  | netRest (mode : NbMode) (ident : CStr) (addrs : List CStr)
  /-- Behind `net_rest`. -/
  | netClose (mode : NbMode)
  deriving DecidableEq, Repr

/-- Where the parser goes on. -/
inductive Next where
  | goto (p : Place)
  | push (k : Closer) (p : Place)
  | pop

/-- A flat rule: its tokens, and what it does with their values `$1`, `$2`, and so on. -/
structure Row where
  kinds : List Kind
  effect : (Nat → CStr) → List Act × Next

/-- The value `$n`. -/
def dollar (vals : List CStr) (n : Nat) : CStr := vals.getD (n - 1) []

open Kind in
/-- The rules of `modparam`. -/
def modparamTable : List (List Kind × ((Nat → CStr) → ModParam)) :=
  [([tName, tString], fun v => .name (v 2)),
    ([tParam, tString], fun v => .param (v 2)),
    ([tKernelversion, tString], fun v => .kernelversion (v 2))]

open Kind in
/-- The rules of `netparam`. -/
def netparamTable : List (List Kind × ((Nat → CStr) → NetParam)) :=
  [([tMode, tStatic], fun _ => .mode .static),
    ([tMode, tDhcp], fun _ => .mode .dhcp),
    ([tAddress, tIpaddr], fun v => .address (v 2)),
    ([tMask, tIpaddr], fun v => .mask (v 2)),
    ([tGateway, tIpaddr], fun v => .gateway (v 2)),
    ([tNameserver, tIpaddr], fun v => .nameserver (v 2)),
    ([tInterface, tIdent], fun v => .interface (v 2))]

open Kind in
/-- An option with a string. -/
def stringRow (k : Kind) (f : CStr → BootOption) : List Kind × ((Nat → CStr) → BootOption) :=
  ([k, tString], fun v => f (v 2))

open Kind in
/-- An option with a `uri`. -/
def uriRows (k : Kind) (f : CStr → BootOption) : List (List Kind × ((Nat → CStr) → BootOption)) :=
  [([k, tUristart, tString], fun v => f (v 2 ++ v 3)),
    ([k, tUristart, tUribracket, tString], fun v => f (v 2 ++ v 3 ++ v 4))]

open Kind in
/-- The rules of `option`. -/
def optionTable : List (List Kind × ((Nat → CStr) → BootOption)) :=
  uriRows tRoot .root ++
  [([tLock], fun _ => .lock), stringRow tPause .pause, stringRow tKernel .kernel] ++
  uriRows tKernel .kernel ++ [stringRow tInitrd .initrd] ++ uriRows tInitrd .initrd ++
  [stringRow tCmdline .cmdline, stringRow tParmfile .parmfile] ++ uriRows tParmfile .parmfile ++
  [stringRow tInsfile .insfile] ++ uriRows tInsfile .insfile ++ [stringRow tBootmap .bootmap] ++
  uriRows tBootmap .bootmap ++
  [([tReboot], fun _ => .reboot), ([tHalt], fun _ => .halt), ([tShell], fun _ => .shell),
    ([tExit], fun _ => .exit)]

open Kind in
/-- The rules of `systemid` and `vmguest`. -/
def systemidTable : List (List Kind × ((Nat → CStr) → SystemId)) :=
  [([tUuid, lparen, tIdent, rparen], fun v => .uuid (v 3)),
    ([tMac, lparen, tMacval, rparen], fun v => .mac (v 3)),
    ([tVmguest, lparen, tIdent, rparen], fun v => .vmguest (v 3)),
    ([tVmguest, lparen, tIdent, comma, tIdent, rparen], fun v => .vmguestLpar (v 3) (v 5)),
    ([tLpar, lparen, tIdent, rparen], fun v => .lpar (v 3))]

open Kind in
/-- The rules of `globaldef` without a list. -/
def globaldefTable : List (List Kind × ((Nat → CStr) → Act)) :=
  [([tDefault, tString], fun v => .bootDefault (v 2)),
    ([tTimeout, tNumber], fun v => .timeout (v 2)),
    ([tPassword, tString], fun v => .password (v 2)),
    ([tSetup, tDasd, lbrace, tBusid, tBusidval, rbrace], fun v => .setup (.dasd (v 5))),
    ([tSetup, tQeth, lbrace, tBusid, tBusidval, tBusid, tBusidval, tBusid, tBusidval, rbrace],
      fun v => .setup (.qeth (v 5) (v 7) (v 9))),
    ([tSetup, tZfcp, lbrace, tBusid, tBusidval, tWwpn, tHexnum, tLun, tHexnum, rbrace],
      fun v => .setup (.zfcp (v 5) (v 7) (v 9))),
    ([tUserinterface, tIdent, tString], fun v => .userinterface (v 2) (v 3)),
    ([tUserinterface, tSsh, tIdent, tString], fun v => .userinterfaceSsh (v 3) (v 4)),
    ([tExec, tString], fun v => .exec (v 2))]

/-- The rows of a table of items of the list `l`. -/
def itemRows {α : Type} (l : Level) (f : α → Act) (table : List (List Kind × ((Nat → CStr) → α))) :
    List Row :=
  table.map fun r => ⟨r.1, fun v => ([f (r.2 v)], .goto (.list l true))⟩

open Kind in
/-- The beginning of a system section. -/
def systemRow (l : Level) : Row := ⟨[tSystem], fun _ => ([], .goto (.systemlist l 0 none))⟩

open Kind in
/-- The rules of `def`. -/
def defRows : List Row :=
  itemRows .deflist id globaldefTable ++
  [⟨[tSetup, tModule, lbrace], fun _ => ([], .push .setupModule (.list .modparamlist false))⟩,
    ⟨[tSetup, tNetwork, lbrace], fun _ => ([], .push .network (.list .netparamlist false))⟩,
    ⟨[tBootEntry, lbrace], fun _ => ([], .push .bootentry .title)⟩, systemRow .deflist]

/-- The rules of the elements of a list. -/
def elementRows : Level → List Row
  | .deflist => defRows
  | .modparamlist => itemRows .modparamlist .modparam modparamTable ++ [systemRow .modparamlist]
  | .netparamlist => itemRows .netparamlist .netparam netparamTable ++ [systemRow .netparamlist]
  | .optionlist => itemRows .optionlist .option optionTable ++ [systemRow .optionlist]

open Kind in
/-- The closing brace. -/
def closeRow : Row := ⟨[rbrace], fun _ => ([], .pop)⟩

/-- A longer `systemlist`. -/
def extend (acc : Option SystemList) (id : SystemId) : SystemList :=
  match acc with
  | none => .one id
  | some l => .more l id

/-- The rows of the tests of a system section. -/
def systemidRows (l : Level) (nots : Nat) (acc : Option SystemList) : List Row :=
  systemidTable.map fun r => ⟨r.1, fun v => ([], .goto (.systemlist l nots (some (extend acc (r.2 v)))))⟩

/-- The members that a list of addresses sets, from the last to the first. -/
def addrActs (members : List (CStr → NetParam)) (addrs : List CStr) : List Act :=
  (List.zipWith (fun f addr => .netrest (f addr)) members addrs).reverse

/-- The actions of `T_STATIC ',' T_IDENT ',' T_IPADDR mask_rest` and of `knet`. -/
def knetActs (ident : CStr) (addrs : List CStr) : List Act :=
  addrActs [.mask, .gateway, .nameserver] addrs.tail ++
    [.netrest (.mode .static), .netrest (.interface ident), .netrest (.address (addrs.headD [])),
      .netEnable]

/-- The actions of `net_rest`. -/
def netRestActs (ident : CStr) (addrs : List CStr) : List Act :=
  addrActs [.address, .mask, .gateway, .nameserver] addrs ++ [.netrest (.interface ident)]

open Kind in
/-- The rules that can be read at a place. -/
def rows : Place → List Row
  | .input => defRows ++
    [⟨[tKnet, equals, tDhcp, comma, tIdent], fun v => ([.netrest (.mode .dhcp),
        .netrest (.interface (v 5)), .netEnable], .goto .finished)⟩,
      ⟨[tKnet, equals, tStatic, comma, tIdent, comma, tIpaddr], fun v =>
        ([], .goto (.knetRest (v 5) [v 7]))⟩,
      ⟨[tKset, equals], fun _ => ([], .goto .ksetParam)⟩]
  | .list l true => closeRow :: elementRows l
  | .list .deflist false => closeRow :: elementRows .deflist
  | .list l false => elementRows l
  | .title => [⟨[tTitle, tString], fun v => ([.title (v 2)], .goto .label)⟩]
  | .label => [⟨[tLabel, tString], fun v => ([.label (v 2)], .goto (.list .optionlist false))⟩]
  | .systemlist l nots none =>
    ⟨[tNot, lparen], fun _ => ([], .goto (.systemlist l (nots + 1) none))⟩ ::
      systemidRows l nots none
  | .systemlist l (nots + 1) (some acc) =>
    ⟨[rparen], fun _ => ([], .goto (.systemlist l nots (some (.not acc))))⟩ ::
      systemidRows l (nots + 1) (some acc)
  | .systemlist l 0 (some acc) => systemidRows l 0 (some acc)
  | .brace l => [⟨[lbrace], fun _ => ([], .push (.system l) (.list l false))⟩]
  | .knetRest ident addrs =>
    [⟨[comma, tIpaddr], fun v =>
      if addrs.length < 3 then ([], .goto (.knetRest ident (addrs ++ [v 2])))
      else (knetActs ident (addrs ++ [v 2]), .goto .finished)⟩]
  | .finished => []
  | .ksetParam =>
    [⟨[tDasd, lparen, tBusidval, rparen], fun v => ([.ksetSetup (.dasd (v 3))], .goto .ksetRest)⟩,
      ⟨[tQeth, lparen, tBusidval, comma, tBusidval, comma, tBusidval, rparen], fun v =>
        ([.ksetSetup (.qeth (v 3) (v 5) (v 7))], .goto .ksetRest)⟩,
      ⟨[tZfcp, lparen, tBusidval, comma, tHexnum, comma, tHexnum, rparen], fun v =>
        ([.ksetSetup (.zfcp (v 3) (v 5) (v 7))], .goto .ksetRest)⟩,
      ⟨[tDhcp, lparen, tIdent], fun v => ([], .goto (.netRest .dhcp (v 3) []))⟩,
      ⟨[tStatic, lparen, tIdent], fun v => ([], .goto (.netRest .static (v 3) []))⟩,
      ⟨[tMod, lparen, tIdent, rparen], fun v => ([.ksetMod (v 3)], .goto .ksetRest)⟩]
  | .ksetRest => [⟨[comma], fun _ => ([], .goto .ksetParam)⟩]
  | .netRest mode ident addrs =>
    [⟨[comma, tIpaddr], fun v =>
      if addrs.length < 3 then ([], .goto (.netRest mode ident (addrs ++ [v 2])))
      else (netRestActs ident (addrs ++ [v 2]), .goto (.netClose mode))⟩]
  | .netClose mode =>
    [⟨[rparen], fun _ => ([.netrest (.mode mode), .netEnable], .goto .ksetRest)⟩]

/-- The default reduction of a place. -/
def Place.reduction : Place → Option (List Act × Place)
  | .label => some ([], .list .optionlist false)
  | .systemlist l 0 (some acc) => some ([.enterSystem acc], .brace l)
  | .knetRest ident addrs => some (knetActs ident addrs, .finished)
  | .netRest mode ident addrs => some (netRestActs ident addrs, .netClose mode)
  | _ => none

/-- The input may end here. -/
def Place.accepts : Place → Bool
  | .list .deflist true => true
  | .finished => true
  | .ksetRest => true
  | _ => false

/-- The control of the parser. -/
structure Control where
  place : Place
  stack : List Closer
  read : List Token
  deriving DecidableEq, Repr

/-- The control at the beginning. -/
def Control.start : Control := ⟨.input, [], []⟩

/-- The tokens are those of the row. -/
def Row.fits (r : Row) (read : List Token) : Bool := decide (r.kinds = read.map Token.kind)

/-- The row begins with the tokens. -/
def Row.begins (r : Row) (read : List Token) : Bool := (read.map Token.kind).isPrefixOf r.kinds

/-- What is left of the control behind a row. -/
def Next.apply (stack : List Closer) (acts : List Act) : Next → List Act × Option Control
  | .goto p => (acts, some ⟨p, stack, []⟩)
  | .push k p => (acts, some ⟨p, k :: stack, []⟩)
  | .pop =>
    match stack with
    | [] => (acts, none)
    | k :: stack => (acts ++ [k.act], some ⟨.list k.level true, stack, []⟩)

/-- A token is shifted; no reduction comes first. -/
def Control.advance (c : Control) (t : Token) : List Act × Option Control :=
  let read := c.read ++ [t]
  match (rows c.place).find? (·.fits read) with
  | some r =>
    let (acts, next) := r.effect (dollar (read.map Token.val))
    next.apply c.stack acts
  | none =>
    if (rows c.place).any (·.begins read) then ([], some { c with read := read }) else ([], none)

/-- The default reduction that is made before the token is looked at. -/
def Control.reducible (c : Control) (t : Token) : Option (List Act × Place) :=
  if c.read = [] ∧ ¬ (rows c.place).any (·.begins [t]) then c.place.reduction else none

/-- What the parser does with a token. -/
def Control.shift (c : Control) (t : Token) : List Act × Option Control :=
  match c.reducible t with
  | some (acts, p) =>
    let (acts', c') := { c with place := p }.advance t
    (acts ++ acts', c')
  | none => c.advance t

/-- What the parser does with the end of the input: the actions and whether it accepts. -/
def Control.finish (c : Control) : List Act × Bool :=
  if c.read = [] then
    match c.place.reduction with
    | some (acts, p) => (acts, p.accepts && c.stack.isEmpty)
    | none => ([], c.place.accepts && c.stack.isEmpty)
  else ([], false)

/-- A sequence of tokens. -/
def Control.feed : Control → List Token → List Act × Option Control
  | c, [] => ([], some c)
  | c, t :: ts =>
    match c.shift t with
    | (acts, none) => (acts, none)
    | (acts, some c') =>
      let (acts', r) := c'.feed ts
      (acts ++ acts', r)

namespace Control

@[simp] theorem feed_nil (c : Control) : c.feed [] = ([], some c) := rfl

theorem feed_cons {c c' : Control} {t : Token} {acts : List Act}
    (h : c.shift t = (acts, some c')) (ts : List Token) :
    c.feed (t :: ts) = (acts ++ (c'.feed ts).1, (c'.feed ts).2) := by
  rw [feed, h]

theorem feed_append {c c' : Control} {ts : List Token} {acts : List Act}
    (h : c.feed ts = (acts, some c')) (us : List Token) :
    c.feed (ts ++ us) = (acts ++ (c'.feed us).1, (c'.feed us).2) := by
  induction ts generalizing c acts with
  | nil =>
    cases h
    rfl
  | cons t ts ih =>
    rw [feed] at h
    split at h
    · cases h
    · rename_i acts₁ c₁ hshift
      cases hfeed : c₁.feed ts with
      | mk acts₂ r =>
        rw [hfeed] at h
        cases h
        rw [List.cons_append, feed_cons hshift, ih hfeed, List.append_assoc]

end Control

/-! ## Reading a row -/

/-- No row is a beginning of another one. -/
def prefixFree : List (List Kind) → Bool
  | [] => true
  | k :: ks => ks.all (fun k' => !k.isPrefixOf k' && !k'.isPrefixOf k) && prefixFree ks

section Row

variable {rs : List Row} {r : Row} {ts : List Token}

/-- Rows without a common beginning: one that begins another one is the other one. -/
theorem eq_of_begins (hfree : prefixFree (rs.map Row.kinds) = true) {r' : Row} (hr : r ∈ rs)
    (hr' : r' ∈ rs) (h : r.kinds <+: r'.kinds) : r = r' := by
  induction rs with
  | nil => exact absurd hr List.not_mem_nil
  | cons s rs ih =>
    simp only [List.map_cons, prefixFree, Bool.and_eq_true, List.all_eq_true, Bool.not_eq_true',
      ← Bool.not_eq_true, List.isPrefixOf_iff_prefix] at hfree
    rcases List.mem_cons.mp hr with rfl | hmem <;> rcases List.mem_cons.mp hr' with rfl | hmem'
    · rfl
    · exact absurd h (hfree.1 _ (List.mem_map_of_mem hmem')).1
    · exact absurd h (hfree.1 _ (List.mem_map_of_mem hmem)).2
    · exact ih hfree.2 hmem hmem'

/-- Only the row itself fits its tokens. -/
theorem find_fits (hfree : prefixFree (rs.map Row.kinds) = true) (hr : r ∈ rs)
    (hts : ts.map Token.kind = r.kinds) : rs.find? (·.fits ts) = some r := by
  cases hfind : rs.find? (·.fits ts) with
  | none =>
    have hnot := List.find?_eq_none.mp hfind r hr
    exact absurd (decide_eq_true hts.symm) hnot
  | some r' =>
    have hfits := List.find?_some hfind
    simp only [Row.fits, decide_eq_true_eq] at hfits
    rw [eq_of_begins hfree (List.mem_of_find?_eq_some hfind) hr (by rw [hfits, hts])]

/-- Within a row no row fits. -/
theorem find_none (hfree : prefixFree (rs.map Row.kinds) = true) (hr : r ∈ rs) {ks : List Kind}
    (hts : ts.map Token.kind ++ ks = r.kinds) (hks : ks ≠ []) :
    rs.find? (·.fits ts) = none := by
  refine List.find?_eq_none.mpr fun r' hr' hfits => ?_
  have hfits : r'.kinds = ts.map Token.kind := of_decide_eq_true hfits
  have heq := eq_of_begins hfree hr' hr ⟨ks, by rw [hfits, hts]⟩
  subst heq
  rw [hfits] at hts
  exact hks (List.append_right_eq_self.mp hts)

theorem any_begins (hr : r ∈ rs) {ks : List Kind} (hts : ts.map Token.kind ++ ks = r.kinds) :
    rs.any (·.begins ts) = true :=
  List.any_eq_true.mpr ⟨r, hr, List.isPrefixOf_iff_prefix.mpr ⟨ks, hts⟩⟩

end Row

/-- **Reading a row**: its tokens run its actions. -/
theorem feed_row {p : Place} {stack : List Closer} {r : Row}
    (hfree : prefixFree ((rows p).map Row.kinds) = true) (hr : r ∈ rows p) {ts : List Token}
    (hts : ts.map Token.kind = r.kinds) (hne : ts ≠ []) {acts : List Act} {c' : Control}
    (hend : (r.effect (dollar (ts.map Token.val))).2.apply stack
      (r.effect (dollar (ts.map Token.val))).1 = (acts, some c')) :
    Control.feed ⟨p, stack, []⟩ ts = (acts, some c') := by
  -- the tokens read so far are a beginning of the row
  suffices H : ∀ us read, read ++ us = ts → us ≠ [] →
      Control.feed ⟨p, stack, read⟩ us = (acts, some c') from H ts [] rfl hne
  intro us
  induction us with
  | nil => exact fun _ _ h => absurd rfl h
  | cons u us ih =>
    intro read hread _
    have hkinds : (read ++ [u]).map Token.kind ++ us.map Token.kind = r.kinds := by
      rw [← List.map_append, List.append_assoc, List.singleton_append, hread, hts]
    have hnot : Control.reducible ⟨p, stack, read⟩ u = none := by
      unfold Control.reducible
      split
      · rename_i h
        obtain ⟨rfl, hbegins⟩ := h
        exact absurd (any_begins hr hkinds) hbegins
      · rfl
    cases us with
    | nil =>
      rw [List.map_nil, List.append_nil] at hkinds
      have hadvance : Control.advance ⟨p, stack, read⟩ u = (acts, some c') := by
        rw [Control.advance, find_fits hfree hr hkinds]
        rw [← hread] at hend
        exact hend
      rw [Control.feed, Control.shift, hnot]
      simp only [hadvance, Control.feed_nil, List.append_nil]
    | cons v us =>
      have hadvance : Control.advance ⟨p, stack, read⟩ u =
          ([], some ⟨p, stack, read ++ [u]⟩) := by
        rw [Control.advance, find_none hfree hr hkinds (by simp)]
        simp only [any_begins hr hkinds, if_true]
      have hrest := ih (read ++ [u]) (by simpa using hread) (by simp)
      rw [Control.feed, Control.shift, hnot]
      simp only [hadvance, hrest, List.nil_append]

/-- A row of one token. -/
theorem feed_token {p : Place} {stack : List Closer} {r : Row}
    (hfree : prefixFree ((rows p).map Row.kinds) = true) (hr : r ∈ rows p) {t : Token}
    (ht : [t.kind] = r.kinds) {acts : List Act} {c' : Control}
    (hend : (r.effect (dollar [t.val])).2.apply stack (r.effect (dollar [t.val])).1 =
      (acts, some c')) :
    Control.feed ⟨p, stack, []⟩ [t] = (acts, some c') := by
  have hts : [t].map Token.kind = r.kinds := ht
  exact feed_row hfree hr hts (List.cons_ne_nil _ _) hend

/-! ## The tokens of a configuration -/

/-- The tokens of an item with rules of their own. -/
def Fits {α : Type} (table : List (List Kind × ((Nat → CStr) → α))) (a : α) (ts : List Token) :
    Prop :=
  ∃ r ∈ table, ts.map Token.kind = r.1 ∧ r.2 (dollar (ts.map Token.val)) = a

/-- The tokens of a `systemlist`. -/
inductive SystemList.Reads : SystemList → List Token → Prop where
  | one {id : SystemId} {ts : List Token} (h : Fits systemidTable id ts) : Reads (.one id) ts
  | more {l : SystemList} {id : SystemId} {ts us : List Token} (hl : Reads l ts)
    (h : Fits systemidTable id us) : Reads (.more l id) (ts ++ us)
  | not {l : SystemList} {ts open_ : List Token} {close : Token} (hl : Reads l ts)
    (hopen : open_.map Token.kind = [.tNot, .lparen]) (hclose : close.kind = .rparen) :
    Reads (.not l) (open_ ++ ts ++ [close])

/-- The tokens of a list. Only in a `deflist` a section may be empty. -/
inductive Items.Reads {α : Type} (l : Level) (leaf : α → List Token → Prop) :
    Items α → List Token → Prop where
  | nil : Reads l leaf .nil []
  | leaf {a : α} {rest : Items α} {ts us : List Token} (ha : leaf a ts)
    (hrest : Reads l leaf rest us) : Reads l leaf (.leaf a rest) (ts ++ us)
  | system {test : SystemList} {body rest : Items α} {ts us vs : List Token}
    {system lbrace rbrace : Token} (hbody : l = .deflist ∨ body ≠ .nil)
    (hsystem : system.kind = .tSystem) (htest : test.Reads ts) (hlbrace : lbrace.kind = .lbrace)
    (hreads : Reads l leaf body us) (hrbrace : rbrace.kind = .rbrace)
    (hrest : Reads l leaf rest vs) :
    Reads l leaf (.system test body rest)
      (system :: ts ++ lbrace :: us ++ rbrace :: vs)

/-- The tokens of a definition. -/
inductive Definition.Reads : Definition → List Token → Prop where
  | global {d : Definition} {act : Act} {ts : List Token} (hd : d.acts = [act])
    (h : Fits globaldefTable act ts) : Reads d ts
  | setupModule {params : Items ModParam} {ts us : List Token} {rbrace : Token}
    (hopen : ts.map Token.kind = [.tSetup, .tModule, .lbrace])
    (hparams : params.Reads .modparamlist (Fits modparamTable) us) (hne : params ≠ .nil)
    (hrbrace : rbrace.kind = .rbrace) : Reads (.setupModule params) (ts ++ us ++ [rbrace])
  | network {params : Items NetParam} {ts us : List Token} {rbrace : Token}
    (hopen : ts.map Token.kind = [.tSetup, .tNetwork, .lbrace])
    (hparams : params.Reads .netparamlist (Fits netparamTable) us) (hne : params ≠ .nil)
    (hrbrace : rbrace.kind = .rbrace) : Reads (.network params) (ts ++ us ++ [rbrace])
  | bootentry {title : CStr} {label : Option CStr} {options : Items BootOption}
    {ts ls us : List Token} {rbrace : Token}
    (hopen : ts.map Token.kind = [.tBootEntry, .lbrace, .tTitle, .tString])
    (htitle : dollar (ts.map Token.val) 4 = title)
    (hlabel : (label = none ∧ ls = []) ∨ ∃ str, label = some str ∧
      ls.map Token.kind = [.tLabel, .tString] ∧ dollar (ls.map Token.val) 2 = str)
    (hoptions : options.Reads .optionlist (Fits optionTable) us) (hne : options ≠ .nil)
    (hrbrace : rbrace.kind = .rbrace) :
    Reads (.bootentry title label options) (ts ++ ls ++ us ++ [rbrace])

/-- The tokens of a configuration. -/
def Config.Reads (d : Config) (ts : List Token) : Prop :=
  Items.Reads .deflist Definition.Reads d ts

theorem prefixFree_input : prefixFree ((rows .input).map Row.kinds) = true := by decide +kernel

theorem prefixFree_list (l : Level) (b : Bool) :
    prefixFree ((rows (.list l b)).map Row.kinds) = true := by
  cases l <;> cases b <;> decide +kernel

theorem prefixFree_systemlist (l : Level) (n : Nat) (acc : Option SystemList) :
    prefixFree ((rows (.systemlist l n acc)).map Row.kinds) = true := by
  cases acc <;> cases n <;> rfl

theorem systemidRows_subset (l : Level) (n : Nat) (acc : Option SystemList) {r : Row}
    (hr : r ∈ systemidRows l n acc) : r ∈ rows (.systemlist l n acc) := by
  rcases acc with _ | acc
  · exact List.mem_cons_of_mem _ hr
  · cases n with
    | zero => exact hr
    | succ n => exact List.mem_cons_of_mem _ hr

theorem ne_nil_of_kinds {ts : List Token} {k : Kind} {ks : List Kind}
    (h : ts.map Token.kind = k :: ks) : ts ≠ [] := by
  rintro rfl
  cases h

/-- A `systemid` extends the `systemlist` before it. -/
theorem feed_systemid {l : Level} {n : Nat} {acc : Option SystemList} {stack : List Closer}
    {id : SystemId} {ts : List Token} (h : Fits systemidTable id ts) :
    Control.feed ⟨.systemlist l n acc, stack, []⟩ ts =
      ([], some ⟨.systemlist l n (some (extend acc id)), stack, []⟩) := by
  obtain ⟨r, hr, hkinds, rfl⟩ := h
  have hne : ts ≠ [] := by
    rintro rfl
    have hall : systemidTable.all (fun r => !r.1.isEmpty) = true := rfl
    have hr := List.all_eq_true.mp hall r hr
    rw [← hkinds] at hr
    cases hr
  exact feed_row (prefixFree_systemlist l n acc)
    (systemidRows_subset l n acc (List.mem_map_of_mem hr)) hkinds hne rfl

/-- The tests of a section. -/
theorem feed_systemlist {l : Level} {tree : SystemList} {ts : List Token} (h : tree.Reads ts) :
    ∀ (n : Nat) (stack : List Closer), Control.feed ⟨.systemlist l n none, stack, []⟩ ts =
      ([], some ⟨.systemlist l n (some tree), stack, []⟩) := by
  induction h with
  | one h => exact fun n stack => feed_systemid h
  | more _ h ih =>
    intro n stack
    rw [Control.feed_append (ih n stack), feed_systemid h]
    rfl
  | @not tree ts open_ close _ hopen hclose ih =>
    intro n stack
    have hnot : Control.feed ⟨.systemlist l n none, stack, []⟩ open_ =
        ([], some ⟨.systemlist l (n + 1) none, stack, []⟩) :=
      feed_row (prefixFree_systemlist l n none) List.mem_cons_self hopen
        (ne_nil_of_kinds hopen) rfl
    have hend : Control.feed ⟨.systemlist l (n + 1) (some tree), stack, []⟩ [close] =
        ([], some ⟨.systemlist l n (some (.not tree)), stack, []⟩) :=
      feed_token (prefixFree_systemlist l (n + 1) (some tree)) List.mem_cons_self
        (congrArg (fun k => [k]) hclose) rfl
    rw [List.append_assoc, Control.feed_append hnot, Control.feed_append (ih (n + 1) stack), hend]
    rfl

/-- The head of a section, from the list around it. -/
theorem feed_systemHead {p : Place} {l : Level} {stack : List Closer}
    (hfree : prefixFree ((rows p).map Row.kinds) = true) (hrow : systemRow l ∈ rows p)
    {test : SystemList} {ts : List Token} {system lbrace : Token} (hsystem : system.kind = .tSystem)
    (htest : test.Reads ts) (hlbrace : lbrace.kind = .lbrace) :
    Control.feed ⟨p, stack, []⟩ (system :: ts ++ [lbrace]) =
      ([.enterSystem test], some ⟨.list l false, .system l :: stack, []⟩) := by
  have hsys : Control.feed ⟨p, stack, []⟩ [system] =
      ([], some ⟨.systemlist l 0 none, stack, []⟩) :=
    feed_token hfree hrow (congrArg (fun k => [k]) hsystem) rfl
  -- the brace begins no test, so the section is entered before it is shifted
  have hbrace : Control.feed ⟨.systemlist l 0 (some test), stack, []⟩ [lbrace] =
      ([.enterSystem test], some ⟨.list l false, .system l :: stack, []⟩) := by
    obtain ⟨k, v⟩ := lbrace
    obtain rfl : k = .lbrace := hlbrace
    rfl
  have hhead := Control.feed_append hsys (ts ++ [lbrace])
  rw [Control.feed_append (feed_systemlist htest 0 stack), hbrace] at hhead
  exact hhead

/-- The closing brace of a list that may end. -/
theorem feed_close {l : Level} {b : Bool} (hb : b = true ∨ l = .deflist) {k : Closer}
    {stack : List Closer} {rbrace : Token} (hrbrace : rbrace.kind = .rbrace) :
    Control.feed ⟨.list l b, k :: stack, []⟩ [rbrace] =
      ([k.act], some ⟨.list k.level true, stack, []⟩) := by
  have hrow : closeRow ∈ rows (.list l b) := by
    rcases hb with rfl | rfl
    · exact List.mem_cons_self
    · cases b <;> exact List.mem_cons_self
  exact feed_token (prefixFree_list l b) hrow (congrArg (fun k => [k]) hrbrace) rfl

/-- The elements of the list `l` can be read at `p`. -/
structure Hosts (l : Level) (p : Place) : Prop where
  free : prefixFree ((rows p).map Row.kinds) = true
  elements : ∀ r ∈ elementRows l, r ∈ rows p

theorem hosts_input : Hosts .deflist .input :=
  ⟨prefixFree_input, fun _ hr => List.mem_append_left _ hr⟩

theorem hosts_list (l : Level) (b : Bool) : Hosts l (.list l b) := by
  refine ⟨prefixFree_list l b, fun r hr => ?_⟩
  cases b with
  | true => exact List.mem_cons_of_mem _ hr
  | false =>
    cases l with
    | deflist => exact List.mem_cons_of_mem _ hr
    | modparamlist => exact hr
    | netparamlist => exact hr
    | optionlist => exact hr

theorem systemRow_mem (l : Level) : systemRow l ∈ elementRows l := by
  cases l <;> simp [elementRows, defRows]

/-- The place behind the elements of a list. -/
def Items.behind {α : Type} (l : Level) (p : Place) : Items α → Place
  | .nil => p
  | _ => .list l true

theorem Items.behind_true {α : Type} (l : Level) (items : Items α) :
    items.behind l (.list l true) = .list l true := by
  cases items <;> rfl

/-- **The tokens of a list run its actions**, from every place where its elements can be read, if the
tokens of its items do. -/
theorem feed_items {α : Type} {l : Level} {f : α → List Act} {leaf : α → List Token → Prop}
    (hleaf : ∀ a ts p stack, Hosts l p → leaf a ts →
      Control.feed ⟨p, stack, []⟩ ts = (f a, some ⟨.list l true, stack, []⟩))
    {items : Items α} {ts : List Token} (h : items.Reads l leaf ts) :
    ∀ (p : Place) (stack : List Closer), Hosts l p →
      Control.feed ⟨p, stack, []⟩ ts =
        (items.acts f, some ⟨items.behind l p, stack, []⟩) := by
  induction h with
  | nil => exact fun p stack _ => rfl
  | leaf ha _ ih =>
    intro p stack hp
    rw [Control.feed_append (hleaf _ _ p stack hp ha), ih _ stack (hosts_list l true),
      Items.behind_true]
    rfl
  | @system test body rest ts us vs system lbrace rbrace hbody hsystem htest hlbrace _ hrbrace _
      ihbody ihrest =>
    intro p stack hp
    have hhead := @feed_systemHead p l stack hp.free (hp.elements _ (systemRow_mem l)) test ts
      system lbrace hsystem htest hlbrace
    have hin := ihbody (.list l false) (.system l :: stack) (hosts_list l false)
    have hlast : ∃ b, body.behind l (.list l false) = .list l b ∧ (b = true ∨ l = .deflist) := by
      cases body with
      | nil => exact ⟨false, rfl, Or.inr (hbody.resolve_right fun h => h rfl)⟩
      | leaf a rest => exact ⟨true, rfl, Or.inl rfl⟩
      | system test body rest => exact ⟨true, rfl, Or.inl rfl⟩
    obtain ⟨b, hb, hmay⟩ := hlast
    have hclose := @feed_close l b hmay (.system l) stack rbrace hrbrace
    have hbehind := ihrest (.list l true) stack (hosts_list l true)
    rw [Items.behind_true] at hbehind
    have hsplit : system :: ts ++ lbrace :: us ++ rbrace :: vs =
        (system :: ts ++ [lbrace]) ++ (us ++ ([rbrace] ++ vs)) := by simp
    rw [hsplit, Control.feed_append hhead, Control.feed_append hin, hb,
      Control.feed_append hclose]
    have hlevel : Closer.level (.system l) = l := rfl
    rw [hlevel, hbehind]
    simp [Items.behind, Closer.act]

/-- The tokens of an item with rules of its own. -/
theorem feed_item {α : Type} {l : Level} {f : α → Act}
    {table : List (List Kind × ((Nat → CStr) → α))}
    (htable : ∀ r ∈ itemRows l f table, r ∈ elementRows l)
    (hne : table.all (fun r => !r.1.isEmpty) = true) {a : α} {ts : List Token} {p : Place}
    {stack : List Closer} (hp : Hosts l p) (h : Fits table a ts) :
    Control.feed ⟨p, stack, []⟩ ts = ([f a], some ⟨.list l true, stack, []⟩) := by
  obtain ⟨r, hr, hkinds, rfl⟩ := h
  refine feed_row hp.free (hp.elements _ (htable _ (List.mem_map_of_mem hr))) hkinds ?_ rfl
  rintro rfl
  have hr := List.all_eq_true.mp hne r hr
  rw [← hkinds] at hr
  cases hr

/-- The list of a section and its closing brace. -/
theorem feed_section {α : Type} {l : Level} {f : α → Act}
    {table : List (List Kind × ((Nat → CStr) → α))}
    (htable : ∀ r ∈ itemRows l f table, r ∈ elementRows l)
    (hrows : table.all (fun r => !r.1.isEmpty) = true) {us : List Token} {rbrace : Token}
    {items : Items α} (hitems : items.Reads l (Fits table) us) (hne : items ≠ .nil)
    (hrbrace : rbrace.kind = .rbrace) (k : Closer) (stack : List Closer) :
    Control.feed ⟨.list l false, k :: stack, []⟩ (us ++ [rbrace]) =
      ((items.acts fun a => [f a]) ++ [k.act], some ⟨.list k.level true, stack, []⟩) := by
  have hin := feed_items (f := fun a => [f a])
    (fun a ts p stack hp ha => feed_item htable hrows hp ha) hitems (.list l false) (k :: stack)
    (hosts_list l false)
  have hlast : items.behind l (.list l false) = .list l true := by
    cases items with
    | nil => exact absurd rfl hne
    | leaf a rest => rfl
    | system test body rest => rfl
  rw [hlast] at hin
  rw [Control.feed_append hin, feed_close (Or.inl rfl) hrbrace]

/-- Options do not begin with another keyword. -/
theorem options_head {k : Kind} (hall : optionTable.all (fun r => r.1.head?.any (· != k)) = true)
    (hk : k ≠ .tSystem) {options : Items BootOption} {us : List Token}
    (h : options.Reads .optionlist (Fits optionTable) us) (hne : options ≠ .nil) :
    ∃ u rest, us = u :: rest ∧ u.kind ≠ k := by
  cases h with
  | nil => exact absurd rfl hne
  | leaf ha _ =>
    obtain ⟨r, hr, hkinds, _⟩ := ha
    have hhead := List.all_eq_true.mp hall r hr
    rename_i ts us _ _
    cases ts with
    | nil =>
      rw [← hkinds] at hhead
      cases hhead
    | cons t ts =>
      rw [← hkinds] at hhead
      exact ⟨t, _, rfl, by simpa using hhead⟩
  | system _ hsystem => exact ⟨_, _, rfl, by rw [hsystem]; exact hk.symm⟩

/-- Without a label the parser goes on to the options. -/
theorem feed_label {stack : List Closer} {t : Token} (ht : t.kind ≠ .tLabel) (ts : List Token) :
    Control.feed ⟨.label, stack, []⟩ (t :: ts) =
      Control.feed ⟨.list .optionlist false, stack, []⟩ (t :: ts) := by
  have hbegins : (rows .label).any (·.begins [t]) = false := by
    obtain ⟨k, v⟩ := t
    cases k <;> first | rfl | exact absurd rfl ht
  have hlabel : Control.reducible ⟨.label, stack, []⟩ t = some ([], .list .optionlist false) := by
    rw [Control.reducible, if_pos ⟨rfl, by rw [hbegins]; simp⟩]
    rfl
  have hlist : Control.reducible ⟨.list .optionlist false, stack, []⟩ t = none := by
    unfold Control.reducible
    split <;> rfl
  rw [Control.feed, Control.feed, Control.shift, Control.shift, hlabel, hlist]
  rfl

/-- **The tokens of a definition run its actions.** -/
theorem feed_definition {d : Definition} {ts : List Token} {p : Place} {stack : List Closer}
    (hp : Hosts .deflist p) (h : d.Reads ts) :
    Control.feed ⟨p, stack, []⟩ ts = (d.acts, some ⟨.list .deflist true, stack, []⟩) := by
  have hrow : ∀ r ∈ defRows, r ∈ rows p := hp.elements
  cases h with
  | global hd h =>
    rw [hd]
    exact feed_item (f := id) (fun r hr => List.mem_append_left _ hr) rfl hp h
  | @setupModule params ts us rbrace hopen hparams hne hrbrace =>
    have hhead : Control.feed ⟨p, stack, []⟩ ts =
        ([], some ⟨.list .modparamlist false, .setupModule :: stack, []⟩) :=
      feed_row hp.free (hrow _ (List.mem_append_right _ List.mem_cons_self)) hopen
        (ne_nil_of_kinds hopen) rfl
    rw [List.append_assoc, Control.feed_append hhead,
      feed_section (fun r hr => List.mem_append_left _ hr) rfl hparams hne hrbrace]
    rfl
  | @network params ts us rbrace hopen hparams hne hrbrace =>
    have hhead : Control.feed ⟨p, stack, []⟩ ts =
        ([], some ⟨.list .netparamlist false, .network :: stack, []⟩) :=
      feed_row hp.free (hrow _ (List.mem_append_right _ (List.mem_cons_of_mem _
        List.mem_cons_self))) hopen (ne_nil_of_kinds hopen) rfl
    rw [List.append_assoc, Control.feed_append hhead,
      feed_section (fun r hr => List.mem_append_left _ hr) rfl hparams hne hrbrace]
    rfl
  | @bootentry title label options ts ls us rbrace hopen htitle hlabel hoptions hne hrbrace =>
    have hoptionlist := feed_section (f := .option) (fun r hr => List.mem_append_left _ hr) rfl
      hoptions hne hrbrace .bootentry stack
    -- the head ends in front of the label, which may be missing
    have hhead : Control.feed ⟨p, stack, []⟩ ts =
        ([.title title], some ⟨.label, .bootentry :: stack, []⟩) := by
      have hparts : ts.map Token.kind = [.tBootEntry, .lbrace] ++ [.tTitle, .tString] := hopen
      obtain ⟨ts₁, ts₂, rfl, hopen₁, hopen₂⟩ := List.map_eq_append_iff.mp hparts
      have hfirst : Control.feed ⟨p, stack, []⟩ ts₁ =
          ([], some ⟨.title, .bootentry :: stack, []⟩) :=
        feed_row hp.free (hrow _ (List.mem_append_right _ (List.mem_cons_of_mem _
          (List.mem_cons_of_mem _ List.mem_cons_self)))) hopen₁ (ne_nil_of_kinds hopen₁) rfl
      have hsecond : Control.feed ⟨.title, .bootentry :: stack, []⟩ ts₂ =
          ([.title (dollar (ts₂.map Token.val) 2)], some ⟨.label, .bootentry :: stack, []⟩) :=
        feed_row rfl List.mem_cons_self hopen₂ (ne_nil_of_kinds hopen₂) rfl
      have hval : dollar ((ts₁ ++ ts₂).map Token.val) 4 = dollar (ts₂.map Token.val) 2 := by
        have hlength : ts₁.length = 2 := by simpa using congrArg List.length hopen₁
        simp [dollar, List.getElem?_append_right, hlength]
      rw [Control.feed_append hfirst, hsecond, ← htitle, hval]
      rfl
    rw [List.append_assoc, List.append_assoc, Control.feed_append hhead]
    rcases hlabel with ⟨rfl, rfl⟩ | ⟨str, rfl, hkinds, hval⟩
    · obtain ⟨u, rest, rfl, hu⟩ := options_head (k := .tLabel) rfl (by decide) hoptions hne
      simp only [List.nil_append, List.cons_append] at hoptionlist ⊢
      rw [feed_label hu, hoptionlist]
      rfl
    · have hls : Control.feed ⟨.label, .bootentry :: stack, []⟩ ls =
          ([.label str], some ⟨.list .optionlist false, .bootentry :: stack, []⟩) :=
        hval ▸ feed_row rfl List.mem_cons_self hkinds (ne_nil_of_kinds hkinds) rfl
      rw [Control.feed_append hls, hoptionlist]
      rfl

/-- **The tokens of a configuration run its actions**, and the parser accepts them. -/
theorem feed_config {d : Config} {ts : List Token} (h : d.Reads ts) (hne : d ≠ .nil) :
    Control.start.feed ts = (d.acts, some ⟨.list .deflist true, [], []⟩) := by
  have hfeed := feed_items (f := Definition.acts)
    (fun a ts p stack hp ha => feed_definition hp ha) h .input [] hosts_input
  have hlast : Items.behind .deflist .input d = .list .deflist true := by
    cases d with
    | nil => exact absurd rfl hne
    | leaf a rest => rfl
    | system test body rest => rfl
  rw [hlast] at hfeed
  exact hfeed

end Sysload.Parser
