import Sysload.Loader.InsfileLines
import Sysload.Parser.Context

/-!
# Network setup with DHCP (`netbase.c`, `dhcp_request.c`)

`nb_conf_enable()` asks `dhcpcd()` for a lease, several times if need be, copies it over the static
configuration, and configures the interface. `dhcpcd()` reads the file that the DHCP client has
written, with a line `KEY=VALUE` for each member of `dhcp_request`; a member without a line stays
`NULL`. `none` is undefined behaviour: the use of `NULL`.

Source: `src/core/netbase.c`, `nb_conf_enable`; `src/core/dhcp_request.c`, `dhcpcd`. Out of scope
are the DHCP client itself and the end of an earlier one.

Results:
* `readInfo_eq_some`: what is read, `copy_eq_some_iff`: what is copied.
* **`requests_lease`**: a request that fails leaves nothing behind.
* `nbConfEnable_failed`: without a lease the static values are used.
* **`usable_iff`**: when the setup can use a lease.
-/

namespace Sysload.Netbase

open Sysload.Parser (NbMode)

/-! ## The members of a request -/

/-- The members of `struct dhcp_request` that are strings. -/
inductive StrMember where
  | ipaddr
  | netmask
  | network
  | broadcast
  | gateway
  | domain
  | dhcpsid
  | dhcpgiaddr
  | dhcpsiaddr
  | dhcpchaddr
  | dhcpshaddr
  | dhcpsname
  | interface
  | classid
  | clientid
  deriving DecidableEq, Repr

/-- Its members that are times. -/
inductive TimeMember where
  | leasetime
  | renewaltime
  | rebindtime
  deriving DecidableEq, Repr

/-- What a line of the info file is for. -/
inductive Key where
  | str (m : StrMember)
  | dns
  | time (m : TimeMember)
  deriving DecidableEq, Repr

/-- The name of a key. -/
def Key.name : Key → CStr
  | .str .ipaddr => "IPADDR".toList
  | .str .netmask => "NETMASK".toList
  | .str .network => "NETWORK".toList
  | .str .broadcast => "BROADCAST".toList
  | .str .gateway => "GATEWAY".toList
  | .str .domain => "DOMAIN".toList
  | .dns => "DNS".toList
  | .str .dhcpsid => "DHCPSID".toList
  | .str .dhcpgiaddr => "DHCPGIADDR".toList
  | .str .dhcpsiaddr => "DHCPSIADDR".toList
  | .str .dhcpchaddr => "DHCPCHADDR".toList
  | .str .dhcpshaddr => "DHCPSHADDR".toList
  | .str .dhcpsname => "DHCPSNAME".toList
  | .time .leasetime => "LEASETIME".toList
  | .time .renewaltime => "RENEWALTIME".toList
  | .time .rebindtime => "REBINDTIME".toList
  | .str .interface => "INTERFACE".toList
  | .str .classid => "CLASSID".toList
  | .str .clientid => "CLIENTID".toList

/-- The keys in the order of the tests. -/
def keys : List Key :=
  [.str .ipaddr, .str .netmask, .str .network, .str .broadcast, .str .gateway, .str .domain, .dns,
    .str .dhcpsid, .str .dhcpgiaddr, .str .dhcpsiaddr, .str .dhcpchaddr, .str .dhcpshaddr,
    .str .dhcpsname, .time .leasetime, .time .renewaltime, .time .rebindtime, .str .interface,
    .str .classid, .str .clientid]

/-- `struct dhcp_request`. No list is `NULL`. -/
structure DhcpRequest where
  str : StrMember → Option CStr
  dns : List CStr
  time : TimeMember → Int

/-- `dhcp_req_init`. -/
def DhcpRequest.init : DhcpRequest := ⟨fun _ => none, [], fun _ => 0⟩

/-! ## Reading the info file -/

/-- The key and the value of a line, whose last character is cut off. -/
def assignment (piece : CStr) : Option (CStr × CStr) :=
  let line := (cstr piece).dropLast
  if '=' ∈ line then some (line.takeWhile (· ≠ '='), (line.dropWhile (· ≠ '=')).tail) else none

/-- The first test that a key passes: `strncmp(line, name, len)` compares as many characters as the
key has. -/
def keyOf (key : CStr) : Option Key := keys.find? fun k => key.isPrefixOf k.name

/-- What the branch of a key does. -/
def DhcpRequest.assign (dhcp : DhcpRequest) (value : CStr) : Key → DhcpRequest
  | .str m => { dhcp with str := Function.update dhcp.str m (some value) }
  | .dns => { dhcp with dns := dhcp.dns ++ value.splitOn ',' }
  | .time m => { dhcp with time := Function.update dhcp.time m (atol longMax value) }

/-- The body of the loop. In a line without an equals sign the pointers are undefined. -/
def readLine (dhcp : DhcpRequest) (piece : CStr) : Option DhcpRequest :=
  (assignment piece).map fun (key, value) =>
    match keyOf key with
    | none => dhcp
    | some k => dhcp.assign value k

/-- The loop of `dhcpcd` over the pieces that `fgets` delivers. -/
def readInfo (pieces : List CStr) (dhcp : DhcpRequest) : Option DhcpRequest :=
  pieces.foldlM readLine dhcp

/-- What the DHCP client leaves: its exit status, and its info file if that can be opened. -/
structure Answer where
  status : Int
  info : Option (List Char)

/-- The info file that is read. -/
def Answer.lease (answer : Answer) : Option (List Char) :=
  if answer.status ≠ 0 then none else answer.info

/-- `dhcpcd`, behind the command, for a request without name servers. The inner `none` is its result
`NULL`. -/
def dhcpcd (answer : Answer) (dhcp : DhcpRequest) : Option (Option DhcpRequest) :=
  match answer.lease with
  | none => some none
  | some data => (readInfo (fgetsPieces data (cfgStrMaxLen - 1) []) dhcp).map some

/-- The command of `dhcpcd`. -/
def dhcpcdCommand (interface : CStr) (timeout : Nat) : CStr :=
  "/sbin/dhcpcd -T -t ".toList ++ printInt timeout ++ " -NYRG -L /tmp/ -c /bin/true ".toList ++
    interface

/-! ## Enabling the interface -/

/-- `struct nb_conf`. The parser does not set the domain. -/
structure NbConf extends Parser.NbConf where
  domain : CStr

/-- What `nb_conf_enable` finds around it: what each call of the DHCP client leaves, and whether
`/etc/resolv.conf` can be opened. -/
structure Env where
  answers : Nat → Answer
  resolvconf : Bool
  arg0 : CStr

/-- What `nb_conf_enable` does: the configuration behind it, what it appends to `/etc/resolv.conf`,
its commands, and what it prints on `stderr`. -/
structure Result where
  conf : NbConf
  resolvconf : CStr
  commands : List CStr
  stderr : CStr

/-- `DHCP_MAX_RETRIES`. -/
def dhcpMaxRetries : Nat := 5

/-- The calls of `cfg_strcpy` behind a successful request. -/
def NbConf.copy (conf : NbConf) (dhcp : DhcpRequest) : Option NbConf := do
  let address ← dhcp.str .ipaddr
  let mask ← dhcp.str .netmask
  let gateway ← dhcp.str .gateway
  let nameserver ← dhcp.dns.head?
  let domain ← dhcp.str .domain
  pure { conf with
    address := address, mask := mask, gateway := gateway, nameserver := nameserver,
    domain := domain }

/-- The loop over the requests: `retries` are left behind request `n`. -/
def requests (env : Env) (conf : NbConf) (dhcp : DhcpRequest) :
    (retries n timeout : Nat) → Option (NbConf × List CStr)
  | retries, n, timeout => do
    let command := dhcpcdCommand conf.interface timeout
    match ← dhcpcd (env.answers n) dhcp with
    | some dhcp => pure (← conf.copy dhcp, [command])
    | none =>
      match retries with
      | 0 => pure (conf, [command])
      | retries + 1 =>
        let (conf, commands) ← requests env conf dhcp retries (n + 1) (timeout * 2)
        pure (conf, command :: commands)

/-- `255.255.255.0` if there is no mask. -/
def NbConf.withMask (conf : NbConf) : NbConf :=
  if conf.mask = [] then { conf with mask := "255.255.255.0".toList } else conf

/-- What is appended to `/etc/resolv.conf`. -/
def resolvText (conf : NbConf) : CStr :=
  (if conf.domain ≠ [] then "domain ".toList ++ conf.domain ++ ['\n'] else []) ++
    (if conf.nameserver ≠ [] then "nameserver ".toList ++ conf.nameserver ++ ['\n'] else [])

/-- `nb_conf_enable` behind the requests. -/
def configure (env : Env) (conf : NbConf) (commands : List CStr) : Result :=
  let resolvconf := if env.resolvconf then resolvText conf else []
  let commands := commands ++ ["ifconfig lo 127.0.0.1".toList]
  if conf.interface = [] ∨ conf.address = [] then
    ⟨conf, resolvconf, commands,
      env.arg0 ++ ":invalid network interface or address\n".toList⟩
  else
    let conf := conf.withMask
    let ifconfig := "ifconfig ".toList ++ conf.interface ++ " ".toList ++ conf.address ++
      " netmask ".toList ++ conf.mask ++ " up".toList
    let route := if conf.gateway ≠ [] then ["route add default gw ".toList ++ conf.gateway] else []
    ⟨conf, resolvconf, commands ++ [ifconfig] ++ route, []⟩

/-- `nb_conf_enable`. -/
def nbConfEnable (env : Env) (conf : NbConf) : Option Result :=
  match conf.mode with
  | .static => some (configure env conf [])
  | .dhcp => do
    let (conf, commands) ← requests env conf DhcpRequest.init dhcpMaxRetries 0 10
    pure (configure env conf commands)

/-! ## What is read -/

/-- The value that a piece has for a key. -/
def assigned (k : Key) (piece : CStr) : Option CStr :=
  (assignment piece).bind fun (key, value) => if keyOf key = some k then some value else none

/-- The values that a file has for a key. -/
def valuesFor (pieces : List CStr) (k : Key) : List CStr := pieces.filterMap (assigned k)

/-- One line: its string is stored, its name servers are added. -/
theorem readLine_eq_some {dhcp dhcp' : DhcpRequest} {piece : CStr}
    (h : readLine dhcp piece = some dhcp') :
    (∀ m, dhcp'.str m = (assigned (.str m) piece).or (dhcp.str m)) ∧
      dhcp'.dns = dhcp.dns ++ (assigned .dns piece).toList.flatMap fun v => v.splitOn ',' := by
  obtain ⟨⟨key, value⟩, hpiece, rfl⟩ := Option.map_eq_some_iff.mp h
  have hassigned : ∀ k, assigned k piece = if keyOf key = some k then some value else none :=
    fun k => by rw [assigned, hpiece, Option.bind_some]
  cases hk : keyOf key with
  | none =>
    simp only [hassigned, hk]
    exact ⟨fun m => rfl, (List.append_nil _).symm⟩
  | some k =>
    simp only [hassigned, hk, Option.some.injEq]
    cases k with
    | str m =>
      refine ⟨fun m' => ?_, (List.append_nil _).symm⟩
      by_cases hm : m' = m
      · subst hm
        simp [DhcpRequest.assign]
      · simp [DhcpRequest.assign, Function.update_of_ne hm, Ne.symm hm]
    | dns => exact ⟨fun m => rfl, by simp [DhcpRequest.assign]⟩
    | time m => exact ⟨fun m => rfl, (List.append_nil _).symm⟩

/-- **All lines**: of the strings for a member the last one is left, of the name servers all. -/
theorem readInfo_eq_some {pieces : List CStr} {dhcp dhcp' : DhcpRequest}
    (h : readInfo pieces dhcp = some dhcp') :
    (∀ m, dhcp'.str m = (valuesFor pieces (.str m)).getLast?.or (dhcp.str m)) ∧
      dhcp'.dns = dhcp.dns ++ (valuesFor pieces .dns).flatMap fun v => v.splitOn ',' := by
  induction pieces generalizing dhcp with
  | nil =>
    obtain rfl := Option.some.inj h
    exact ⟨fun m => rfl, (List.append_nil _).symm⟩
  | cons piece pieces ih =>
    rw [readInfo, List.foldlM_cons] at h
    obtain ⟨dhcp₁, hpiece, hrest⟩ := Option.bind_eq_some_iff.mp h
    obtain ⟨hstr, hdns⟩ := readLine_eq_some hpiece
    obtain ⟨hstr', hdns'⟩ := ih hrest
    constructor
    · intro m
      rw [hstr', hstr, valuesFor, valuesFor, List.filterMap_cons]
      cases assigned (.str m) piece with
      | none => rfl
      | some value =>
        rw [List.getLast?_cons]
        cases (pieces.filterMap (assigned (.str m))).getLast? with
        | none => rfl
        | some v => rfl
    · rw [hdns', hdns, valuesFor, valuesFor, List.filterMap_cons]
      cases assigned .dns piece with
      | none => simp
      | some value => simp

/-- The file is read if every piece has an equals sign. -/
theorem readInfo_isSome_iff {pieces : List CStr} {dhcp : DhcpRequest} :
    (readInfo pieces dhcp).isSome ↔ ∀ piece ∈ pieces, (assignment piece).isSome := by
  induction pieces generalizing dhcp with
  | nil => simp [readInfo]
  | cons piece pieces ih =>
    rw [readInfo, List.foldlM_cons, List.forall_mem_cons]
    cases hpiece : assignment piece with
    | none => simp [readLine, hpiece]
    | some kv => simpa [readLine, hpiece, readInfo] using ih

/-! ## What is copied -/

/-- The settings that a lease replaces. -/
inductive Setting where
  | address
  | mask
  | gateway
  | nameserver
  | domain
  deriving DecidableEq, Repr

/-- The key of a setting. -/
def Setting.key : Setting → Key
  | .address => .str .ipaddr
  | .mask => .str .netmask
  | .gateway => .str .gateway
  | .nameserver => .dns
  | .domain => .str .domain

/-- What a value of the file says: of the name servers it is the first one. -/
def Setting.read : Setting → CStr → CStr
  | .nameserver, value => value.takeWhile (· ≠ ',')
  | _, value => value

/-- The value of a setting. -/
def NbConf.get (conf : NbConf) : Setting → CStr
  | .address => conf.address
  | .mask => conf.mask
  | .gateway => conf.gateway
  | .nameserver => conf.nameserver
  | .domain => conf.domain

/-- The configuration with other settings. -/
def NbConf.set (conf : NbConf) (v : Setting → CStr) : NbConf :=
  { conf with
    address := v .address, mask := v .mask, gateway := v .gateway, nameserver := v .nameserver,
    domain := v .domain }

@[simp] theorem NbConf.get_set (conf : NbConf) (v : Setting → CStr) (s : Setting) :
    (conf.set v).get s = v s := by
  cases s <;> rfl

/-- The member of a request that a setting is copied from. -/
def DhcpRequest.get (dhcp : DhcpRequest) : Setting → Option CStr
  | .address => dhcp.str .ipaddr
  | .mask => dhcp.str .netmask
  | .gateway => dhcp.str .gateway
  | .nameserver => dhcp.dns.head?
  | .domain => dhcp.str .domain

/-- **The lease is copied** if all five members are set. -/
theorem copy_eq_some_iff {conf conf' : NbConf} {dhcp : DhcpRequest} :
    conf.copy dhcp = some conf' ↔ ∃ v, (∀ s, dhcp.get s = some (v s)) ∧ conf' = conf.set v := by
  simp only [NbConf.copy, Option.bind_eq_bind, Option.bind_eq_some_iff, Option.pure_def,
    Option.some.injEq]
  constructor
  · rintro ⟨a, ha, m, hm, g, hg, n, hn, d, hd, rfl⟩
    refine ⟨fun s => ?_, ?_⟩
    · exact match s with
        | .address => a
        | .mask => m
        | .gateway => g
        | .nameserver => n
        | .domain => d
    · exact ⟨fun s => by cases s <;> assumption, rfl⟩
  · rintro ⟨v, hv, rfl⟩
    exact ⟨_, hv .address, _, hv .mask, _, hv .gateway, _, hv .nameserver, _, hv .domain, rfl⟩

/-- What is taken from a file for a setting: the last value, or the first name server. -/
def Setting.taken (s : Setting) (pieces : List CStr) : Option CStr :=
  (match s with
    | .nameserver => (valuesFor pieces .dns).head?
    | s => (valuesFor pieces s.key).getLast?).map s.read

theorem Setting.exists_of_taken {s : Setting} {pieces : List CStr} {result : CStr}
    (h : s.taken pieces = some result) :
    ∃ value ∈ valuesFor pieces s.key, result = s.read value := by
  cases s with
  | nameserver =>
    obtain ⟨value, hvalue, rfl⟩ := Option.map_eq_some_iff.mp h
    exact ⟨value, List.mem_of_head? hvalue, rfl⟩
  | _ =>
    obtain ⟨value, hvalue, rfl⟩ := Option.map_eq_some_iff.mp h
    exact ⟨value, List.mem_of_getLast? hvalue, rfl⟩

theorem Setting.isSome_taken {s : Setting} {pieces : List CStr} {value : CStr}
    (h : value ∈ valuesFor pieces s.key) : (s.taken pieces).isSome := by
  have hne := List.ne_nil_of_mem h
  cases s with
  | nameserver =>
    show ((valuesFor pieces _).head?.map _).isSome = true
    rw [Option.isSome_map, List.isSome_head?]
    exact hne
  | _ =>
    show ((valuesFor pieces _).getLast?.map _).isSome = true
    rw [Option.isSome_map, List.getLast?_isSome]
    exact hne

theorem head?_splitOn (value : CStr) :
    (value.splitOn ',').head? = some (value.takeWhile (· ≠ ',')) := by
  induction value with
  | nil => rfl
  | cons c value ih =>
    rw [List.splitOn_cons_eq_if_modifyHead]
    by_cases hc : c = ','
    · simp [hc]
    · simp [hc, ih]

theorem get_readInfo {pieces : List CStr} {dhcp : DhcpRequest}
    (h : readInfo pieces DhcpRequest.init = some dhcp) (s : Setting) :
    dhcp.get s = s.taken pieces := by
  obtain ⟨hstr, hdns⟩ := readInfo_eq_some h
  have hmember : ∀ m, dhcp.str m = (valuesFor pieces (.str m)).getLast?.map id := fun m => by
    rw [hstr, DhcpRequest.init, Option.or_none, Option.map_id, id]
  cases s with
  | nameserver =>
    show dhcp.dns.head? = ((valuesFor pieces .dns).head?).map _
    rw [hdns, DhcpRequest.init, List.nil_append]
    cases valuesFor pieces .dns with
    | nil => rfl
    | cons value values =>
      rw [List.flatMap_cons, List.head?_append, head?_splitOn]
      rfl
  | address => exact hmember _
  | mask => exact hmember _
  | gateway => exact hmember _
  | domain => exact hmember _

/-! ## The whole setup -/

/-- The pieces of an info file. -/
def infoPieces (data : List Char) : List CStr := fgetsPieces data (cfgStrMaxLen - 1) []

/-- The requests in front of request `n` fail, and this one leaves the info file `data`. -/
structure FirstLease (answers : Nat → Answer) (n : Nat) (data : List Char) : Prop where
  le : n ≤ dhcpMaxRetries
  failed : ∀ m < n, (answers m).lease = none
  lease : (answers n).lease = some data

theorem dhcpcd_lease {answer : Answer} {data : List Char} (h : answer.lease = some data)
    (dhcp : DhcpRequest) : dhcpcd answer dhcp = (readInfo (infoPieces data) dhcp).map some := by
  rw [dhcpcd, h]
  rfl

theorem dhcpcd_failed {answer : Answer} (h : answer.lease = none) (dhcp : DhcpRequest) :
    dhcpcd answer dhcp = some none := by
  rw [dhcpcd, h]

/-- Behind a request that fails comes the next one. -/
theorem requests_failed {env : Env} {conf : NbConf} {n : Nat}
    (h : (env.answers n).lease = none) (dhcp : DhcpRequest) (retries timeout : Nat) :
    (requests env conf dhcp (retries + 1) n timeout).map Prod.fst =
      (requests env conf dhcp retries (n + 1) (timeout * 2)).map Prod.fst := by
  conv_lhs => unfold requests
  rw [dhcpcd_failed h]
  show ((requests env conf dhcp retries (n + 1) (timeout * 2)).bind
    fun x => some (x.1, _ :: x.2)).map Prod.fst = _
  cases requests env conf dhcp retries (n + 1) (timeout * 2) with
  | none => rfl
  | some x => rfl

/-- **A request that fails leaves nothing behind**: the first lease is used as if there were no
request before it. -/
theorem requests_lease {env : Env} {conf : NbConf} {dhcp : DhcpRequest} {data : List Char}
    {d retries n : Nat} (hle : d ≤ retries)
    (hfailed : ∀ m, n ≤ m → m < n + d → (env.answers m).lease = none)
    (hlease : (env.answers (n + d)).lease = some data) (timeout : Nat) :
    (requests env conf dhcp retries n timeout).map Prod.fst =
      (readInfo (infoPieces data) dhcp).bind conf.copy := by
  induction d generalizing retries n timeout with
  | zero =>
    rw [Nat.add_zero] at hlease
    unfold requests
    rw [dhcpcd_lease hlease]
    cases readInfo (infoPieces data) dhcp with
    | none => rfl
    | some dhcp' =>
      show ((conf.copy dhcp').bind fun conf' => some (conf', _)).map Prod.fst = conf.copy dhcp'
      cases conf.copy dhcp' with
      | none => rfl
      | some conf' => rfl
  | succ d ih =>
    obtain ⟨retries, rfl⟩ := Nat.exists_eq_add_of_le' (Nat.one_le_of_lt hle)
    have hnext : n + 1 + d = n + (d + 1) := by omega
    rw [requests_failed (hfailed n (Nat.le_refl n) (Nat.lt_add_of_pos_right d.succ_pos))]
    exact ih (Nat.le_of_succ_le_succ hle)
      (fun m hm hlt => hfailed m (Nat.le_of_succ_le hm) (hnext ▸ hlt)) (hnext ▸ hlease) _

/-- What a setting is behind the default for the mask. -/
def final (interface : CStr) (v : Setting → CStr) : Setting → CStr
  | .mask =>
    if interface ≠ [] ∧ v .address ≠ [] ∧ v .mask = [] then "255.255.255.0".toList else v .mask
  | s => v s

theorem final_of_not {interface : CStr} {v : Setting → CStr}
    (h : ¬ (interface ≠ [] ∧ v .address ≠ [] ∧ v .mask = [])) (s : Setting) :
    final interface v s = v s := by
  cases s with
  | mask => exact if_neg h
  | _ => rfl

theorem get_configure {env : Env} {conf : NbConf} {commands : List CStr} (s : Setting) :
    (configure env conf commands).conf.get s = final conf.interface conf.get s := by
  unfold configure
  by_cases hminimal : conf.interface = [] ∨ conf.address = []
  · rw [if_pos hminimal]
    exact (final_of_not (fun h => hminimal.elim h.1 h.2.1) s).symm
  · obtain ⟨hinterface, haddress⟩ := not_or.mp hminimal
    rw [if_neg hminimal]
    show conf.withMask.get s = _
    unfold NbConf.withMask
    by_cases hmask : conf.mask = []
    · have hdefault : conf.interface ≠ [] ∧ conf.get .address ≠ [] ∧ conf.get .mask = [] :=
        ⟨hinterface, haddress, hmask⟩
      rw [if_pos hmask]
      cases s with
      | mask => exact (if_pos hdefault).symm
      | _ => rfl
    · rw [if_neg hmask]
      exact (final_of_not (fun h => hmask h.2.2) s).symm

/-- Behind the requests the setup does not fail. -/
theorem nbConfEnable_dhcp {env : Env} {conf : NbConf} (hmode : conf.mode = .dhcp) :
    nbConfEnable env conf = (requests env conf DhcpRequest.init dhcpMaxRetries 0 10).map
      fun x => configure env x.1 x.2 := by
  unfold nbConfEnable
  rw [hmode]
  show (requests env conf DhcpRequest.init dhcpMaxRetries 0 10).bind
    (fun x => some (configure env x.1 x.2)) = _
  exact Option.map_eq_bind.symm

/-- The configuration that a lease leaves: all five members of the request are copied. -/
theorem copied_eq_some_iff {conf conf' : NbConf} {pieces : List CStr} :
    (readInfo pieces DhcpRequest.init).bind conf.copy = some conf' ↔
      (∀ piece ∈ pieces, (assignment piece).isSome) ∧
        ∃ v, (∀ s, Setting.taken s pieces = some (v s)) ∧ conf' = conf.set v := by
  rw [← @readInfo_isSome_iff pieces DhcpRequest.init, Option.isSome_iff_exists,
    Option.bind_eq_some_iff]
  constructor
  · rintro ⟨dhcp, hread, hcopy⟩
    obtain ⟨v, hv, hconf⟩ := copy_eq_some_iff.mp hcopy
    exact ⟨⟨dhcp, hread⟩, v, fun s => (get_readInfo hread s).symm.trans (hv s), hconf⟩
  · rintro ⟨⟨dhcp, hread⟩, v, hv, hconf⟩
    exact ⟨dhcp, hread, copy_eq_some_iff.mpr
      ⟨v, fun s => (get_readInfo hread s).trans (hv s), hconf⟩⟩

/-- **The setup after a lease**: what it needs, and what it ends with. -/
theorem nbConfEnable_lease_iff {env : Env} {conf : NbConf} {n : Nat} {data : List Char}
    (hmode : conf.mode = .dhcp) (hlease : FirstLease env.answers n data)
    (ends : Setting → CStr → Prop) :
    (∃ result, nbConfEnable env conf = some result ∧ ∀ s, ends s (result.conf.get s)) ↔
      (∀ piece ∈ infoPieces data, (assignment piece).isSome) ∧
        ∃ v, (∀ s, Setting.taken s (infoPieces data) = some (v s)) ∧
          ∀ s, ends s (final conf.interface v s) := by
  have hfirst : (requests env conf DhcpRequest.init dhcpMaxRetries 0 10).map Prod.fst =
      (readInfo (infoPieces data) DhcpRequest.init).bind conf.copy :=
    requests_lease hlease.le (fun m _ hm => hlease.failed m (by omega))
      (by rw [Nat.zero_add]; exact hlease.lease) 10
  have hget : ∀ v, (conf.set v).get = v := fun v => funext (conf.get_set v)
  constructor
  · rintro ⟨result, henable, hends⟩
    rw [nbConfEnable_dhcp hmode] at henable
    obtain ⟨⟨conf', commands⟩, hrequests, rfl⟩ := Option.map_eq_some_iff.mp henable
    rw [hrequests] at hfirst
    obtain ⟨hall, v, hv, rfl⟩ := copied_eq_some_iff.mp hfirst.symm
    refine ⟨hall, v, hv, fun s => ?_⟩
    have hs := hends s
    rw [get_configure, hget] at hs
    exact hs
  · rintro ⟨hall, v, hv, hends⟩
    rw [copied_eq_some_iff.mpr ⟨hall, v, hv, rfl⟩] at hfirst
    obtain ⟨⟨conf', commands⟩, hrequests, rfl⟩ := Option.map_eq_some_iff.mp hfirst
    refine ⟨configure env (conf.set v) commands, ?_, fun s => ?_⟩
    · rw [nbConfEnable_dhcp hmode, hrequests]
      rfl
    · rw [get_configure, hget]
      exact hends s

/-- **If all requests fail** the static configuration is used. -/
theorem nbConfEnable_failed {env : Env} {conf : NbConf} (hmode : conf.mode = .dhcp)
    (hfailed : ∀ m ≤ dhcpMaxRetries, (env.answers m).lease = none) :
    ∃ result, nbConfEnable env conf = some result ∧
      ∀ s, result.conf.get s = final conf.interface conf.get s := by
  have hrequests : ∀ {retries n : Nat} (timeout : Nat), n + retries = dhcpMaxRetries →
      (requests env conf DhcpRequest.init retries n timeout).map Prod.fst = some conf := by
    intro retries
    induction retries with
    | zero =>
      intro n timeout hn
      unfold requests
      rw [dhcpcd_failed (hfailed n (Nat.le_of_eq hn))]
      rfl
    | succ retries ih =>
      intro n timeout hn
      rw [requests_failed (hfailed n (Nat.le.intro hn))]
      exact ih _ (by omega)
  obtain ⟨x, hx, rfl⟩ := Option.map_eq_some_iff.mp (hrequests 10 (Nat.zero_add _))
  refine ⟨configure env x.1 x.2, ?_, get_configure⟩
  rw [nbConfEnable_dhcp hmode, hx]
  rfl

/-! ## Info files -/

/-- A line `KEY=VALUE`. -/
structure Line where
  key : CStr
  value : CStr
  key_eq : '=' ∉ key
  key_newline : '\n' ∉ key
  key_nul : nul ∉ key
  value_newline : '\n' ∉ value
  value_nul : nul ∉ value

/-- The text of a line. -/
def Line.text (l : Line) : CStr := l.key ++ '=' :: l.value ++ ['\n']

/-- The text of an info file. -/
def infoText (lines : List Line) : List Char := lines.flatMap Line.text

/-- The file has a line with the key `k` and this value. -/
def Leases (lines : List Line) (k : Key) (value : CStr) : Prop :=
  ∃ l ∈ lines, l.key = k.name ∧ l.value = value

/-- A setting ends up as the file leases it, or else as it was configured. -/
def EndsUp (lines : List Line) (conf : NbConf) (s : Setting) (result : CStr) : Prop :=
  (∃ value, Leases lines s.key value ∧ result = s.read value) ∨
    (∀ value, ¬ Leases lines s.key value) ∧ result = conf.get s

/-- **The lease is usable**: the setup uses no `NULL`, and all settings end up as they should. -/
def Usable (env : Env) (conf : NbConf) (lines : List Line) : Prop :=
  ∃ result, nbConfEnable env conf = some result ∧ ∀ s, EndsUp lines conf s (result.conf.get s)

/-- An info file whose lines fit into the buffer, and whose keys are different and abbreviate none
of those of `dhcpcd`. -/
structure Plain (lines : List Line) : Prop where
  fits : ∀ l ∈ lines, l.text.length < cfgStrMaxLen
  whole : ∀ l ∈ lines, ∀ k, keyOf l.key = some k → l.key = k.name
  once : (lines.map Line.key).Nodup

/-- Of the keys none abbreviates another one. -/
theorem keyOf_name (k : Key) : keyOf k.name = some k := by
  cases k with
  | str m => cases m <;> rfl
  | dns => rfl
  | time m => cases m <;> rfl

/-- A line that fits is one piece. -/
theorem fgetsPieces_fits {line : List Char} (h : '\n' ∉ line) (room : Nat) (piece : CStr)
    (hroom : line.length < room) :
    fgetsPieces (line ++ ['\n']) room piece = [piece ++ (line ++ ['\n'])] := by
  induction line generalizing room piece with
  | nil => rw [List.nil_append, fgetsPieces, if_pos (Or.inl rfl)]; rfl
  | cons c line ih =>
    obtain ⟨hc, hline⟩ := List.ne_and_not_mem_of_not_mem_cons h
    rw [List.length_cons] at hroom
    have hstop : ¬ (c = '\n' ∨ room ≤ 1) := by
      rintro (heq | hle)
      · exact hc heq.symm
      · omega
    rw [List.cons_append, fgetsPieces, if_neg hstop, ih hline _ _ (by omega), List.append_assoc]
    rfl

theorem infoPieces_text {lines : List Line} (h : ∀ l ∈ lines, l.text.length < cfgStrMaxLen) :
    infoPieces (infoText lines) = lines.map Line.text := by
  induction lines with
  | nil => rfl
  | cons l lines ih =>
    obtain ⟨hl, hlines⟩ := List.forall_mem_cons.mp h
    have hnewline : '\n' ∉ l.key ++ '=' :: l.value := by
      rw [List.mem_append, List.mem_cons]
      rintro (hmem | heq | hmem)
      · exact l.key_newline hmem
      · exact absurd heq (by decide)
      · exact l.value_newline hmem
    have hroom : (l.key ++ '=' :: l.value).length < cfgStrMaxLen - 1 := by
      rw [Line.text, List.length_append] at hl
      exact Nat.lt_sub_of_add_lt hl
    have htext : infoText (l :: lines) = (l.key ++ '=' :: l.value) ++ '\n' :: infoText lines := by
      rw [infoText, List.flatMap_cons, Line.text, List.append_assoc]
      rfl
    rw [infoPieces, htext, fgetsPieces_behind, fgetsPieces_fits hnewline _ _ hroom, List.map_cons,
      ← ih hlines]
    rfl

theorem assignment_text (l : Line) : assignment l.text = some (l.key, l.value) := by
  have hnul : nul ∉ l.text := by
    rw [Line.text, List.mem_append, List.mem_append, List.mem_cons]
    rintro ((hmem | heq | hmem) | hmem)
    · exact l.key_nul hmem
    · exact absurd heq (by decide)
    · exact l.value_nul hmem
    · exact absurd hmem (by decide)
  have hkey : ∀ c ∈ l.key, decide (c ≠ '=') = true := fun c hc => by
    rw [decide_eq_true_eq]
    rintro rfl
    exact l.key_eq hc
  have hline : (cstr l.text).dropLast = l.key ++ '=' :: l.value := by
    rw [cstr_eq_self hnul, Line.text, List.dropLast_concat]
  rw [assignment, hline, if_pos (by simp), List.takeWhile_append_of_pos hkey,
    List.dropWhile_append_of_pos hkey]
  simp

namespace Plain

variable {lines : List Line} (h : Plain lines)
include h

/-- The values that are read for a key are those that the file has for it. -/
theorem mem_valuesFor {k : Key} {value : CStr} :
    value ∈ valuesFor (infoPieces (infoText lines)) k ↔ Leases lines k value := by
  rw [infoPieces_text h.fits, valuesFor, List.mem_filterMap]
  have hassigned : ∀ l ∈ lines,
      (assigned k l.text = some value ↔ l.key = k.name ∧ l.value = value) := by
    intro l hl
    rw [assigned, assignment_text, Option.bind_some]
    constructor
    · intro hsome
      obtain ⟨hkey, hvalue⟩ := Option.ite_none_right_eq_some.mp hsome
      exact ⟨h.whole l hl k hkey, Option.some.inj hvalue⟩
    · rintro ⟨hname, rfl⟩
      exact if_pos (hname ▸ keyOf_name k)
  constructor
  · rintro ⟨_, hpiece, hvalue⟩
    obtain ⟨l, hl, rfl⟩ := List.mem_map.mp hpiece
    exact ⟨l, hl, (hassigned l hl).mp hvalue⟩
  · rintro ⟨l, hl, hvalue⟩
    exact ⟨l.text, List.mem_map_of_mem hl, (hassigned l hl).mpr hvalue⟩

/-- A key has one value at most. -/
theorem leases_unique {k : Key} {value value' : CStr} (hvalue : Leases lines k value)
    (hvalue' : Leases lines k value') : value = value' := by
  obtain ⟨l, hl, hkey, rfl⟩ := hvalue
  obtain ⟨l', hl', hkey', rfl⟩ := hvalue'
  rw [List.inj_on_of_nodup_map h.once hl hl' (hkey.trans hkey'.symm)]

/-- What is taken for a setting is what the file leases. -/
theorem taken_eq_some_iff {s : Setting} {result : CStr} :
    s.taken (infoPieces (infoText lines)) = some result ↔
      ∃ value, Leases lines s.key value ∧ result = s.read value := by
  constructor
  · intro htaken
    obtain ⟨value, hvalue, rfl⟩ := Setting.exists_of_taken htaken
    exact ⟨value, h.mem_valuesFor.mp hvalue, rfl⟩
  · rintro ⟨value, hvalue, rfl⟩
    have hmem := h.mem_valuesFor.mpr hvalue
    obtain ⟨result, hresult⟩ := Option.isSome_iff_exists.mp (Setting.isSome_taken hmem)
    obtain ⟨value', hvalue', rfl⟩ := Setting.exists_of_taken hresult
    rw [hresult, h.leases_unique hvalue (h.mem_valuesFor.mp hvalue')]

/-- Every line has an equals sign. -/
theorem isSome_assignment : ∀ piece ∈ infoPieces (infoText lines), (assignment piece).isSome := by
  rw [infoPieces_text h.fits]
  intro piece hpiece
  obtain ⟨l, -, rfl⟩ := List.mem_map.mp hpiece
  rw [assignment_text]
  rfl

end Plain

/-- The info file has what the setup needs: in each piece an equals sign, and for each setting a
value that is the right one. -/
def Suffices (conf : NbConf) (lines : List Line) : Prop :=
  (∀ piece ∈ infoPieces (infoText lines), (assignment piece).isSome) ∧
    ∃ v, (∀ s, Setting.taken s (infoPieces (infoText lines)) = some (v s)) ∧
      ∀ s, EndsUp lines conf s (final conf.interface v s)

/-- All five keys are there, and the mask is not empty if it is needed. -/
def Complete (conf : NbConf) (lines : List Line) : Prop :=
  (∀ s : Setting, ∃ value, Leases lines s.key value) ∧
    (conf.interface ≠ [] → Leases lines (.str .netmask) [] → Leases lines (.str .ipaddr) [])

theorem Plain.suffices_iff {lines : List Line} (h : Plain lines) (conf : NbConf) :
    Suffices conf lines ↔ Complete conf lines := by
  constructor
  · rintro ⟨-, v, hv, hends⟩
    have hleases : ∀ s : Setting, ∃ value, Leases lines s.key value ∧ v s = s.read value :=
      fun s => h.taken_eq_some_iff.mp (hv s)
    refine ⟨fun s => (hleases s).imp fun _ hvalue => hvalue.1, fun hinterface hmask => ?_⟩
    by_contra haddress
    obtain ⟨address, hleased, hva⟩ := hleases .address
    obtain ⟨mask, hleased', hvm⟩ := hleases .mask
    obtain rfl : mask = [] := h.leases_unique hleased' hmask
    have hdefault : conf.interface ≠ [] ∧ v .address ≠ [] ∧ v .mask = [] := by
      refine ⟨hinterface, fun hnil => haddress ?_, hvm⟩
      rw [hva] at hnil
      exact hnil ▸ hleased
    rcases hends .mask with ⟨value, hvalue, hresult⟩ | ⟨hnone, -⟩
    · rw [h.leases_unique hvalue hmask] at hresult
      exact absurd ((if_pos hdefault).symm.trans hresult) (by decide)
    · exact hnone [] hmask
  · rintro ⟨hall, hmask⟩
    choose value hvalue using hall
    refine ⟨h.isSome_assignment, fun s => s.read (value s),
      fun s => h.taken_eq_some_iff.mpr ⟨value s, hvalue s, rfl⟩, fun s => ?_⟩
    have hnot : ¬ (conf.interface ≠ [] ∧ value .address ≠ [] ∧ value .mask = []) := by
      rintro ⟨hinterface, haddress, hnil⟩
      have hempty := hmask hinterface (hnil ▸ hvalue .mask)
      exact haddress (h.leases_unique (hvalue .address) hempty)
    rw [final_of_not (v := fun s => s.read (value s)) hnot]
    exact .inl ⟨value s, hvalue s, rfl⟩

/-- **When a lease is usable.** In a plain info file all five keys have to be there. -/
theorem usable_iff {env : Env} {conf : NbConf} {lines : List Line} {n : Nat}
    (hmode : conf.mode = .dhcp) (hlease : FirstLease env.answers n (infoText lines)) :
    (Usable env conf lines ↔ Suffices conf lines) ∧
      (Plain lines → (Usable env conf lines ↔ Complete conf lines)) := by
  have hiff : Usable env conf lines ↔ Suffices conf lines :=
    nbConfEnable_lease_iff hmode hlease (EndsUp lines conf)
  exact ⟨hiff, fun h => hiff.trans (h.suffices_iff conf)⟩

theorem name_plain (k : Key) : '=' ∉ k.name ∧ '\n' ∉ k.name ∧ nul ∉ k.name := by
  cases k with
  | str m => cases m <;> decide
  | dns => decide
  | time m => cases m <;> decide

/-- A line for a key of `dhcpcd`. -/
def Line.of (k : Key) (value : CStr) (hnewline : '\n' ∉ value) (hnul : nul ∉ value) : Line :=
  ⟨k.name, value, (name_plain k).1, (name_plain k).2.1, (name_plain k).2.2, hnewline, hnul⟩

theorem Line.exists_key_of {k : Key} {value : CStr} {hnewline : '\n' ∉ value} {hnul : nul ∉ value} :
    ∃ k' : Key, (Line.of k value hnewline hnul).key = k'.name := ⟨k, rfl⟩

/-- The keys of `dhcpcd` abbreviate none of each other. -/
theorem Plain.of_known {lines : List Line} (fits : ∀ l ∈ lines, l.text.length < cfgStrMaxLen)
    (known : ∀ l ∈ lines, ∃ k : Key, l.key = k.name) (once : (lines.map Line.key).Nodup) :
    Plain lines where
  fits := fits
  whole l hl k hk := by
    obtain ⟨k', hk'⟩ := known l hl
    rw [hk', keyOf_name] at hk
    rw [hk', Option.some.inj hk]
  once := once

/-- An interface without static values. -/
def eth0 : NbConf := ⟨⟨.dhcp, "eth0".toList, [], [], [], []⟩, []⟩

/-- The first request times out, the second one is answered with the info file. -/
def secondAnswer (lines : List Line) : Env where
  answers n := if n = 0 then ⟨1, none⟩ else ⟨0, some (infoText lines)⟩
  resolvconf := true
  arg0 := "sysload".toList

theorem secondAnswer_first (lines : List Line) :
    FirstLease (secondAnswer lines).answers 1 (infoText lines) where
  le := by decide
  failed m hm := by
    obtain rfl := Nat.lt_one_iff.mp hm
    rfl
  lease := rfl

/-- A file with all five keys. -/
def fullInfo : List Line :=
  [.of (.str .ipaddr) "10.0.0.2".toList (by decide) (by decide),
    .of (.str .netmask) "255.0.0.0".toList (by decide) (by decide),
    .of (.str .gateway) "10.0.0.1".toList (by decide) (by decide),
    .of (.str .domain) "local".toList (by decide) (by decide),
    .of .dns "10.0.0.3,10.0.0.4".toList (by decide) (by decide)]

theorem fullInfo_usable : Usable (secondAnswer fullInfo) eth0 fullInfo := by
  have hplain : Plain fullInfo := by
    refine .of_known (by decide) ?_ (by decide)
    simp only [fullInfo, List.forall_mem_cons, Line.exists_key_of, true_and]
    exact List.forall_mem_nil _
  have hcomplete : Complete eth0 fullInfo := by
    constructor
    · intro s
      cases s with
      | address => exact ⟨_, _, List.mem_of_getElem? (i := 0) rfl, rfl, rfl⟩
      | mask => exact ⟨_, _, List.mem_of_getElem? (i := 1) rfl, rfl, rfl⟩
      | gateway => exact ⟨_, _, List.mem_of_getElem? (i := 2) rfl, rfl, rfl⟩
      | domain => exact ⟨_, _, List.mem_of_getElem? (i := 3) rfl, rfl, rfl⟩
      | nameserver => exact ⟨_, _, List.mem_of_getElem? (i := 4) rfl, rfl, rfl⟩
    · intro _ hmask
      have hmask' : Leases fullInfo (.str .netmask) "255.0.0.0".toList :=
        ⟨_, List.mem_of_getElem? (i := 1) rfl, rfl, rfl⟩
      exact absurd (hplain.leases_unique hmask' hmask) (by decide)
  exact ((usable_iff rfl (secondAnswer_first fullInfo)).2 hplain).mpr hcomplete

/-- A file with an address only. -/
def addressInfo : List Line := [.of (.str .ipaddr) "10.0.0.2".toList (by decide) (by decide)]

/-- There is a lease, but without a mask: the setup uses `NULL`. -/
theorem addressInfo_unusable :
    FirstLease (secondAnswer addressInfo).answers 1 (infoText addressInfo) ∧
      nbConfEnable (secondAnswer addressInfo) eth0 = none ∧
        ¬ Usable (secondAnswer addressInfo) eth0 addressInfo := by
  have hplain : Plain addressInfo := by
    refine .of_known (by decide) ?_ (by decide)
    exact List.forall_mem_singleton.mpr Line.exists_key_of
  have hfirst := secondAnswer_first addressInfo
  have hnone : nbConfEnable (secondAnswer addressInfo) eth0 = none := by
    refine Option.eq_none_iff_forall_ne_some.mpr fun result henable => ?_
    obtain ⟨-, v, hv, -⟩ := (nbConfEnable_lease_iff rfl hfirst fun _ _ => True).mp
      ⟨result, henable, fun _ => trivial⟩
    obtain ⟨value, ⟨l, hl, hkey, -⟩, -⟩ := hplain.taken_eq_some_iff.mp (hv .mask)
    obtain rfl := List.mem_singleton.mp hl
    exact absurd hkey (by decide)
  refine ⟨hfirst, hnone, ?_⟩
  rintro ⟨result, henable, -⟩
  rw [hnone] at henable
  cases henable

end Sysload.Netbase
