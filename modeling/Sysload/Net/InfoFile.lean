import Sysload.Net.Dhcp
import Mathlib.Data.List.TakeWhile

/-!
# The info file of the DHCP client (`dhcp_request.c`)

The loop of `dhcpcd()` in full: the array of the name servers grows with each entry, and `counter`
goes on from line to line.

* The cells of the array that were never written are told apart from `NULL`.
* A `long` goes from `-limit - 1` to `limit`; `atol` stays in this range.

Source: `src/core/dhcp_request.c`, `dhcpcd`. Out of scope is a `realloc` that fails.

Results:
* `dnsLoop_eq`: the loop over a list of name servers splits it at the commas.
* `fillInfo_cases`: what any file does.
* **`dhcpcdFill_info`**: what a file of the keys of `dhcpcd` does.
* `fillInfo_readInfo`: the model of the network setup is right about strings and name servers.
-/

namespace Sysload.Netbase

/-! ## The structure in memory -/

/-- A cell of the array of name servers. -/
inductive Cell where
  | unset
  | null
  | entry (text : CStr)
  deriving DecidableEq, Repr

/-- `struct dhcp_request`: `none` is `NULL`. -/
structure DhcpStruct where
  str : StrMember → Option CStr
  dns : Option (List Cell)
  time : TimeMember → Int

/-- `realloc` of an array of pointers. -/
def reallocCells (cells : Option (List Cell)) (n : Nat) : List Cell :=
  let cells := cells.getD []
  cells.take n ++ List.replicate (n - cells.length) .unset

/-- The loop over the entries of a `DNS` line, up to its last comma and behind it: the array and
`counter`. -/
def dnsLoop (dns : Option (List Cell)) (counter : Nat) (t : CStr) : List Cell × Nat :=
  let dns := reallocCells dns (counter + 1)
  match _h : t.span fun c => c != ',' with
  | (entry, []) => (dns.set counter (.entry entry), counter + 1)
  | (entry, _ :: behind) => dnsLoop (some (dns.set counter (.entry entry))) (counter + 1) behind
  termination_by t.length
  decreasing_by
    rw [List.span_eq_takeWhile_dropWhile] at _h
    have hle := List.Sublist.length_le (List.dropWhile_sublist (l := t) fun c => c != ',')
    rw [(Prod.mk.inj _h).2] at hle
    exact hle

variable (limit : Nat)

/-- What the branch of a key does, with `counter`. -/
def DhcpStruct.fill (dhcp : DhcpStruct) (counter : Nat) (value : CStr) : Key → DhcpStruct × Nat
  | .str m => ({ dhcp with str := Function.update dhcp.str m (some value) }, counter)
  | .dns =>
    let (dns, counter) := dnsLoop dhcp.dns counter value
    ({ dhcp with dns := some ((reallocCells (some dns) (counter + 1)).set counter .null) }, counter)
  | .time m => ({ dhcp with time := Function.update dhcp.time m (atol limit value) }, counter)

/-- The body of the loop. In a line without an equals sign the pointers are undefined. -/
def fillLine (s : DhcpStruct × Nat) (piece : CStr) : Option (DhcpStruct × Nat) :=
  (assignment piece).map fun (key, value) =>
    match keyOf key with
    | none => s
    | some k => s.1.fill limit s.2 value k

/-- The loop of `dhcpcd`. -/
def fillInfo (pieces : List CStr) (s : DhcpStruct × Nat) : Option (DhcpStruct × Nat) :=
  pieces.foldlM (fillLine limit) s

/-- `dhcpcd`, behind the command. The inner `none` is its result `NULL`. -/
def dhcpcdFill (answer : Answer) (dhcp : DhcpStruct) : Option (Option DhcpStruct) :=
  match answer.lease with
  | none => some none
  | some data => (fillInfo limit (infoPieces data) (dhcp, 0)).map fun s => some s.1

/-! ## The name servers -/

/-- The array that begins with these entries. -/
def Begins (dns : Option (List Cell)) (entries : List CStr) : Prop :=
  (dns.getD []).take entries.length = entries.map .entry

theorem Begins.nil (dns : Option (List Cell)) : Begins dns [] := List.take_zero

/-- **One more cell** behind the entries. -/
theorem Begins.set {dns : Option (List Cell)} {entries : List CStr} (h : Begins dns entries)
    (cell : Cell) :
    (reallocCells dns (entries.length + 1)).set entries.length cell =
      entries.map .entry ++ [cell] := by
  have hle : entries.length ≤ (dns.getD []).length := by
    have hlength := congrArg List.length h
    rw [List.length_take, List.length_map] at hlength
    omega
  unfold reallocCells
  dsimp only
  rw [List.set_eq_take_append_cons_drop, if_pos]
  · rw [List.take_append_of_le_length, List.take_take, Nat.min_eq_left (Nat.le_succ _), h,
      List.drop_eq_nil_of_le]
    · simp only [List.length_append, List.length_take, List.length_replicate]
      omega
    · rw [List.length_take]
      omega
  · simp only [List.length_append, List.length_take, List.length_replicate]
    omega

theorem Begins.snoc (entries : List CStr) (entry : CStr) :
    Begins (some (entries.map .entry ++ [.entry entry])) (entries ++ [entry]) := by
  have hmap : entries.map Cell.entry ++ [.entry entry] = (entries ++ [entry]).map .entry := by
    rw [List.map_append]
    rfl
  rw [hmap]
  exact List.take_of_length_le (Nat.le_of_eq (List.length_map _))

/-- A list of name servers up to its first comma. -/
theorem span_comma (t : CStr) :
    (∃ entry, (t.span fun c => c != ',') = (entry, []) ∧ t = entry ∧ ',' ∉ entry) ∨
      ∃ entry behind, (t.span fun c => c != ',') = (entry, ',' :: behind) ∧
        t = entry ++ ',' :: behind ∧ ',' ∉ entry := by
  have hentry : ',' ∉ t.takeWhile fun c => c != ',' := fun hmem => by
    have hne := List.mem_takeWhile_imp hmem
    exact absurd rfl (bne_iff_ne.mp hne)
  have happend := List.takeWhile_append_dropWhile (p := fun c => c != ',') (l := t)
  rw [List.span_eq_takeWhile_dropWhile]
  cases hrest : t.dropWhile (fun c => c != ',') with
  | nil =>
    rw [hrest, List.append_nil] at happend
    exact .inl ⟨_, rfl, happend.symm, hentry⟩
  | cons c behind =>
    have hc := List.head_dropWhile_not (fun c => c != ',') (l := t) (by rw [hrest]; simp)
    simp only [hrest, List.head_cons, bne_eq_false_iff_eq] at hc
    rw [hrest, hc] at happend
    exact .inr ⟨_, behind, by rw [hc], happend.symm, hentry⟩

/-- **The loop splits the list at its commas** and puts the pieces behind the entries. -/
theorem dnsLoop_eq {dns : Option (List Cell)} {entries : List CStr} (h : Begins dns entries)
    (t : CStr) : dnsLoop dns entries.length t =
      ((entries ++ t.splitOn ',').map .entry, (entries ++ t.splitOn ',').length) := by
  induction hn : t.length using Nat.strongRecOn generalizing dns entries t with
  | _ n ih =>
    rw [dnsLoop]
    rcases span_comma t with ⟨entry, hspan, rfl, hentry⟩ | ⟨entry, behind, hspan, rfl, hentry⟩
    · rw [List.splitOn_eq_singleton hentry]
      split
      · rename_i hspan'
        obtain ⟨rfl, -⟩ := Prod.mk.inj (hspan.symm.trans hspan')
        rw [h.set, List.map_append, List.length_append]
        rfl
      · rename_i hspan'
        cases hspan.symm.trans hspan'
    · rw [List.splitOn_append_cons_self, List.splitOn_eq_singleton hentry, ← List.append_assoc]
      split
      · rename_i hspan'
        cases hspan.symm.trans hspan'
      · rename_i hspan'
        obtain ⟨rfl, hbehind⟩ := Prod.mk.inj (hspan.symm.trans hspan')
        obtain ⟨-, rfl⟩ := List.cons.inj hbehind
        have hlt : behind.length < n := by
          rw [← hn, List.length_append, List.length_cons]
          omega
        have hnext := ih _ hlt (Begins.snoc entries entry) behind rfl
        rw [List.length_append] at hnext
        rw [h.set]
        exact hnext

/-! ## What is filled in -/

/-- The name servers of a file. -/
def nameservers (values : List CStr) : List CStr := values.flatMap fun value => value.splitOn ','

/-- What a structure is after these values have been read for each key: the last one for a string or a
time, and all name servers with a `NULL` behind them. -/
structure Filled (dhcp : DhcpStruct) (values : Key → List CStr) (s : DhcpStruct × Nat) : Prop where
  str : ∀ m, s.1.str m = (values (.str m)).getLast?.or (dhcp.str m)
  time : ∀ m, s.1.time m = ((values (.time m)).getLast?.map (atol limit)).getD (dhcp.time m)
  dns : s.1.dns = if values .dns = [] then dhcp.dns
    else some ((nameservers (values .dns)).map .entry ++ [.null])
  counter : s.2 = (nameservers (values .dns)).length

variable {limit}

theorem filled_nil (dhcp : DhcpStruct) : Filled limit dhcp (fun _ => []) (dhcp, 0) :=
  ⟨fun _ => rfl, fun _ => rfl, rfl, rfl⟩

/-- The values for each key, and one more for one of them. -/
def addValue (values : Key → List CStr) (k : Key) (value : CStr) : Key → List CStr :=
  Function.update values k (values k ++ [value])

/-- The branch for name servers: those of the value come behind the others. -/
theorem Filled.fill_dns {dhcp : DhcpStruct} {values : Key → List CStr} {s : DhcpStruct × Nat}
    (h : Filled limit dhcp values s) (value : CStr) :
    (s.1.fill limit s.2 value .dns).1.dns =
        some ((nameservers (values .dns ++ [value])).map .entry ++ [.null]) ∧
      (s.1.fill limit s.2 value .dns).2 = (nameservers (values .dns ++ [value])).length := by
  have hbegins : Begins s.1.dns (nameservers (values .dns)) := by
    rw [h.dns]
    split
    · rename_i hnil
      rw [hnil]
      exact Begins.nil _
    · exact List.take_left' (List.length_map _)
  have hloop := dnsLoop_eq hbegins value
  have hservers : nameservers (values .dns ++ [value]) =
      nameservers (values .dns) ++ value.splitOn ',' := by
    rw [nameservers, List.flatMap_append, List.flatMap_singleton]
    rfl
  rw [← h.counter, ← hservers] at hloop
  have hwhole : Begins (some ((nameservers (values .dns ++ [value])).map .entry))
      (nameservers (values .dns ++ [value])) :=
    List.take_of_length_le (Nat.le_of_eq (List.length_map _))
  constructor
  · show some ((reallocCells (some (dnsLoop s.1.dns s.2 value).1) _).set _ _) = _
    rw [hloop]
    exact congrArg some (hwhole.set .null)
  · exact congrArg Prod.snd hloop

/-- **One branch**: its value is added. -/
theorem Filled.fill {dhcp : DhcpStruct} {values : Key → List CStr} {s : DhcpStruct × Nat}
    (h : Filled limit dhcp values s) (value : CStr) (k : Key) :
    Filled limit dhcp (addValue values k value) (s.1.fill limit s.2 value k) := by
  have hother : ∀ {k'}, k' ≠ k → addValue values k value k' = values k' := fun hne =>
    Function.update_of_ne hne _ _
  have hself : addValue values k value k = values k ++ [value] := Function.update_self _ _ _
  cases k with
  | str m =>
    refine ⟨fun m' => ?_, fun m' => ?_, ?_, ?_⟩
    · show Function.update s.1.str m (some value) m' = _
      by_cases hm : m' = m
      · subst hm
        rw [Function.update_self, hself, List.getLast?_concat]
        rfl
      · rw [Function.update_of_ne hm, hother (by simpa using hm)]
        exact h.str m'
    · rw [hother (by simp)]
      exact h.time m'
    · rw [hother (by simp)]
      exact h.dns
    · rw [hother (by simp)]
      exact h.counter
  | time m =>
    refine ⟨fun m' => ?_, fun m' => ?_, ?_, ?_⟩
    · rw [hother (by simp)]
      exact h.str m'
    · show Function.update s.1.time m (atol limit value) m' = _
      by_cases hm : m' = m
      · subst hm
        rw [Function.update_self, hself, List.getLast?_concat]
        rfl
      · rw [Function.update_of_ne hm, hother (by simpa using hm)]
        exact h.time m'
    · rw [hother (by simp)]
      exact h.dns
    · rw [hother (by simp)]
      exact h.counter
  | dns =>
    obtain ⟨hdns, hcounter⟩ := h.fill_dns value
    refine ⟨fun m => ?_, fun m => ?_, ?_, ?_⟩
    · rw [hother (by simp)]
      exact h.str m
    · rw [hother (by simp)]
      exact h.time m
    · rw [hself, if_neg (by simp)]
      exact hdns
    · rw [hself]
      exact hcounter

/-- **The loop over the lines.** -/
theorem fillInfo_cases {pieces : List CStr} {dhcp : DhcpStruct} {values : Key → List CStr}
    {s s' : DhcpStruct × Nat} (h : Filled limit dhcp values s)
    (hfill : fillInfo limit pieces s = some s') :
    Filled limit dhcp (fun k => values k ++ valuesFor pieces k) s' := by
  induction pieces generalizing values s with
  | nil =>
    obtain rfl := Option.some.inj hfill
    simpa only [valuesFor, List.filterMap_nil, List.append_nil] using h
  | cons piece pieces ih =>
    rw [fillInfo, List.foldlM_cons] at hfill
    obtain ⟨s₁, hpiece, hrest⟩ := Option.bind_eq_some_iff.mp hfill
    obtain ⟨⟨key, value⟩, hassignment, rfl⟩ := Option.map_eq_some_iff.mp hpiece
    have hassigned : ∀ k, assigned k piece = if keyOf key = some k then some value else none :=
      fun k => by rw [assigned, hassignment, Option.bind_some]
    have hvalues : ∀ k, valuesFor (piece :: pieces) k =
        (if keyOf key = some k then [value] else []) ++ valuesFor pieces k := by
      intro k
      rw [valuesFor, List.filterMap_cons, hassigned]
      by_cases hk : keyOf key = some k
      · rw [if_pos hk, if_pos hk]
        rfl
      · rw [if_neg hk, if_neg hk]
        rfl
    simp only [hvalues]
    cases hk : keyOf key with
    | none =>
      simp only [hk] at hrest
      simpa using ih h hrest
    | some k =>
      simp only [hk] at hrest
      have hfilled := ih (h.fill value k) hrest
      refine cast (congrArg (Filled limit dhcp · s') (funext fun k' => ?_)) hfilled
      by_cases hkk : k' = k
      · subst hkk
        rw [addValue, Function.update_self, if_pos rfl, List.append_assoc]
      · rw [addValue, Function.update_of_ne hkk, if_neg (by simpa using Ne.symm hkk)]
        rfl

/-- The file is read if every line has an equals sign. -/
theorem fillInfo_isSome {pieces : List CStr} {s : DhcpStruct × Nat}
    (h : ∀ piece ∈ pieces, (assignment piece).isSome) : ∃ s', fillInfo limit pieces s = some s' := by
  induction pieces generalizing s with
  | nil => exact ⟨s, rfl⟩
  | cons piece pieces ih =>
    obtain ⟨hpiece, hpieces⟩ := List.forall_mem_cons.mp h
    obtain ⟨kv, hkv⟩ := Option.isSome_iff_exists.mp hpiece
    have hline : ∃ s₁, fillLine limit s piece = some s₁ :=
      ⟨_, by rw [fillLine, hkv, Option.map_some]⟩
    obtain ⟨s₁, hs₁⟩ := hline
    obtain ⟨s', hs'⟩ := @ih s₁ hpieces
    exact ⟨s', by rw [fillInfo, List.foldlM_cons, hs₁]; exact hs'⟩

/-! ## Info files of known keys -/

/-- The values that a file has for a key. -/
def valuesOf (lines : List Line) (k : Key) : List CStr :=
  (lines.filter fun l => l.key = k.name).map Line.value

theorem valuesFor_infoText {lines : List Line} (fits : ∀ l ∈ lines, l.text.length < cfgStrMaxLen)
    (known : ∀ l ∈ lines, ∃ k : Key, l.key = k.name) (k : Key) :
    valuesFor (infoPieces (infoText lines)) k = valuesOf lines k := by
  rw [infoPieces_text fits, valuesFor, valuesOf, List.filterMap_map]
  clear fits
  induction lines with
  | nil => rfl
  | cons l lines ih =>
    obtain ⟨⟨k', hk'⟩, hknown⟩ := List.forall_mem_cons.mp known
    have hassigned : assigned k l.text = if k' = k then some l.value else none := by
      rw [assigned, assignment_text, Option.bind_some, hk']
      dsimp only
      rw [keyOf_name]
      exact if_congr Option.some_inj rfl rfl
    have hname : l.key = k.name ↔ k' = k := by
      rw [hk']
      constructor
      · intro h
        exact Option.some.inj ((keyOf_name k').symm.trans (h ▸ keyOf_name k))
      · rintro rfl
        rfl
    rw [List.filterMap_cons, Function.comp_apply, hassigned, ih hknown]
    by_cases heq : k' = k
    · rw [if_pos heq, List.filter_cons_of_pos (by simpa using hname.mpr heq)]
      rfl
    · rw [if_neg heq, List.filter_cons_of_neg (by simpa using mt hname.mp heq)]

/-- **An info file of lines that fit, with keys of `dhcpcd`**: each string is the value of its last
line, and each time that of the number in it; the name servers are those of all `DNS` lines in their
order, each line split at its commas, with one `NULL` behind them; and what the file has no line for
is as it was before. -/
theorem dhcpcdFill_info (limit : Nat) (dhcp : DhcpStruct) {lines : List Line}
    (fits : ∀ l ∈ lines, l.text.length < cfgStrMaxLen)
    (known : ∀ l ∈ lines, ∃ k : Key, l.key = k.name) :
    ∃ dhcp', dhcpcdFill limit ⟨0, some (infoText lines)⟩ dhcp = some (some dhcp') ∧
      (∀ m, dhcp'.str m = (valuesOf lines (.str m)).getLast?.or (dhcp.str m)) ∧
      (∀ m, dhcp'.time m =
        ((valuesOf lines (.time m)).getLast?.map (atol limit)).getD (dhcp.time m)) ∧
      (dhcp'.dns = if valuesOf lines .dns = [] then dhcp.dns else
        some (((valuesOf lines .dns).flatMap fun v => v.splitOn ',').map .entry ++ [.null])) ∧
      ∀ v ∈ valuesOf lines .dns, [','].intercalate (v.splitOn ',') = v := by
  have hsome : ∀ piece ∈ infoPieces (infoText lines), (assignment piece).isSome := by
    rw [infoPieces_text fits]
    intro piece hpiece
    obtain ⟨l, -, rfl⟩ := List.mem_map.mp hpiece
    rw [assignment_text]
    rfl
  obtain ⟨s', hs'⟩ : ∃ s', fillInfo limit (infoPieces (infoText lines)) (dhcp, 0) = some s' :=
    fillInfo_isSome hsome
  have hfilled := fillInfo_cases (filled_nil dhcp) hs'
  simp only [List.nil_append, valuesFor_infoText fits known] at hfilled
  refine ⟨s'.1, ?_, hfilled.str, hfilled.time, hfilled.dns, fun v _ => List.intercalate_splitOn ','⟩
  show (fillInfo limit (infoPieces (infoText lines)) (dhcp, 0)).map _ = _
  rw [hs']
  rfl

/-- A file with two lines for the address and two for the name servers. -/
def repeatedInfo : List Line :=
  [.of (.str .ipaddr) "10.0.0.7".toList (by decide) (by decide),
    .of .dns "10.0.0.8,10.0.0.9".toList (by decide) (by decide),
    .of (.str .ipaddr) "10.0.0.5".toList (by decide) (by decide),
    .of .dns "10.0.0.6".toList (by decide) (by decide)]

theorem dhcpcdFill_info_repeated :
    ∃ dhcp', dhcpcdFill longMax ⟨0, some (infoText repeatedInfo)⟩ ⟨fun _ => none, none, fun _ => 0⟩ =
        some (some dhcp') ∧ dhcp'.str .ipaddr = some "10.0.0.5".toList ∧
      dhcp'.dns = some [.entry "10.0.0.8".toList, .entry "10.0.0.9".toList, .entry "10.0.0.6".toList,
        .null] := by
  have fits : ∀ l ∈ repeatedInfo, l.text.length < cfgStrMaxLen := by decide
  have known : ∀ l ∈ repeatedInfo, ∃ k : Key, l.key = k.name := by
    simp only [repeatedInfo, List.forall_mem_cons, Line.exists_key_of, true_and]
    exact List.forall_mem_nil _
  obtain ⟨dhcp', hrun, hstr, -, hdns, -⟩ :=
    dhcpcdFill_info longMax ⟨fun _ => none, none, fun _ => 0⟩ fits known
  exact ⟨dhcp', hrun, hstr .ipaddr, hdns⟩

/-! ## The model of the network setup -/

/-- **The strings and the name servers** are those that `readInfo` reads. -/
theorem fillInfo_readInfo {pieces : List CStr} {dhcp : DhcpRequest}
    (h : readInfo pieces DhcpRequest.init = some dhcp) :
    ∃ s, fillInfo limit pieces (⟨fun _ => none, none, fun _ => 0⟩, 0) = some s ∧
      (∀ m, s.1.str m = dhcp.str m) ∧
      s.1.dns = if dhcp.dns = [] then none else some (dhcp.dns.map .entry ++ [.null]) := by
  have hsome := readInfo_isSome_iff.mp (Option.isSome_iff_exists.mpr ⟨dhcp, h⟩)
  obtain ⟨hstr, hdns⟩ := readInfo_eq_some h
  obtain ⟨s, hs⟩ :
      ∃ s, fillInfo limit pieces (⟨fun _ => none, none, fun _ => 0⟩, 0) = some s :=
    fillInfo_isSome hsome
  have hfilled := fillInfo_cases (filled_nil _) hs
  simp only [List.nil_append] at hfilled
  refine ⟨s, hs, fun m => (hfilled.str m).trans (hstr m).symm, ?_⟩
  have hnil : dhcp.dns = [] ↔ valuesFor pieces .dns = [] := by
    rw [hdns, DhcpRequest.init, List.nil_append]
    cases valuesFor pieces .dns with
    | nil => simp
    | cons v vs => simp
  rw [hfilled.dns, hdns]
  exact if_congr (hdns ▸ hnil.symm) rfl rfl

end Sysload.Netbase
