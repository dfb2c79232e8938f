import Sysload.Lib.Memory
import Sysload.Loader.Insfile
import Sysload.Parser.Entries

/-!
# The MAC test (`netbase.c`)

`nb_test_mac()` prints the hardware address of each network interface and compares the text with the
address of a `mac` condition. The list of the interfaces ends with an entry whose index is zero; the
loop looks at the first byte of the index only.

Source: `src/core/netbase.c`, `nb_test_mac`. Out of scope are interfaces that come and go while the
loop runs.

Results:
* `firstByte_little`, `firstByte_big`: for which indices this byte is zero.
* `macLoop_eq_ok_iff`: what the loop finds.
* `printMac_eq_iff`: which spelling of an address is found.
* `exists_denotes_iff`, `Denotes.macval`: the spellings are those that the scanner accepts, with two
  digits for an octet.
* **`nbTestMac_iff`**: when the test finds exactly the addresses of the machine.
-/

namespace Sysload.Netbase

open Memory

/-! ## Interfaces -/

/-- A hardware address: the octets of `sa_data` that are used. -/
structure HwAddr where
  octets : List UInt8
  length_eq : octets.length = 6
  deriving DecidableEq

/-- An entry of the list of `if_nameindex`, and what `SIOCGIFHWADDR` gets for it. -/
structure Interface where
  ifIndex : UInt32
  hwaddr : Option HwAddr
  index_ne : ifIndex ≠ 0

/-- What `nb_test_mac` finds: whether there is a socket, and the list of `if_nameindex`. -/
structure Net where
  socket : Bool
  nameindex : Option (List Interface)

/-- `CFG_RETURN_OK` and `CFG_RETURN_ERROR`. -/
inductive CfgReturn where
  | ok
  | error
  deriving DecidableEq, Repr

/-! ## The test -/

/-- `%02x` for an unsigned character. -/
def printOctet (b : UInt8) : CStr := [Nat.digitChar (b.toNat / 16), Nat.digitChar (b.toNat % 16)]

/-- Texts with colons between them. -/
def colons : List CStr → CStr
  | [] => []
  | [w] => w
  | w :: v :: ws => w ++ ':' :: colons (v :: ws)

/-- `localmac`: `%02x:%02x:%02x:%02x:%02x:%02x`. -/
def printMac (addr : HwAddr) : CStr := colons (addr.octets.map printOctet)

variable (order : ByteOrder)

/-- `*(char*)ifTmp`. -/
def firstByte (ifIndex : UInt32) : UInt8 := (order.encode 4 ifIndex.toNat).headD 0

/-- The loop of `nb_test_mac`. Behind the last interface stands an entry of zeros. -/
def macLoop (macaddr : CStr) : List Interface → CfgReturn
  | [] => .error
  | ifTmp :: rest =>
    if firstByte order ifTmp.ifIndex = 0 then .error
    else
      match ifTmp.hwaddr with
      | none => macLoop macaddr rest
      | some localmac => if printMac localmac = macaddr then .ok else macLoop macaddr rest

/-- `nb_test_mac`. -/
def nbTestMac (net : Net) (macaddr : CStr) : CfgReturn :=
  if net.socket = false then .error
  else
    match net.nameindex with
    | none => .error
    | some ifList => macLoop order macaddr ifList

/-! ## The end of the list -/

/-- The entry behind the last interface ends the loop. -/
theorem firstByte_zero : firstByte order 0 = 0 := by
  cases order with
  | little => rfl
  | big => rfl

theorem ofNat_eq_zero_iff {n : Nat} : UInt8.ofNat n = 0 ↔ n % 256 = 0 := by
  rw [← UInt8.toNat_inj]
  simp

/-- On a little-endian machine a multiple of 256 ends the loop. -/
theorem firstByte_little {i : UInt32} : firstByte .little i = 0 ↔ i.toNat % 256 = 0 :=
  ofNat_eq_zero_iff

/-- On a big-endian machine every index below 2²⁴ ends the loop. -/
theorem firstByte_big {i : UInt32} : firstByte .big i = 0 ↔ i.toNat < 2 ^ 24 := by
  have hlt := i.toNat_lt
  have hhead : firstByte .big i = UInt8.ofNat (i.toNat / 256 / 256 / 256) := rfl
  rw [hhead, ofNat_eq_zero_iff]
  omega

/-- **The loop finds an interface in front of the first one that ends it.** -/
theorem macLoop_eq_ok_iff {macaddr : CStr} {ifList : List Interface} :
    macLoop order macaddr ifList = .ok ↔
      ∃ i ∈ ifList.takeWhile fun i => firstByte order i.ifIndex ≠ 0,
        ∃ addr, i.hwaddr = some addr ∧ printMac addr = macaddr := by
  induction ifList with
  | nil => simp [macLoop]
  | cons ifTmp rest ih =>
    rw [macLoop]
    by_cases hzero : firstByte order ifTmp.ifIndex = 0
    · rw [if_pos hzero, List.takeWhile_cons_of_neg (by simpa using hzero)]
      simp
    · rw [if_neg hzero, List.takeWhile_cons_of_pos (by simpa using hzero)]
      simp only [List.mem_cons, exists_eq_or_imp]
      cases hhw : ifTmp.hwaddr with
      | none => simpa using ih
      | some localmac =>
        by_cases hmac : printMac localmac = macaddr
        · simp [hmac]
        · simpa [hmac] using ih

/-! ## The text of an address -/

/-- A spelling of an octet with two hexadecimal digits, which may be upper-case or lower-case. -/
def Spells (w : CStr) (b : UInt8) : Prop :=
  ∃ c d, isHexDigit c = true ∧ isHexDigit d = true ∧ w = [c, d] ∧
    b.toNat = 16 * hexValue c + hexValue d

instance (w : CStr) (b : UInt8) : Decidable (Spells w b) :=
  match w with
  | [] => isFalse (by rintro ⟨_, _, _, _, h, _⟩; cases h)
  | [_] => isFalse (by rintro ⟨_, _, _, _, h, _⟩; cases h)
  | [c, d] =>
    decidable_of_iff (isHexDigit c = true ∧ isHexDigit d = true ∧
        b.toNat = 16 * hexValue c + hexValue d) <| by
      constructor
      · rintro ⟨hc, hd, hb⟩
        exact ⟨c, d, hc, hd, rfl, hb⟩
      · rintro ⟨_, _, hc, hd, ⟨⟩, hb⟩
        exact ⟨hc, hd, hb⟩
  | _ :: _ :: _ :: _ => isFalse (by rintro ⟨_, _, _, _, h, _⟩; cases h)

/-- `mac` denotes the address: six octets of two digits each, with colons between them. -/
def Denotes (mac : CStr) (addr : HwAddr) : Prop :=
  ∃ ws, List.Forall₂ Spells ws addr.octets ∧ mac = colons ws

/-- There are no upper-case digits. -/
def NoUpper (mac : CStr) : Prop := ∀ c ∈ mac, c.isUpper = false

/-- What holds of the hexadecimal digits among the first characters holds of all. -/
theorem hexDigit_forall {p : Char → Prop}
    (h : ∀ n < 103, isHexDigit (Char.ofNat n) = true → p (Char.ofNat n)) {c : Char}
    (hc : isHexDigit c = true) : p c := by
  have hlt : c.toNat < 103 := by
    simp only [isHexDigit, Bool.or_eq_true, Bool.and_eq_true, decide_eq_true_eq,
      Char.isDigit_iff_toNat, Char.le_def, UInt32.le_iff_toNat_le] at hc
    rcases hc with (⟨-, hc⟩ | ⟨-, hc⟩) | ⟨-, hc⟩
    · exact Nat.lt_of_le_of_lt hc (by decide)
    · exact Nat.lt_of_le_of_lt hc (by decide)
    · exact Nat.lt_of_le_of_lt hc (by decide)
  have hofNat := h c.toNat hlt
  rw [Char.ofNat_toNat] at hofNat
  exact hofNat hc

theorem hexValue_lt {c : Char} (hc : isHexDigit c = true) : hexValue c < 16 :=
  hexDigit_forall (p := fun c => hexValue c < 16) (by decide) hc

/-- `%x` prints a digit that is not upper-case as it is spelled. -/
theorem digitChar_hexValue {c : Char} (hc : isHexDigit c = true) :
    c.isUpper = false → Nat.digitChar (hexValue c) = c :=
  hexDigit_forall (p := fun c => c.isUpper = false → Nat.digitChar (hexValue c) = c) (by decide) hc

theorem hexValue_digitChar : ∀ n < 16, hexValue (Nat.digitChar n) = n := by
  decide

theorem isUpper_digitChar : ∀ n < 16, (Nat.digitChar n).isUpper = false := by
  decide

/-- An octet is printed as it is spelled if and only if it is that one, and the digits are not
upper-case. -/
theorem printOctet_eq_iff {w : CStr} {b b' : UInt8} (h : Spells w b) :
    printOctet b' = w ↔ b' = b ∧ NoUpper w := by
  obtain ⟨c, d, hc, hd, rfl, hb⟩ := h
  have hhigh : b'.toNat / 16 < 16 := Nat.div_lt_of_lt_mul b'.toNat_lt
  have hlow : b'.toNat % 16 < 16 := Nat.mod_lt _ (by decide)
  have hclt := hexValue_lt hc
  have hdlt := hexValue_lt hd
  constructor
  · intro hprint
    obtain ⟨rfl, hrest⟩ := List.cons_eq_cons.mp hprint
    obtain ⟨rfl, -⟩ := List.cons_eq_cons.mp hrest
    rw [hexValue_digitChar _ hhigh, hexValue_digitChar _ hlow, Nat.div_add_mod] at hb
    refine ⟨UInt8.toNat_inj.mp hb.symm, ?_⟩
    rintro e he
    rcases List.mem_pair.mp he with rfl | rfl
    · exact isUpper_digitChar _ hhigh
    · exact isUpper_digitChar _ hlow
  · rintro ⟨rfl, hupper⟩
    have hdiv : b'.toNat / 16 = hexValue c := by omega
    have hmod : b'.toNat % 16 = hexValue d := by omega
    rw [printOctet, hdiv, hmod, digitChar_hexValue hc (hupper c (by simp)),
      digitChar_hexValue hd (hupper d (by simp))]

/-- The octets of an address. -/
theorem map_printOctet_eq_iff {ws : List CStr} {bs bs' : List UInt8}
    (h : List.Forall₂ Spells ws bs) :
    bs'.map printOctet = ws ↔ bs' = bs ∧ ∀ w ∈ ws, NoUpper w := by
  induction h generalizing bs' with
  | nil => simp
  | cons hw _ ih =>
    cases bs' with
    | nil => simp
    | cons b' bs' =>
      rw [List.map_cons, List.cons_eq_cons, List.cons_eq_cons, printOctet_eq_iff hw, ih,
        List.forall_mem_cons]
      exact and_and_and_comm

/-- Texts of one length can be told apart between their colons. -/
theorem colons_inj {ws vs : List CStr} (hws : ∀ w ∈ ws, w.length = 2) (hvs : ∀ v ∈ vs, v.length = 2)
    (hlength : ws.length = vs.length) (h : colons ws = colons vs) : ws = vs := by
  induction ws generalizing vs with
  | nil => rw [List.length_eq_zero_iff.mp hlength.symm]
  | cons w ws ih =>
    obtain ⟨v, vs, rfl⟩ := List.exists_cons_of_length_eq_add_one hlength.symm
    obtain ⟨hw, hws⟩ := List.forall_mem_cons.mp hws
    obtain ⟨hv, hvs⟩ := List.forall_mem_cons.mp hvs
    have hrest : ws.length = vs.length := Nat.succ.inj hlength
    match ws, vs, hrest with
    | [], [], _ =>
      obtain rfl : w = v := h
      rfl
    | w' :: ws, v' :: vs, hrest =>
      obtain ⟨rfl, hcolon⟩ := List.append_inj h (hw.trans hv.symm)
      rw [ih hws hvs hrest (List.cons_eq_cons.mp hcolon).2]

theorem noUpper_append {v w : CStr} : NoUpper (v ++ w) ↔ NoUpper v ∧ NoUpper w :=
  List.forall_mem_append

theorem noUpper_colons {ws : List CStr} : NoUpper (colons ws) ↔ ∀ w ∈ ws, NoUpper w := by
  induction ws with
  | nil => simp [colons, NoUpper]
  | cons w ws ih =>
    cases ws with
    | nil => simp [colons]
    | cons v ws =>
      have hcolon : NoUpper (':' :: colons (v :: ws)) ↔ NoUpper (colons (v :: ws)) := by
        rw [NoUpper, List.forall_mem_cons]
        exact and_iff_right rfl
      rw [colons, noUpper_append, hcolon, ih, ← List.forall_mem_cons (p := NoUpper)]

theorem length_of_spells {ws : List CStr} {bs : List UInt8} (h : List.Forall₂ Spells ws bs) :
    ∀ w ∈ ws, w.length = 2 := by
  induction h with
  | nil => simp
  | cons hw _ ih =>
    obtain ⟨c, d, -, -, rfl, -⟩ := hw
    exact List.forall_mem_cons.mpr ⟨rfl, ih⟩

/-- **Which spelling of an address is found**: the one without upper-case digits. -/
theorem printMac_eq_iff {mac : CStr} {addr localmac : HwAddr} (h : Denotes mac addr) :
    printMac localmac = mac ↔ localmac = addr ∧ NoUpper mac := by
  obtain ⟨ws, hws, rfl⟩ := h
  have hlength : ws.length = 6 := hws.length_eq.trans addr.length_eq
  rw [noUpper_colons]
  constructor
  · intro hprint
    have hlist : localmac.octets.map printOctet = ws := by
      refine colons_inj ?_ (length_of_spells hws) ?_ hprint
      · intro w hw
        obtain ⟨b, -, rfl⟩ := List.mem_map.mp hw
        rfl
      · rw [List.length_map, localmac.length_eq, hlength]
    obtain ⟨hoctets, hupper⟩ := (map_printOctet_eq_iff hws).mp hlist
    refine ⟨?_, hupper⟩
    cases localmac
    cases addr
    cases hoctets
    rfl
  · rintro ⟨rfl, hupper⟩
    rw [printMac, (map_printOctet_eq_iff hws).mpr ⟨rfl, hupper⟩]

/-! ## The addresses that the scanner accepts -/

section Scanner

open Lexer Sysload.Parser

/-- `n + 1` hexadecimal numbers with colons between them. -/
def hexNumbers : Nat → Pattern
  | 0 => plus hexch
  | n + 1 => .seq (plus hexch) (.seq (chr ':') (hexNumbers n))

/-- A `T_MACVAL` has six of them. -/
theorem rule_macval : rule [.initial] (hexNumbers 5) (.token .tMacval true none) ∈ rules :=
  List.mem_of_getElem? (i := 8) rfl

theorem mem_plus_hexch {w : CStr} :
    w ∈ (plus hexch).lang ↔ w ≠ [] ∧ ∀ c ∈ w, isHexDigit c = true := by
  rw [hexch, oneOf, mem_plus_cls]
  refine and_congr_right fun _ => forall₂_congr fun c _ => ?_
  have hdigit : (decide ('0' ≤ c) && decide (c ≤ '9')) = c.isDigit := rfl
  have hmem : (⟨false, [('0', '9'), ('A', 'F'), ('a', 'f')]⟩ : CharClass).mem c = isHexDigit c := by
    simp only [CharClass.mem, List.any_cons, List.any_nil, Bool.or_false, isHexDigit, hdigit]
    rw [Bool.or_assoc, Bool.or_comm (decide ('a' ≤ c) && decide (c ≤ 'f')), bne]
    cases (c.isDigit || (decide ('A' ≤ c) && decide (c ≤ 'F') ||
      decide ('a' ≤ c) && decide (c ≤ 'f'))) <;> rfl
  rw [hmem]

theorem mem_hexNumbers {n : Nat} {mac : CStr} : mac ∈ (hexNumbers n).lang ↔
    ∃ ws, ws.length = n + 1 ∧ (∀ w ∈ ws, w ≠ [] ∧ ∀ c ∈ w, isHexDigit c = true) ∧
      mac = colons ws := by
  induction n generalizing mac with
  | zero =>
    rw [hexNumbers, mem_plus_hexch]
    constructor
    · exact fun h => ⟨[mac], rfl, List.forall_mem_singleton.mpr h, rfl⟩
    · rintro ⟨ws, hlength, hall, rfl⟩
      obtain ⟨w, rfl⟩ := List.length_eq_one_iff.mp hlength
      exact hall w (List.mem_singleton_self w)
  | succ n ih =>
    show mac ∈ (plus hexch).lang * ((chr ':').lang * (hexNumbers n).lang) ↔ _
    rw [Language.mem_mul]
    constructor
    · rintro ⟨w, hw, v, hv, rfl⟩
      obtain ⟨c, hc, u, hu, rfl⟩ := Language.mem_mul.mp hv
      obtain ⟨ws, hlength, hall, rfl⟩ := ih.mp hu
      obtain ⟨u, us, rfl⟩ := List.exists_cons_of_length_eq_add_one hlength
      rw [mem_lang_chr.mp hc]
      exact ⟨w :: u :: us, congrArg (· + 1) hlength,
        List.forall_mem_cons.mpr ⟨mem_plus_hexch.mp hw, hall⟩, rfl⟩
    · rintro ⟨ws, hlength, hall, rfl⟩
      obtain ⟨w, ws, rfl⟩ := List.exists_cons_of_length_eq_add_one hlength
      obtain ⟨u, us, rfl⟩ := List.exists_cons_of_length_eq_add_one (Nat.succ.inj hlength)
      obtain ⟨hw, hall⟩ := List.forall_mem_cons.mp hall
      refine ⟨w, mem_plus_hexch.mpr hw, ':' :: colons (u :: us), ?_, rfl⟩
      exact Language.mem_mul.mpr ⟨[':'], mem_lang_chr.mpr rfl, _,
        ih.mpr ⟨u :: us, Nat.succ.inj hlength, hall, rfl⟩, rfl⟩

theorem exists_spells_iff {w : CStr} :
    (∃ b, Spells w b) ↔ w.length = 2 ∧ ∀ c ∈ w, isHexDigit c = true := by
  constructor
  · rintro ⟨b, c, d, hc, hd, rfl, -⟩
    exact ⟨rfl, by simp [hc, hd]⟩
  · rintro ⟨hlength, hall⟩
    obtain ⟨c, d, rfl⟩ := List.length_eq_two.mp hlength
    have hc := hall c (by simp)
    have hd := hall d (by simp)
    have hclt := hexValue_lt hc
    have hdlt := hexValue_lt hd
    have hlt : 16 * hexValue c + hexValue d < 256 := by omega
    exact ⟨UInt8.ofNat (16 * hexValue c + hexValue d), c, d, hc, hd, rfl,
      UInt8.toNat_ofNat_of_lt' hlt⟩

theorem exists_forall₂_spells_iff {ws : List CStr} : (∃ bs, List.Forall₂ Spells ws bs) ↔
    ∀ w ∈ ws, w.length = 2 ∧ ∀ c ∈ w, isHexDigit c = true := by
  induction ws with
  | nil => simp
  | cons w ws ih =>
    rw [List.forall_mem_cons, ← exists_spells_iff, ← ih]
    constructor
    · rintro ⟨_, hall⟩
      obtain ⟨b, bs, hb, hbs, rfl⟩ := List.forall₂_cons_left_iff.mp hall
      exact ⟨⟨b, hb⟩, bs, hbs⟩
    · rintro ⟨⟨b, hb⟩, bs, hbs⟩
      exact ⟨b :: bs, .cons hb hbs⟩

/-- The addresses that are denoted have two digits for each octet. -/
theorem exists_denotes_iff {mac : CStr} : (∃ addr, Denotes mac addr) ↔
    ∃ ws, ws.length = 6 ∧ (∀ w ∈ ws, w.length = 2 ∧ ∀ c ∈ w, isHexDigit c = true) ∧
      mac = colons ws := by
  constructor
  · rintro ⟨addr, ws, hws, rfl⟩
    exact ⟨ws, hws.length_eq.trans addr.length_eq,
      exists_forall₂_spells_iff.mp ⟨addr.octets, hws⟩, rfl⟩
  · rintro ⟨ws, hlength, hall, rfl⟩
    obtain ⟨bs, hbs⟩ := exists_forall₂_spells_iff.mpr hall
    exact ⟨⟨bs, hbs.length_eq.symm.trans hlength⟩, ws, hbs, rfl⟩

/-- An address that is denoted is a `T_MACVAL`. -/
theorem Denotes.macval {mac : CStr} {addr : HwAddr} (h : Denotes mac addr) :
    mac ∈ (hexNumbers 5).lang := by
  obtain ⟨ws, hlength, hall, rfl⟩ := exists_denotes_iff.mp ⟨addr, h⟩
  refine mem_hexNumbers.mpr ⟨ws, hlength, fun w hw => ⟨?_, (hall w hw).2⟩, rfl⟩
  exact List.ne_nil_of_length_eq_add_one (hall w hw).1

end Scanner

/-! ## The addresses of the machine -/

/-- The interfaces in front of the first one whose index begins with a zero byte. -/
def seen (ifList : List Interface) : List Interface :=
  ifList.takeWhile fun i => firstByte order i.ifIndex ≠ 0

theorem nbTestMac_eq_ok_iff {mac : CStr} {addr : HwAddr} (h : Denotes mac addr)
    {ifList : List Interface} : nbTestMac order ⟨true, some ifList⟩ mac = .ok ↔
      NoUpper mac ∧ ∃ i ∈ seen order ifList, i.hwaddr = some addr := by
  show macLoop order mac ifList = .ok ↔ _
  rw [macLoop_eq_ok_iff]
  constructor
  · rintro ⟨i, hi, localmac, hhw, hprint⟩
    obtain ⟨rfl, hupper⟩ := (printMac_eq_iff h).mp hprint
    exact ⟨hupper, i, hi, hhw⟩
  · rintro ⟨hupper, i, hi, hhw⟩
    exact ⟨i, hi, addr, hhw, (printMac_eq_iff h).mpr ⟨rfl, hupper⟩⟩

/-- **The test finds exactly the addresses of the machine**, unless the address that is looked for
is spelled with an upper-case digit, or the loop ends in front of the interfaces that have it. -/
theorem nbTestMac_iff (ifList : List Interface) {mac : CStr} {addr : HwAddr}
    (h : Denotes mac addr) :
    (nbTestMac order ⟨true, some ifList⟩ mac = .ok ↔ ∃ i ∈ ifList, i.hwaddr = some addr) ↔
      ((∃ i ∈ ifList, i.hwaddr = some addr) →
        NoUpper mac ∧ ∃ i ∈ seen order ifList, i.hwaddr = some addr) := by
  rw [nbTestMac_eq_ok_iff order h]
  constructor
  · exact fun hiff => hiff.mpr
  · refine fun hcond => ⟨?_, hcond⟩
    rintro ⟨-, i, hi, hhw⟩
    exact ⟨i, (List.takeWhile_sublist _).mem hi, hhw⟩

/-- The address 00:10:c6:de:12:6c. -/
def someAddr : HwAddr := ⟨[0x00, 0x10, 0xc6, 0xde, 0x12, 0x6c], rfl⟩

/-- The interface with the index `i` that has it. -/
def someInterface (i : UInt32) (h : i ≠ 0) : Interface := ⟨i, some someAddr, h⟩

theorem denotes_lower : Denotes "00:10:c6:de:12:6c".toList someAddr :=
  ⟨[['0', '0'], ['1', '0'], ['c', '6'], ['d', 'e'], ['1', '2'], ['6', 'c']], by decide, rfl⟩

theorem nbTestMac_iff_lower :
    (nbTestMac .little ⟨true, some [someInterface 1 (by decide)]⟩ "00:10:c6:de:12:6c".toList = .ok ↔
      ∃ i ∈ [someInterface 1 (by decide)], i.hwaddr = some someAddr) ↔
    ((∃ i ∈ [someInterface 1 (by decide)], i.hwaddr = some someAddr) →
      NoUpper "00:10:c6:de:12:6c".toList ∧
        ∃ i ∈ seen .little [someInterface 1 (by decide)], i.hwaddr = some someAddr) :=
  nbTestMac_iff .little _ denotes_lower

/-- The address in upper-case digits, and an interface with the index 256. -/
theorem nbTestMac_overlooks :
    (Denotes "00:10:C6:DE:12:6C".toList someAddr ∧
      ¬ (nbTestMac .little ⟨true, some [someInterface 1 (by decide)]⟩
          "00:10:C6:DE:12:6C".toList = .ok ↔
        ∃ i ∈ [someInterface 1 (by decide)], i.hwaddr = some someAddr)) ∧
    ¬ (nbTestMac .little ⟨true, some [someInterface 256 (by decide)]⟩
        "00:10:c6:de:12:6c".toList = .ok ↔
      ∃ i ∈ [someInterface 256 (by decide)], i.hwaddr = some someAddr) := by
  refine ⟨⟨?_, by decide⟩, by decide⟩
  exact ⟨[['0', '0'], ['1', '0'], ['C', '6'], ['D', 'E'], ['1', '2'], ['6', 'C']], by decide, rfl⟩

end Sysload.Netbase
