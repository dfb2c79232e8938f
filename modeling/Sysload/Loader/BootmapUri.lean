import Sysload.Lib.Ere
import Sysload.Loader.Loader

/-!
# Boot map URIs (`bootmap_dasd.c`, `bootmap_fcp.c`)

A boot map URI is accepted by a regular expression. The bus id, the WWPN and the LUN are then copied
from the offsets of its groups, with fixed lengths, and the program number is scanned with `%i`.

Source: `src/core/bootmap_dasd.c`, `action_bootmap_boot_dasd`, and `src/core/bootmap_fcp.c`,
`action_bootmap_boot_zfcp`, up to where the device is set online. Out of scope is a `regcomp` that
fails.

Results:
* `matches_uriDasdBootmapRe`, `matches_uriZfcpBootmapRe`: what the expressions match, with the spans
  of their groups.
* `dasdFields_eq_some_iff`, `zfcpFields_eq_some_iff`: what the two functions read.
* `actionBootmapBoot_eq`: the loader's model of the boot action calls these two.
* **`bootmapUri_iff`**: they read what the URI says, except for the program numbers 08 and 09.
-/

namespace Sysload

open Bootmap

/-! ## The regular expressions -/

/-- A character, or one of the classes of a bracket expression. -/
inductive UriAtom where
  | char (c : Char)
  | xdigit
  | digit

/-- The characters of an atom. -/
def UriAtom.mem : UriAtom → Char → Bool
  | .char c, d => c == d
  | .xdigit, d => isHexDigit d
  | .digit, d => d.isDigit

/-- The text of an atom: a backslash stands in front of a parenthesis or a dot. -/
def UriAtom.source : UriAtom → List Char
  | .char c => if c ∈ ['(', ')', '.'] then ['\\', c] else [c]
  | .xdigit => "[[:xdigit:]]".toList
  | .digit => "[[:digit:]]".toList

namespace BootmapUri

/-- A text that stands for itself. -/
def literal (text : String) : Ere UriAtom := Ere.atoms (text.toList.map .char)

/-- A bus id, whose parts are the groups 1, 2 and 3. -/
def busidRe : Ere UriAtom :=
  Ere.seqs [.group 1 (.one .xdigit), literal ".", .group 2 (.one .xdigit), literal ".",
    .group 3 (.rep (.one .xdigit) 4 4)]

/-- A WWPN or a LUN. -/
def numberRe (i : Nat) : Ere UriAtom :=
  .group i (.seq (literal "0x") (.rep (.one .xdigit) 16 16))

/-- A program number, which may be left out. -/
def programRe (i : Nat) : Ere UriAtom :=
  .rep (.group i (.seq (literal ",") (.group (i + 1) (.rep (.one .digit) 1 2)))) 0 1

/-- `URI_DASD_BOOTMAP_RE`, between `^` and `$`. -/
def uriDasdBootmapRe : Ere UriAtom :=
  Ere.seqs [literal "dasd://(", busidRe, programRe 4, literal ")"]

example : String.ofList (uriDasdBootmapRe.source UriAtom.source) =
    "dasd://\\(([[:xdigit:]])\\.([[:xdigit:]])" ++
      "\\.([[:xdigit:]]\x7b4\x7d)(,([[:digit:]]\x7b1,2\x7d))?\\)" := rfl

/-- `URI_ZFCP_BOOTMAP_RE`, between `^` and `$`. -/
def uriZfcpBootmapRe : Ere UriAtom :=
  Ere.seqs [literal "zfcp://(", busidRe, literal ",", numberRe 4, literal ",", numberRe 5,
    programRe 6, literal ")"]

set_option maxRecDepth 2000 in
example : String.ofList (uriZfcpBootmapRe.source UriAtom.source) =
    "zfcp://\\(([[:xdigit:]])\\.([[:xdigit:]])" ++
      "\\.([[:xdigit:]]\x7b4\x7d),(0x[[:xdigit:]]\x7b16\x7d),(0x[[:xdigit:]]\x7b16\x7d)" ++
      "(,([[:digit:]]\x7b1,2\x7d))?\\)" := rfl

end BootmapUri

open BootmapUri

/-! ## The fields -/

/-- The digits of a base of `scanf`. -/
def isDigitOf (base : Nat) (c : Char) : Bool := isHexDigit c && decide (hexValue c < base)

/-- The sign in front of a number, `true` for a minus, and what follows it. -/
def scanSign : CStr → Bool × CStr
  | '-' :: text => (true, text)
  | '+' :: text => (false, text)
  | text => (false, text)

/-- The base that `%i` finds in front of a number, and the digits. -/
def scanBase : CStr → Nat × CStr
  | '0' :: 'x' :: text | '0' :: 'X' :: text => (16, '0' :: text)
  | '0' :: text => (8, '0' :: text)
  | text => (10, text)

/-- `sscanf(text, "%i", &n)`. -/
def scanAnyBase (text : CStr) : Option Int :=
  let (negative, text) := scanSign (text.dropWhile isSpaceChar)
  let (base, text) := scanBase text
  let digits := text.takeWhile (isDigitOf base)
  let value := digits.foldl (fun n c => base * n + hexValue c) 0
  if digits = [] then none else some (toInt (if negative then -(value : Int) else value))

/-- `strncpy` of `n` characters from the offset of a group, and `tolower`. -/
def copyLower (uri : CStr) (pmatch : List (Nat × Ere.Span)) (i n : Nat) : CStr :=
  ((uri.drop (Ere.rmSo pmatch i).toNat).take n).map Char.toLower

/-- The program number from the offset of a group, `0` unless the group is there and a number is
scanned. -/
def scanProgram (uri : CStr) (pmatch : List (Nat × Ere.Span)) (i : Nat) : Int :=
  if Ere.rmSo pmatch i ≠ -1 then (scanAnyBase (uri.drop (Ere.rmSo pmatch i).toNat)).getD 0 else 0

/-- `action_bootmap_boot_dasd` up to `set_dasd_online`: the device with its bus id, and the program
number. -/
def dasdFields (uri : CStr) : Option (BootDevice × Int) :=
  (Ere.regexec UriAtom.mem uriDasdBootmapRe uri).map fun pmatch =>
    (.dasd (copyLower uri pmatch 1 8), scanProgram uri pmatch 5)

/-- `action_bootmap_boot_zfcp` up to `set_fcp_disk_online`: the device with its bus id, WWPN and
LUN, and the program number. -/
def zfcpFields (uri : CStr) : Option (BootDevice × Int) :=
  (Ere.regexec UriAtom.mem uriZfcpBootmapRe uri).map fun pmatch =>
    (.fcp (copyLower uri pmatch 1 8) (copyLower uri pmatch 4 18) (copyLower uri pmatch 5 18),
      scanProgram uri pmatch 7)

/-! ## The forms of a URI -/

/-- `n` hexadecimal digits. -/
def IsHex (n : Nat) (w : CStr) : Prop := w.length = n ∧ ∀ c ∈ w, isHexDigit c = true

/-- A bus id `h.h.hhhh`. -/
def IsBusid (w : CStr) : Prop :=
  ∃ x y z, IsHex 1 x ∧ IsHex 1 y ∧ IsHex 4 z ∧ w = x ++ '.' :: (y ++ '.' :: z)

/-- A WWPN or a LUN: `0x` and 16 hexadecimal digits. -/
def IsNumber (w : CStr) : Prop := ∃ x, IsHex 16 x ∧ w = '0' :: 'x' :: x

/-- A program number, of one or two decimal digits. -/
def IsProgram (p : CStr) : Prop := (1 ≤ p.length ∧ p.length ≤ 2) ∧ ∀ c ∈ p, c.isDigit = true

/-- The program number with the comma in front of it, if there is one. -/
def programPart : Option CStr → CStr
  | none => []
  | some p => ',' :: p

/-- `dasd://(<bus id>[,<program number>])`. -/
def dasdUri (busid : CStr) (p : Option CStr) : CStr :=
  "dasd://(".toList ++ (busid ++ (programPart p ++ ")".toList))

/-- `zfcp://(<bus id>,<WWPN>,<LUN>[,<program number>])`. -/
def zfcpUri (busid wwpn lun : CStr) (p : Option CStr) : CStr :=
  "zfcp://(".toList ++ (busid ++ (",".toList ++ (wwpn ++ (",".toList ++ (lun ++ (programPart p ++
    ")".toList))))))

/-- `uri` has the form of a DASD boot map URI. Its bus id in lower case is that of `device`, and `p`
is its program number. -/
def DasdForm (uri : CStr) (device : BootDevice) (p : Option CStr) : Prop :=
  ∃ busid, IsBusid busid ∧ (∀ q ∈ p, IsProgram q) ∧ uri = dasdUri busid p ∧
    device = .dasd (busid.map Char.toLower)

/-- `uri` has the form of a ZFCP boot map URI. -/
def ZfcpForm (uri : CStr) (device : BootDevice) (p : Option CStr) : Prop :=
  ∃ busid wwpn lun, IsBusid busid ∧ IsNumber wwpn ∧ IsNumber lun ∧ (∀ q ∈ p, IsProgram q) ∧
    uri = zfcpUri busid wwpn lun p ∧
    device = .fcp (busid.map Char.toLower) (wwpn.map Char.toLower) (lun.map Char.toLower)

/-- The decimal value of a program number, or `0` if it is left out. -/
def programValue : Option CStr → Nat
  | none => 0
  | some p => Nat.ofDigitChars 10 p 0

theorem IsBusid.length {w : CStr} (h : IsBusid w) : w.length = 8 := by
  obtain ⟨x, y, z, hx, hy, hz, rfl⟩ := h
  simp only [List.length_append, List.length_cons, hx.1, hy.1, hz.1]

theorem IsNumber.length {w : CStr} (h : IsNumber w) : w.length = 18 := by
  obtain ⟨x, hx, rfl⟩ := h
  simp only [List.length_cons, hx.1]

/-! ## What the expressions match -/

section Matches

variable {n i : Nat} {w : CStr} {s : List (Nat × Ere.Span)}

/-- A part of a sequence whose matches have a fixed length and fixed spans. -/
theorem matches_seqs_part {a : Ere UriAtom} {es : List (Ere UriAtom)} {P : CStr → Prop} {k : Nat}
    {spans : Nat → List (Nat × Ere.Span)}
    (ha : ∀ n w s, Ere.Matches UriAtom.mem a n w s ↔ P w ∧ s = spans n)
    (hlength : ∀ w, P w → w.length = k) :
    Ere.Matches UriAtom.mem (Ere.seqs (a :: es)) n w s ↔
      ∃ v v' t, P v ∧ Ere.Matches UriAtom.mem (Ere.seqs es) (n + k) v' t ∧ w = v ++ v' ∧
        s = spans n ++ t := by
  rw [Ere.matches_seqs_cons_iff]
  constructor
  · rintro ⟨v, v', t, t', hv, hv', rfl, rfl⟩
    obtain ⟨hP, rfl⟩ := (ha _ _ _).mp hv
    rw [hlength v hP] at hv'
    exact ⟨v, v', t', hP, hv', rfl, rfl⟩
  · rintro ⟨v, v', t, hP, hv', rfl, rfl⟩
    refine ⟨v, v', spans n, t, (ha _ _ _).mpr ⟨hP, rfl⟩, ?_, rfl, rfl⟩
    rw [hlength v hP]
    exact hv'

theorem matches_literal {text : String} :
    Ere.Matches UriAtom.mem (literal text) n w s ↔ w = text.toList ∧ s = [] := by
  rw [literal, Ere.matches_atoms_iff, List.forall₂_map_left_iff]
  have heq : (fun c d : Char => UriAtom.mem (.char c) d = true) = Eq := by
    ext c d
    exact beq_iff_eq
  rw [heq, List.forall₂_eq_eq_eq]
  exact and_congr_left fun _ => eq_comm

theorem matches_seqs_literal {text : String} {k : Nat} (hk : text.toList.length = k)
    {es : List (Ere UriAtom)} : Ere.Matches UriAtom.mem (Ere.seqs (literal text :: es)) n w s ↔
      ∃ v, Ere.Matches UriAtom.mem (Ere.seqs es) (n + k) v s ∧ w = text.toList ++ v := by
  rw [matches_seqs_part (fun _ _ _ => matches_literal) fun _ h => by rw [h, hk]]
  constructor
  · rintro ⟨v, v', t, rfl, hv', rfl, rfl⟩
    exact ⟨v', hv', rfl⟩
  · rintro ⟨v, hv, rfl⟩
    exact ⟨_, v, s, rfl, hv, rfl, rfl⟩

theorem matches_xdigits {k : Nat} :
    Ere.Matches UriAtom.mem (.rep (.one .xdigit) k k) n w s ↔ IsHex k w ∧ s = [] := by
  rw [Ere.matches_rep_one_iff, ← and_assoc, ← and_assoc, IsHex]
  refine and_congr_left fun _ => and_congr_left fun _ => ?_
  omega

theorem matches_xdigit : Ere.Matches UriAtom.mem (.one .xdigit) n w s ↔ IsHex 1 w ∧ s = [] := by
  rw [Ere.matches_one_iff]
  constructor
  · rintro ⟨c, hc, rfl, rfl⟩
    exact ⟨⟨rfl, List.forall_mem_singleton.mpr hc⟩, rfl⟩
  · rintro ⟨⟨hlength, hall⟩, rfl⟩
    obtain ⟨c, rfl⟩ := List.length_eq_one_iff.mp hlength
    exact ⟨c, hall c (List.mem_singleton_self c), rfl, rfl⟩

/-- A group around a part of a fixed length. -/
theorem matches_group_part {a : Ere UriAtom} {P : CStr → Prop} {k : Nat}
    (ha : ∀ n w s, Ere.Matches UriAtom.mem a n w s ↔ P w ∧ s = [])
    (hlength : ∀ w, P w → w.length = k) :
    Ere.Matches UriAtom.mem (.group i a) n w s ↔ P w ∧ s = [(i, ⟨n, n + k⟩)] := by
  rw [Ere.matches_group_iff]
  constructor
  · rintro ⟨t, hw, rfl⟩
    obtain ⟨hP, rfl⟩ := (ha _ _ _).mp hw
    rw [hlength w hP]
    exact ⟨hP, rfl⟩
  · rintro ⟨hP, rfl⟩
    rw [← hlength w hP]
    exact ⟨[], (ha _ _ _).mpr ⟨hP, rfl⟩, rfl⟩

/-- The spans of the groups 1, 2 and 3, for a bus id at the offset `n`. -/
def busidSpans (n : Nat) : List (Nat × Ere.Span) :=
  [(1, ⟨n, n + 1⟩), (2, ⟨n + 2, n + 3⟩), (3, ⟨n + 4, n + 8⟩)]

theorem matches_busidRe :
    Ere.Matches UriAtom.mem busidRe n w s ↔ IsBusid w ∧ s = busidSpans n := by
  have hdot : ".".toList.length = 1 := rfl
  have hone : ∀ i n w s, Ere.Matches UriAtom.mem (.group i (.one .xdigit)) n w s ↔
      IsHex 1 w ∧ s = [(i, ⟨n, n + 1⟩)] :=
    fun _ _ _ _ => matches_group_part (fun _ _ _ => matches_xdigit) fun _ h => h.1
  have hfour : ∀ i n w s, Ere.Matches UriAtom.mem (.group i (.rep (.one .xdigit) 4 4)) n w s ↔
      IsHex 4 w ∧ s = [(i, ⟨n, n + 4⟩)] :=
    fun _ _ _ _ => matches_group_part (fun _ _ _ => matches_xdigits) fun _ h => h.1
  rw [busidRe, matches_seqs_part (hone 1) fun _ h => h.1]
  constructor
  · rintro ⟨x, v₁, t₁, hx, h₁, rfl, rfl⟩
    obtain ⟨v₂, h₂, rfl⟩ := (matches_seqs_literal hdot).mp h₁
    obtain ⟨y, v₃, t₃, hy, h₃, rfl, rfl⟩ := (matches_seqs_part (hone 2) fun _ h => h.1).mp h₂
    obtain ⟨v₄, h₄, rfl⟩ := (matches_seqs_literal hdot).mp h₃
    obtain ⟨z, v₅, t₅, hz, h₅, rfl, rfl⟩ := (matches_seqs_part (hfour 3) fun _ h => h.1).mp h₄
    obtain ⟨rfl, rfl⟩ := Ere.matches_seqs_nil_iff.mp h₅
    rw [List.append_nil]
    exact ⟨⟨x, y, z, hx, hy, hz, rfl⟩, rfl⟩
  · rintro ⟨⟨x, y, z, hx, hy, hz, rfl⟩, rfl⟩
    have hend : '.' :: (y ++ '.' :: z) = ".".toList ++ (y ++ (".".toList ++ (z ++ []))) := by
      rw [List.append_nil]
      rfl
    rw [hend]
    refine ⟨x, _, _, hx, (matches_seqs_literal hdot).mpr ⟨_, ?_, rfl⟩, rfl, rfl⟩
    refine (matches_seqs_part (hone 2) fun _ h => h.1).mpr
      ⟨y, _, _, hy, (matches_seqs_literal hdot).mpr ⟨_, ?_, rfl⟩, rfl, rfl⟩
    exact (matches_seqs_part (hfour 3) fun _ h => h.1).mpr
      ⟨z, [], [], hz, Ere.matches_seqs_nil_iff.mpr ⟨rfl, rfl⟩, rfl, rfl⟩

theorem matches_seqs_busid {es : List (Ere UriAtom)} :
    Ere.Matches UriAtom.mem (Ere.seqs (busidRe :: es)) n w s ↔
      ∃ v v' t, IsBusid v ∧ Ere.Matches UriAtom.mem (Ere.seqs es) (n + 8) v' t ∧ w = v ++ v' ∧
        s = busidSpans n ++ t :=
  matches_seqs_part (fun _ _ _ => matches_busidRe) fun _ h => h.length

theorem matches_numberRe :
    Ere.Matches UriAtom.mem (numberRe i) n w s ↔ IsNumber w ∧ s = [(i, ⟨n, n + 18⟩)] := by
  refine matches_group_part (fun n w s => ?_) fun _ h => h.length
  rw [Ere.matches_seq_iff]
  constructor
  · rintro ⟨v, x, t, t', hv, hv', rfl, rfl⟩
    obtain ⟨rfl, rfl⟩ := matches_literal.mp hv
    obtain ⟨hx, rfl⟩ := matches_xdigits.mp hv'
    exact ⟨⟨x, hx, rfl⟩, rfl⟩
  · rintro ⟨⟨x, hx, rfl⟩, rfl⟩
    exact ⟨_, x, [], [], matches_literal.mpr ⟨rfl, rfl⟩, matches_xdigits.mpr ⟨hx, rfl⟩, rfl, rfl⟩

theorem matches_seqs_number {es : List (Ere UriAtom)} :
    Ere.Matches UriAtom.mem (Ere.seqs (numberRe i :: es)) n w s ↔
      ∃ v v' t, IsNumber v ∧ Ere.Matches UriAtom.mem (Ere.seqs es) (n + 18) v' t ∧ w = v ++ v' ∧
        s = [(i, ⟨n, n + 18⟩)] ++ t :=
  matches_seqs_part (fun _ _ _ => matches_numberRe) fun _ h => h.length

/-- The spans of the groups `i` and `i + 1`, for a program number whose comma is at the offset
`n`. -/
def programSpans (i n : Nat) : Option CStr → List (Nat × Ere.Span)
  | none => []
  | some p => [(i, ⟨n, n + 1 + p.length⟩), (i + 1, ⟨n + 1, n + 1 + p.length⟩)]

theorem matches_programRe : Ere.Matches UriAtom.mem (programRe i) n w s ↔
    ∃ p, (∀ q ∈ p, IsProgram q) ∧ w = programPart p ∧ s = programSpans i n p := by
  have hdigits : ∀ n w s, Ere.Matches UriAtom.mem (.rep (.one .digit) 1 2) n w s ↔
      IsProgram w ∧ s = [] := by
    intro n w s
    rw [Ere.matches_rep_one_iff, ← and_assoc, ← and_assoc, IsProgram]
    rfl
  rw [programRe, Ere.matches_opt_iff]
  constructor
  · rintro (h | ⟨rfl, rfl⟩)
    · obtain ⟨t, hpart, rfl⟩ := Ere.matches_group_iff.mp h
      obtain ⟨v, p, t₁, t₂, hv, hgroup, rfl, rfl⟩ := Ere.matches_seq_iff.mp hpart
      obtain ⟨rfl, rfl⟩ := matches_literal.mp hv
      obtain ⟨t₃, hprogram, rfl⟩ := Ere.matches_group_iff.mp hgroup
      obtain ⟨hp, rfl⟩ := (hdigits _ _ _).mp hprogram
      refine ⟨some p, by rintro q ⟨⟩; exact hp, rfl, ?_⟩
      rw [List.length_append, ← Nat.add_assoc]
      rfl
    · exact ⟨none, by simp, rfl, rfl⟩
  · rintro ⟨p, hp, rfl, rfl⟩
    cases p with
    | none => exact .inr ⟨rfl, rfl⟩
    | some p =>
      refine .inl (Ere.matches_group_iff.mpr ⟨[(i + 1, ⟨n + 1, n + 1 + p.length⟩)],
        Ere.matches_seq_iff.mpr ⟨_, p, [], _, matches_literal.mpr ⟨rfl, rfl⟩,
          Ere.matches_group_iff.mpr ⟨[], (hdigits _ _ _).mpr ⟨hp p rfl, rfl⟩, rfl⟩, rfl, rfl⟩, ?_⟩)
      rw [programPart, List.length_cons, Nat.add_comm p.length 1, ← Nat.add_assoc]
      rfl

/-- **What `URI_DASD_BOOTMAP_RE` matches.** -/
theorem matches_uriDasdBootmapRe : Ere.Matches UriAtom.mem uriDasdBootmapRe 0 w s ↔
    ∃ device p, DasdForm w device p ∧ s = busidSpans 8 ++ programSpans 4 16 p := by
  have hend : ")".toList.length = 1 := rfl
  rw [uriDasdBootmapRe, matches_seqs_literal (rfl : "dasd://(".toList.length = 8)]
  constructor
  · rintro ⟨v, hv, rfl⟩
    obtain ⟨b, v₁, t₁, hb, h₁, rfl, rfl⟩ := matches_seqs_busid.mp hv
    obtain ⟨v₂, v₃, t₂, t₃, h₂, h₃, rfl, rfl⟩ := Ere.matches_seqs_cons_iff.mp h₁
    obtain ⟨p, hp, rfl, rfl⟩ := matches_programRe.mp h₂
    obtain ⟨v₄, h₄, rfl⟩ := (matches_seqs_literal hend).mp h₃
    obtain ⟨rfl, rfl⟩ := Ere.matches_seqs_nil_iff.mp h₄
    rw [List.append_nil, List.append_nil]
    exact ⟨_, p, ⟨b, hb, hp, rfl, rfl⟩, rfl⟩
  · rintro ⟨_, p, ⟨b, hb, hp, rfl, rfl⟩, rfl⟩
    refine ⟨_, matches_seqs_busid.mpr ⟨b, _, _, hb, ?_, rfl, rfl⟩, rfl⟩
    refine Ere.matches_seqs_cons_iff.mpr ⟨programPart p, _, _, [],
      matches_programRe.mpr ⟨p, hp, rfl, rfl⟩, ?_, rfl, (List.append_nil _).symm⟩
    exact (matches_seqs_literal hend).mpr ⟨[], Ere.matches_seqs_nil_iff.mpr ⟨rfl, rfl⟩, rfl⟩

/-- **What `URI_ZFCP_BOOTMAP_RE` matches.** -/
theorem matches_uriZfcpBootmapRe : Ere.Matches UriAtom.mem uriZfcpBootmapRe 0 w s ↔
    ∃ device p, ZfcpForm w device p ∧
      s = busidSpans 8 ++ ((4, ⟨17, 35⟩) :: (5, ⟨36, 54⟩) :: programSpans 6 54 p) := by
  have hcomma : ",".toList.length = 1 := rfl
  have hend : ")".toList.length = 1 := rfl
  rw [uriZfcpBootmapRe, matches_seqs_literal (rfl : "zfcp://(".toList.length = 8)]
  constructor
  · rintro ⟨v, hv, rfl⟩
    obtain ⟨b, v₁, t₁, hb, h₁, rfl, rfl⟩ := matches_seqs_busid.mp hv
    obtain ⟨v₂, h₂, rfl⟩ := (matches_seqs_literal hcomma).mp h₁
    obtain ⟨x, v₃, t₃, hx, h₃, rfl, rfl⟩ := matches_seqs_number.mp h₂
    obtain ⟨v₄, h₄, rfl⟩ := (matches_seqs_literal hcomma).mp h₃
    obtain ⟨y, v₅, t₅, hy, h₅, rfl, rfl⟩ := matches_seqs_number.mp h₄
    obtain ⟨v₆, v₇, t₆, t₇, h₆, h₇, rfl, rfl⟩ := Ere.matches_seqs_cons_iff.mp h₅
    obtain ⟨p, hp, rfl, rfl⟩ := matches_programRe.mp h₆
    obtain ⟨v₈, h₈, rfl⟩ := (matches_seqs_literal hend).mp h₇
    obtain ⟨rfl, rfl⟩ := Ere.matches_seqs_nil_iff.mp h₈
    rw [List.append_nil, List.append_nil]
    exact ⟨_, p, ⟨b, x, y, hb, hx, hy, hp, rfl, rfl⟩, rfl⟩
  · rintro ⟨_, p, ⟨b, x, y, hb, hx, hy, hp, rfl, rfl⟩, rfl⟩
    refine ⟨_, matches_seqs_busid.mpr
      ⟨b, _, _, hb, (matches_seqs_literal hcomma).mpr ⟨_, ?_, rfl⟩, rfl, rfl⟩, rfl⟩
    refine matches_seqs_number.mpr
      ⟨x, _, _, hx, (matches_seqs_literal hcomma).mpr ⟨_, ?_, rfl⟩, rfl, rfl⟩
    refine matches_seqs_number.mpr ⟨y, _, _, hy, ?_, rfl, rfl⟩
    refine Ere.matches_seqs_cons_iff.mpr ⟨programPart p, _, _, [],
      matches_programRe.mpr ⟨p, hp, rfl, rfl⟩, ?_, rfl, (List.append_nil _).symm⟩
    exact (matches_seqs_literal hend).mpr ⟨[], Ere.matches_seqs_nil_iff.mpr ⟨rfl, rfl⟩, rfl⟩

end Matches

/-! ## What the fields are -/

/-- The number that `%i` scans from a program number, with the parenthesis behind it. -/
def scannedProgram : Option CStr → Int
  | none => 0
  | some p => (scanAnyBase (p ++ ")".toList)).getD 0

/-- A URI has one program number at most. -/
theorem programPart_inj {p p' : Option CStr} (h : programPart p = programPart p') : p = p' := by
  cases p with
  | none =>
    cases p' with
    | none => rfl
    | some q => exact absurd h (List.cons_ne_nil _ _).symm
  | some q =>
    cases p' with
    | none => exact absurd h (List.cons_ne_nil _ _)
    | some q' => rw [(List.cons_eq_cons.mp h).2]

theorem DasdForm.program_eq {uri : CStr} {device device' : BootDevice} {p p' : Option CStr}
    (h : DasdForm uri device p) (h' : DasdForm uri device' p') : p = p' := by
  obtain ⟨b, hb, -, rfl, -⟩ := h
  obtain ⟨b', hb', -, huri, -⟩ := h'
  have hrest := List.append_cancel_left huri
  obtain ⟨-, hrest⟩ := List.append_inj hrest (hb.length.trans hb'.length.symm)
  exact programPart_inj (List.append_cancel_right hrest)

theorem ZfcpForm.program_eq {uri : CStr} {device device' : BootDevice} {p p' : Option CStr}
    (h : ZfcpForm uri device p) (h' : ZfcpForm uri device' p') : p = p' := by
  obtain ⟨b, x, y, hb, hx, hy, -, rfl, -⟩ := h
  obtain ⟨b', x', y', hb', hx', hy', -, huri, -⟩ := h'
  have hrest := List.append_cancel_left huri
  obtain ⟨-, hrest⟩ := List.append_inj hrest (hb.length.trans hb'.length.symm)
  obtain ⟨-, hrest⟩ := List.append_inj (List.append_cancel_left hrest)
    (hx.length.trans hx'.length.symm)
  obtain ⟨-, hrest⟩ := List.append_inj (List.append_cancel_left hrest)
    (hy.length.trans hy'.length.symm)
  exact programPart_inj (List.append_cancel_right hrest)

/-- A copy of a part of the URI, from the offset of its group. -/
theorem copyLower_eq {v w x : CStr} {pmatch : List (Nat × Ere.Span)} {i k n : Nat}
    (hv : v.length = k) (hso : Ere.rmSo pmatch i = k) (hn : w.length = n) :
    copyLower (v ++ (w ++ x)) pmatch i n = w.map Char.toLower := by
  rw [copyLower, hso, Int.toNat_natCast, List.drop_left' hv, List.take_left' hn]

/-- A program number is scanned from behind its comma. -/
theorem scanProgram_eq {v : CStr} {p : Option CStr} {pmatch : List (Nat × Ere.Span)} {i k : Nat}
    (hv : v.length = k)
    (hso : Ere.rmSo pmatch i = if p.isSome then ((k + 1 : Nat) : Int) else -1) :
    scanProgram (v ++ (programPart p ++ ")".toList)) pmatch i = scannedProgram p := by
  rw [scanProgram, hso]
  cases p with
  | none => rfl
  | some p =>
    have hne : ((k + 1 : Nat) : Int) ≠ -1 := by omega
    simp only [Option.isSome_some, if_true, if_pos hne, Int.toNat_natCast, programPart,
      List.cons_append]
    rw [← hv, List.drop_append, List.drop_of_length_le (Nat.le_succ _), Nat.add_sub_cancel_left]
    rfl

/-- What is read from a URI whose form determines its program number. -/
theorem fields_eq_some_iff {re : Ere UriAtom} {uri : CStr} (Form : BootDevice → Option CStr → Prop)
    {spans : Option CStr → List (Nat × Ere.Span)}
    {fields : List (Nat × Ere.Span) → BootDevice × Int}
    (hmatches : ∀ s, Ere.Matches UriAtom.mem re 0 uri s ↔ ∃ device p, Form device p ∧ s = spans p)
    (hunique : ∀ device device' p p', Form device p → Form device' p' → p = p')
    (hread : ∀ device p, Form device p → fields (spans p) = (device, scannedProgram p))
    {device : BootDevice} {program : Int} :
    (Ere.regexec UriAtom.mem re uri).map fields = some (device, program) ↔
      ∃ p, Form device p ∧ program = scannedProgram p := by
  rw [Option.map_eq_some_iff]
  constructor
  · rintro ⟨s, hs, hfields⟩
    obtain ⟨device', p, hform, rfl⟩ := (hmatches s).mp (Ere.matches_of_regexec hs)
    rw [hread device' p hform] at hfields
    obtain ⟨rfl, rfl⟩ := Prod.mk.inj hfields
    exact ⟨p, hform, rfl⟩
  · rintro ⟨p, hform, rfl⟩
    refine ⟨spans p, (Ere.regexec_eq_some_iff ?_).mpr ((hmatches _).mpr ⟨device, p, hform, rfl⟩),
      hread device p hform⟩
    intro t t' ht ht'
    obtain ⟨_, q, hq, rfl⟩ := (hmatches t).mp ht
    obtain ⟨_, q', hq', rfl⟩ := (hmatches t').mp ht'
    rw [hunique _ _ q q' hq hq']

/-- What is copied from a DASD URI. -/
theorem dasd_copied {v b : CStr} (p : Option CStr) (hv : v.length = 8) (hb : IsBusid b)
    {uri : CStr} (huri : uri = v ++ (b ++ (programPart p ++ ")".toList)))
    {pmatch : List (Nat × Ere.Span)} (hpmatch : pmatch = busidSpans 8 ++ programSpans 4 16 p) :
    (BootDevice.dasd (copyLower uri pmatch 1 8), scanProgram uri pmatch 5) =
      (BootDevice.dasd (b.map Char.toLower), scannedProgram p) := by
  subst huri hpmatch
  have hend : (v ++ b).length = 16 := by rw [List.length_append, hv, hb.length]
  simp only [Prod.mk.injEq, BootDevice.dasd.injEq]
  constructor
  · exact copyLower_eq hv (by cases p <;> rfl) hb.length
  · rw [← List.append_assoc]
    exact scanProgram_eq hend (by cases p <;> rfl)

/-- What is copied from a ZFCP URI. -/
theorem zfcp_copied {v c b x y : CStr} (p : Option CStr) (hv : v.length = 8) (hc : c.length = 1)
    (hb : IsBusid b) (hx : IsNumber x) (hy : IsNumber y) {uri : CStr}
    (huri : uri = v ++ (b ++ (c ++ (x ++ (c ++ (y ++ (programPart p ++ ")".toList)))))))
    {pmatch : List (Nat × Ere.Span)}
    (hpmatch : pmatch =
      busidSpans 8 ++ ((4, ⟨17, 35⟩) :: (5, ⟨36, 54⟩) :: programSpans 6 54 p)) :
    (BootDevice.fcp (copyLower uri pmatch 1 8) (copyLower uri pmatch 4 18)
        (copyLower uri pmatch 5 18), scanProgram uri pmatch 7) =
      (BootDevice.fcp (b.map Char.toLower) (x.map Char.toLower) (y.map Char.toLower),
        scannedProgram p) := by
  subst huri hpmatch
  -- what stands in front of the WWPN, of the LUN and of the program number
  have hwwpn : (v ++ b ++ c).length = 17 := by
    rw [List.length_append, List.length_append, hv, hb.length, hc]
  have hlun : (v ++ b ++ c ++ x ++ c).length = 36 := by
    rw [List.length_append, List.length_append, hwwpn, hx.length, hc]
  have hend : (v ++ b ++ c ++ x ++ c ++ y).length = 54 := by
    rw [List.length_append, hlun, hy.length]
  simp only [Prod.mk.injEq, BootDevice.fcp.injEq]
  refine ⟨⟨?_, ?_, ?_⟩, ?_⟩
  · exact copyLower_eq hv (by cases p <;> rfl) hb.length
  · rw [← List.append_assoc v, ← List.append_assoc]
    exact copyLower_eq hwwpn (by cases p <;> rfl) hx.length
  · rw [← List.append_assoc v, ← List.append_assoc, ← List.append_assoc _ x, ← List.append_assoc]
    exact copyLower_eq hlun (by cases p <;> rfl) hy.length
  · rw [← List.append_assoc v, ← List.append_assoc, ← List.append_assoc _ x, ← List.append_assoc,
      ← List.append_assoc _ y]
    exact scanProgram_eq hend (by cases p <;> rfl)

/-- **What `action_bootmap_boot_dasd` reads.** -/
theorem dasdFields_eq_some_iff {uri : CStr} {device : BootDevice} {program : Int} :
    dasdFields uri = some (device, program) ↔
      ∃ p, DasdForm uri device p ∧ program = scannedProgram p := by
  refine fields_eq_some_iff (DasdForm uri) (fun _ => matches_uriDasdBootmapRe)
    (fun _ _ _ _ => DasdForm.program_eq) ?_
  rintro _ p ⟨b, hb, -, huri, rfl⟩
  exact dasd_copied p rfl hb huri rfl

/-- **What `action_bootmap_boot_zfcp` reads.** -/
theorem zfcpFields_eq_some_iff {uri : CStr} {device : BootDevice} {program : Int} :
    zfcpFields uri = some (device, program) ↔
      ∃ p, ZfcpForm uri device p ∧ program = scannedProgram p := by
  refine fields_eq_some_iff (ZfcpForm uri) (fun _ => matches_uriZfcpBootmapRe)
    (fun _ _ _ _ => ZfcpForm.program_eq) ?_
  rintro _ p ⟨b, x, y, hb, hx, hy, -, huri, rfl⟩
  exact zfcp_copied p rfl rfl hb hx hy huri rfl

/-! ## The program number -/

/-- A program number that `%i` takes for octal, which it is not. -/
def NotOctal (p : CStr) : Prop := p = "08".toList ∨ p = "09".toList

section Digits

variable {c : Char} (hc : c.isDigit = true)
include hc

theorem hexValue_of_isDigit : hexValue c = c.toNat - '0'.toNat := if_pos hc

theorem hexValue_lt_ten : hexValue c < 10 := by
  have hle := (Char.isDigit_iff_toNat.mp hc).2
  rw [hexValue_of_isDigit hc]
  exact Nat.sub_lt_left_of_lt_add (Char.isDigit_iff_toNat.mp hc).1 (Nat.lt_succ_of_le hle)

theorem isDigitOf_of_isDigit (base : Nat) : isDigitOf base c = decide (hexValue c < base) := by
  rw [isDigitOf, isHexDigit, hc, Bool.true_or, Bool.true_or, Bool.true_and]

/-- Neither white space nor a sign stands in front of a digit. -/
theorem scanSign_digit (text : CStr) :
    scanSign ((c :: text).dropWhile isSpaceChar) = (false, c :: text) := by
  rw [List.dropWhile_cons_of_neg (by rw [isSpaceChar_of_isDigit hc]; exact Bool.false_ne_true)]
  unfold scanSign
  split
  · rename_i h
    rw [(List.cons_eq_cons.mp h).1] at hc
    exact absurd hc (by decide)
  · rename_i h
    rw [(List.cons_eq_cons.mp h).1] at hc
    exact absurd hc (by decide)
  · rfl

/-- A number that begins with a digit is scanned in the base that is found. -/
theorem scanAnyBase_digit {base : Nat} {text : CStr}
    (hbase : scanBase (c :: text) = (base, c :: text)) (hlt : hexValue c < base) :
    scanAnyBase (c :: text) = some (toInt ((text.takeWhile (isDigitOf base)).foldl
      (fun n d => base * n + hexValue d) (hexValue c) : Nat)) := by
  have hdigit : isDigitOf base c = true := by rw [isDigitOf_of_isDigit hc, decide_eq_true hlt]
  simp only [scanAnyBase, scanSign_digit hc, hbase, List.takeWhile_cons_of_pos hdigit,
    List.foldl_cons, Nat.mul_zero, Nat.zero_add, if_neg (List.cons_ne_nil c _), Bool.false_eq_true,
    if_false]

end Digits

theorem scanBase_of_ne {c : Char} (hc : c ≠ '0') (text : CStr) :
    scanBase (c :: text) = (10, c :: text) := by
  unfold scanBase
  split
  · rename_i h
    exact absurd (List.cons_eq_cons.mp h).1 hc
  · rename_i h
    exact absurd (List.cons_eq_cons.mp h).1 hc
  · rename_i h
    exact absurd (List.cons_eq_cons.mp h).1 hc
  · rfl

theorem scanBase_zero {d : Char} (hx : d ≠ 'x') (hX : d ≠ 'X') (text : CStr) :
    scanBase ('0' :: d :: text) = (8, '0' :: d :: text) := by
  unfold scanBase
  split
  · rename_i h
    exact absurd (List.cons_eq_cons.mp (List.cons_eq_cons.mp h).2).1 hx
  · rename_i h
    exact absurd (List.cons_eq_cons.mp (List.cons_eq_cons.mp h).2).1 hX
  · rename_i h
    rw [(List.cons_eq_cons.mp h).2]
  · rename_i h
    exact absurd rfl (h _)

/-- A number of two digits. -/
theorem program_lt {c : Char} (hc : c.isDigit = true) {p : CStr} (hlen : p.length ≤ 1)
    (hp : ∀ d ∈ p, d.isDigit = true) :
    p.foldl (fun n d => 10 * n + hexValue d) (hexValue c) < 100 := by
  have hlt := hexValue_lt_ten hc
  match p, hlen, hp with
  | [], _, _ => exact hlt.trans (by decide)
  | [d], _, hp =>
    have hd := hexValue_lt_ten (hp d (List.mem_singleton_self d))
    show 10 * hexValue c + hexValue d < 100
    omega

/-- A number that does not begin with a zero is decimal. -/
theorem scannedProgram_of_ne {c : Char} (hc : c.isDigit = true) (hne : c ≠ '0') {p : CStr}
    (hlen : p.length ≤ 1) (hp : ∀ d ∈ p, d.isDigit = true) :
    scannedProgram (some (c :: p)) = programValue (some (c :: p)) := by
  have hten : ∀ d ∈ p, isDigitOf 10 d = true := fun d hd => by
    rw [isDigitOf_of_isDigit (hp d hd), decide_eq_true (hexValue_lt_ten (hp d hd))]
  have hdigits : (p ++ ")".toList).takeWhile (isDigitOf 10) = p := by
    rw [List.takeWhile_append_of_pos hten]
    exact List.append_nil p
  have hvalue : p.foldl (fun n d => 10 * n + hexValue d) (hexValue c) =
      Nat.ofDigitChars 10 (c :: p) 0 := by
    rw [Nat.ofDigitChars, List.foldl_cons, Nat.mul_zero, Nat.zero_add, ← hexValue_of_isDigit hc]
    exact List.foldl_ext _ _ _ fun n d hd => by rw [hexValue_of_isDigit (hp d hd)]
  rw [scannedProgram, List.cons_append, scanAnyBase_digit hc (scanBase_of_ne hne _)
    (hexValue_lt_ten hc), hdigits, toInt_of_fits (by omega), hvalue]
  · rfl
  · exact Int.ofNat_le.mpr ((program_lt hc hlen hp).le.trans (by decide))

/-- Behind a zero a digit is octal. -/
theorem scannedProgram_zero {d : Char} (hd : d.isDigit = true) :
    scannedProgram (some ['0', d]) = if hexValue d < 8 then (hexValue d : Int) else 0 := by
  have hx : d ≠ 'x' := by
    rintro rfl
    exact absurd hd (by decide)
  have hX : d ≠ 'X' := by
    rintro rfl
    exact absurd hd (by decide)
  have hzero : hexValue '0' = 0 := rfl
  rw [scannedProgram, List.cons_append, List.cons_append, List.nil_append,
    scanAnyBase_digit (by decide) (scanBase_zero hx hX _) (by decide), hzero]
  by_cases hlt : hexValue d < 8
  · have hoctal : isDigitOf 8 d = true := by rw [isDigitOf_of_isDigit hd, decide_eq_true hlt]
    rw [if_pos hlt, List.takeWhile_cons_of_pos hoctal]
    show toInt ((8 * 0 + hexValue d : Nat) : Int) = hexValue d
    rw [Nat.mul_zero, Nat.zero_add]
    exact toInt_of_fits (by omega) (Int.ofNat_le.mpr (hlt.le.trans (by decide)))
  · have hoctal : ¬ isDigitOf 8 d = true := by
      rw [isDigitOf_of_isDigit hd, decide_eq_false hlt]
      exact Bool.false_ne_true
    rw [if_neg hlt, List.takeWhile_cons_of_neg hoctal]
    rfl

theorem notOctal_zero_iff {d : Char} (hd : d.isDigit = true) :
    NotOctal ['0', d] ↔ ¬ hexValue d < 8 := by
  have hrange := Char.isDigit_iff_toNat.mp hd
  rw [hexValue_of_isDigit hd]
  constructor
  · rintro (h | h)
    · obtain ⟨rfl⟩ : d = '8' := by simpa using h
      decide
    · obtain ⟨rfl⟩ : d = '9' := by simpa using h
      decide
  · intro h
    have hcases : d.toNat = '8'.toNat ∨ d.toNat = '9'.toNat := by
      simp only [Char.reduceToNat] at hrange h ⊢
      omega
    rcases hcases with h8 | h9
    · exact .inl (congrArg (fun d => ['0', d]) (Char.toNat_inj.mp h8))
    · exact .inr (congrArg (fun d => ['0', d]) (Char.toNat_inj.mp h9))

/-- **`%i` reads the decimal value of a program number, unless that is 08 or 09.** -/
theorem scannedProgram_eq_iff {p : CStr} (hp : IsProgram p) :
    scannedProgram (some p) = programValue (some p) ↔ ¬ NotOctal p := by
  obtain ⟨⟨hpos, htwo⟩, hall⟩ := hp
  obtain ⟨c, p, rfl⟩ := List.exists_cons_of_length_pos hpos
  obtain ⟨hc, hrest⟩ := List.forall_mem_cons.mp hall
  by_cases h0 : c = '0'
  · subst h0
    match p, htwo, hrest with
    | [], _, _ => exact iff_of_true rfl (by rintro (h | h) <;> exact absurd h (by decide))
    | [d], _, hrest =>
      have hd := hrest d (List.mem_singleton_self d)
      have hvalue : programValue (some ['0', d]) = hexValue d := by
        rw [hexValue_of_isDigit hd]
        show 10 * 0 + (d.toNat - '0'.toNat) = _
        rw [Nat.mul_zero, Nat.zero_add]
      rw [scannedProgram_zero hd, hvalue, notOctal_zero_iff hd, not_not]
      split
      · exact iff_of_true rfl ‹_›
      · refine iff_of_false ?_ ‹_›
        omega
  · refine iff_of_true (scannedProgram_of_ne hc h0 (Nat.le_of_succ_le_succ htwo) hrest) ?_
    rintro (h | h)
    · exact h0 (List.cons_eq_cons.mp h).1
    · exact h0 (List.cons_eq_cons.mp h).1

/-! ## The boot action -/

section Action

variable (t : Target) (os : Os) (boot : CfgBentry)

/-- What the two functions do with the device that they read. -/
def bootFields (invalid : String) (fields : Option (BootDevice × Int)) : SysM Unit :=
  match fields with
  | none => throw (.errmsg invalid)
  | some (device, program) =>
    match os.attach device with
    | .error errmsg => throw (.errmsg errmsg)
    | .ok disk => bootBootmapDisk t os disk boot program

/-- `action_bootmap_boot_dasd`. -/
def actionBootmapBootDasd : SysM Unit :=
  bootFields t os boot "Error - invalid 'dasd' boot map URI." (dasdFields boot.bootmap)

/-- `action_bootmap_boot_zfcp`. -/
def actionBootmapBootZfcp : SysM Unit :=
  bootFields t os boot "Error - invalid 'zfcp' boot map URI." (zfcpFields boot.bootmap)

theorem matchBusid_eq_some_iff {text busid rest : CStr} : matchBusid text = some (busid, rest) ↔
    ∃ b, IsBusid b ∧ text = b ++ rest ∧ busid = b.map Char.toLower := by
  constructor
  · intro h
    unfold matchBusid at h
    split at h
    · rename_i c₁ c₂ c₃ c₄ c₅ c₆ rest'
      obtain ⟨hall, hpair⟩ := Option.ite_none_right_eq_some.mp h
      obtain ⟨rfl, rfl⟩ := Prod.mk.inj (Option.some.inj hpair)
      have hhex : ∀ c ∈ [c₁, c₂, c₃, c₄, c₅, c₆], isHexDigit c = true := List.all_eq_true.mp hall
      refine ⟨[c₁, '.', c₂, '.', c₃, c₄, c₅, c₆],
        ⟨[c₁], [c₂], [c₃, c₄, c₅, c₆], ⟨rfl, ?_⟩, ⟨rfl, ?_⟩, ⟨rfl, ?_⟩, rfl⟩, rfl, rfl⟩
      · exact fun c hc => hhex c (by grind)
      · exact fun c hc => hhex c (by grind)
      · exact fun c hc => hhex c (by grind)
    · cases h
  · rintro ⟨b, ⟨x, y, z, ⟨hx, hx'⟩, ⟨hy, hy'⟩, ⟨hz, hz'⟩, rfl⟩, rfl, rfl⟩
    obtain ⟨c₁, rfl⟩ := List.length_eq_one_iff.mp hx
    obtain ⟨c₂, rfl⟩ := List.length_eq_one_iff.mp hy
    match z, hz with
    | [c₃, c₄, c₅, c₆], _ =>
      have hall : [c₁, c₂, c₃, c₄, c₅, c₆].all isHexDigit = true := by
        rw [List.all_eq_true]
        grind
      exact if_pos hall

theorem IsBusid.matchBusid {b : CStr} (hb : IsBusid b) (rest : CStr) :
    matchBusid (b ++ rest) = some (b.map Char.toLower, rest) :=
  matchBusid_eq_some_iff.mpr ⟨b, hb, rfl, rfl⟩

theorem matchHex16_eq_some_iff {text number rest : CStr} : matchHex16 text = some (number, rest) ↔
    ∃ x, IsNumber x ∧ text = ',' :: (x ++ rest) ∧ number = x.map Char.toLower := by
  rw [matchHex16, Option.ite_none_right_eq_some]
  constructor
  · rintro ⟨⟨hfront, hlength, hall⟩, hpair⟩
    obtain ⟨rfl, rfl⟩ := Prod.mk.inj (Option.some.inj hpair)
    refine ⟨'0' :: 'x' :: (text.drop 3).take 16, ⟨_, ⟨hlength, List.all_eq_true.mp hall⟩, rfl⟩, ?_,
      rfl⟩
    have hdrop : text.drop 19 = (text.drop 3).drop 16 := by rw [List.drop_drop]
    calc text = text.take 3 ++ text.drop 3 := (List.take_append_drop 3 text).symm
      _ = [',', '0', 'x'] ++ ((text.drop 3).take 16 ++ (text.drop 3).drop 16) := by
        rw [hfront, List.take_append_drop]
      _ = _ := by rw [hdrop]; rfl
  · rintro ⟨_, ⟨x, ⟨hlength, hall⟩, rfl⟩, rfl, rfl⟩
    have htake : (x ++ rest).take 16 = x := List.take_left' hlength
    have hdrop : (x ++ rest).drop 16 = rest := List.drop_left' hlength
    refine ⟨⟨rfl, ?_, ?_⟩, ?_⟩
    · exact (congrArg List.length htake).trans hlength
    · exact (congrArg (List.all · isHexDigit) htake).trans (List.all_eq_true.mpr hall)
    · exact congrArg₂ (fun v w => some ('0' :: 'x' :: v.map Char.toLower, w)) htake hdrop

theorem IsNumber.matchHex16 {x : CStr} (hx : IsNumber x) (rest : CStr) :
    matchHex16 (',' :: (x ++ rest)) = some (x.map Char.toLower, rest) :=
  matchHex16_eq_some_iff.mpr ⟨x, hx, rfl, rfl⟩

theorem scannedProgram_one {c : Char} (hc : c.isDigit = true) :
    scannedProgram (some [c]) = digitValue c := by
  by_cases h0 : c = '0'
  · rw [h0]
    rfl
  · rw [scannedProgram_of_ne hc h0 (by decide : ([] : CStr).length ≤ 1) (by simp)]
    show ((10 * 0 + (c.toNat - '0'.toNat) : Nat) : Int) = digitValue c
    rw [Nat.mul_zero, Nat.zero_add, digitValue]

theorem scannedProgram_two {c₁ c₂ : Char} (h₁ : c₁.isDigit = true) (h₂ : c₂.isDigit = true) :
    scannedProgram (some [c₁, c₂]) =
      ((if c₁ = '0' then if digitValue c₂ < 8 then digitValue c₂ else 0
        else 10 * digitValue c₁ + digitValue c₂ : Nat) : Int) := by
  by_cases h0 : c₁ = '0'
  · rw [h0, scannedProgram_zero h₂, hexValue_of_isDigit h₂, if_pos rfl, digitValue]
    split
    · rfl
    · rfl
  · rw [scannedProgram_of_ne h₁ h0 (Nat.le_refl [c₂].length) (by simpa using h₂), if_neg h0]
    show ((10 * (10 * 0 + (c₁.toNat - '0'.toNat)) + (c₂.toNat - '0'.toNat) : Nat) : Int) = _
    rw [Nat.mul_zero, Nat.zero_add, digitValue, digitValue]

/-- The end of a URI is read as with `%i`. -/
theorem matchProgram_programPart {p : Option CStr} (hp : ∀ q ∈ p, IsProgram q) :
    ∃ n : Nat, matchProgram (programPart p ++ ")".toList) = some n ∧ scannedProgram p = n := by
  cases p with
  | none => exact ⟨0, rfl, rfl⟩
  | some p =>
    obtain ⟨⟨hpos, htwo⟩, hall⟩ := hp p rfl
    match p, hpos, htwo, hall with
    | [c], _, _, hall =>
      have hc := hall c List.mem_cons_self
      exact ⟨_, if_pos hc, scannedProgram_one hc⟩
    | [c₁, c₂], _, _, hall =>
      have h₁ := hall c₁ List.mem_cons_self
      have h₂ := hall c₂ (List.mem_cons_of_mem _ List.mem_cons_self)
      refine ⟨_, ?_, scannedProgram_two h₁ h₂⟩
      show matchProgram [',', c₁, c₂, ')'] = _
      simp only [matchProgram, h₁, h₂, and_self, if_true]
      split
      · rfl
      · rfl

theorem programPart_of_matchProgram {text : CStr} {n : Nat} (h : matchProgram text = some n) :
    ∃ p, (∀ q ∈ p, IsProgram q) ∧ text = programPart p ++ ")".toList := by
  unfold matchProgram at h
  split at h
  · exact ⟨none, by simp, rfl⟩
  · rename_i c
    have hc := (Option.ite_none_right_eq_some.mp h).1
    refine ⟨some [c], ?_, rfl⟩
    rintro q ⟨⟩
    exact ⟨by simp, by simpa using hc⟩
  · rename_i c₁ c₂
    obtain ⟨h₁, h₂⟩ := (Option.ite_none_right_eq_some.mp h).1
    refine ⟨some [c₁, c₂], ?_, rfl⟩
    rintro q ⟨⟩
    exact ⟨by simp, by simp [h₁, h₂]⟩
  · cases h

/-- A pair with its number as an integer. -/
theorem map_natCast_eq_some_iff {fields : Option (BootDevice × Nat)} {device : BootDevice}
    {program : Int} : fields.map (fun x => (x.1, (x.2 : Int))) = some (device, program) ↔
      ∃ n : Nat, fields = some (device, n) ∧ program = n := by
  rw [Option.map_eq_some_iff]
  constructor
  · rintro ⟨⟨d, n⟩, hfields, hpair⟩
    obtain ⟨rfl, rfl⟩ := Prod.mk.inj hpair
    exact ⟨n, hfields, rfl⟩
  · rintro ⟨n, hfields, rfl⟩
    exact ⟨_, hfields, rfl⟩

/-- The loader's model of `action_bootmap_boot_dasd` reads the same. -/
theorem matchDasd_eq (text : CStr) :
    (matchDasd text).map (fun x => (x.1, (x.2 : Int))) = dasdFields ("dasd://".toList ++ text) := by
  refine Option.ext fun ⟨device, program⟩ => ?_
  rw [map_natCast_eq_some_iff, dasdFields_eq_some_iff]
  constructor
  · rintro ⟨n, h, rfl⟩
    unfold matchDasd at h
    split at h
    · obtain ⟨⟨busid, rest⟩, hbusid, h⟩ := Option.bind_eq_some_iff.mp h
      obtain ⟨m, hprogram, h⟩ := Option.bind_eq_some_iff.mp h
      obtain ⟨rfl, rfl⟩ := Prod.mk.inj (Option.some.inj h)
      obtain ⟨b, hb, rfl, rfl⟩ := matchBusid_eq_some_iff.mp hbusid
      obtain ⟨p, hp, rfl⟩ := programPart_of_matchProgram hprogram
      obtain ⟨k, hk, hvalue⟩ := matchProgram_programPart hp
      obtain rfl := Option.some.inj (hk.symm.trans hprogram)
      exact ⟨p, ⟨b, hb, hp, rfl, rfl⟩, hvalue.symm⟩
    · cases h
  · rintro ⟨p, ⟨b, hb, hp, huri, rfl⟩, rfl⟩
    obtain ⟨n, hn, hvalue⟩ := matchProgram_programPart hp
    have htext : text = '(' :: (b ++ (programPart p ++ ")".toList)) := List.append_cancel_left huri
    refine ⟨n, ?_, hvalue⟩
    rw [htext]
    exact Option.bind_eq_some_iff.mpr ⟨_, hb.matchBusid _, Option.bind_eq_some_iff.mpr ⟨n, hn, rfl⟩⟩

/-- The loader's model of `action_bootmap_boot_zfcp` reads the same. -/
theorem matchZfcp_eq (text : CStr) :
    (matchZfcp text).map (fun x => (x.1, (x.2 : Int))) = zfcpFields ("zfcp://".toList ++ text) := by
  refine Option.ext fun ⟨device, program⟩ => ?_
  rw [map_natCast_eq_some_iff, zfcpFields_eq_some_iff]
  constructor
  · rintro ⟨n, h, rfl⟩
    unfold matchZfcp at h
    split at h
    · obtain ⟨⟨busid, rest⟩, hbusid, h⟩ := Option.bind_eq_some_iff.mp h
      obtain ⟨⟨wwpn, rest'⟩, hwwpn, h⟩ := Option.bind_eq_some_iff.mp h
      obtain ⟨⟨lun, rest''⟩, hlun, h⟩ := Option.bind_eq_some_iff.mp h
      obtain ⟨m, hprogram, h⟩ := Option.bind_eq_some_iff.mp h
      obtain ⟨rfl, rfl⟩ := Prod.mk.inj (Option.some.inj h)
      obtain ⟨b, hb, rfl, rfl⟩ := matchBusid_eq_some_iff.mp hbusid
      obtain ⟨x, hx, rfl, rfl⟩ := matchHex16_eq_some_iff.mp hwwpn
      obtain ⟨y, hy, rfl, rfl⟩ := matchHex16_eq_some_iff.mp hlun
      obtain ⟨p, hp, rfl⟩ := programPart_of_matchProgram hprogram
      obtain ⟨k, hk, hvalue⟩ := matchProgram_programPart hp
      obtain rfl := Option.some.inj (hk.symm.trans hprogram)
      exact ⟨p, ⟨b, x, y, hb, hx, hy, hp, rfl, rfl⟩, hvalue.symm⟩
    · cases h
  · rintro ⟨p, ⟨b, x, y, hb, hx, hy, hp, huri, rfl⟩, rfl⟩
    obtain ⟨n, hn, hvalue⟩ := matchProgram_programPart hp
    have htext : text = '(' :: (b ++ ',' :: (x ++ ',' :: (y ++ (programPart p ++ ")".toList)))) :=
      List.append_cancel_left huri
    refine ⟨n, ?_, hvalue⟩
    rw [htext]
    exact Option.bind_eq_some_iff.mpr ⟨_, hb.matchBusid _, Option.bind_eq_some_iff.mpr
      ⟨_, hx.matchHex16 _, Option.bind_eq_some_iff.mpr ⟨_, hy.matchHex16 _,
        Option.bind_eq_some_iff.mpr ⟨n, hn, rfl⟩⟩⟩⟩

/-- **The boot action for boot maps calls one of the two functions.** -/
theorem actionBootmapBoot_eq : actionBootmapBoot t os boot =
    if boot.bootmap.take 7 = "dasd://".toList then actionBootmapBootDasd t os boot
    else if boot.bootmap.take 7 = "zfcp://".toList then actionBootmapBootZfcp t os boot
    else throw (.errmsg "Unsupported bootmap URI scheme.") := by
  have hsplit := List.take_append_drop 7 boot.bootmap
  unfold actionBootmapBoot bootmapDevice
  by_cases hdasd : boot.bootmap.take 7 = "dasd://".toList
  · have hfields := matchDasd_eq (boot.bootmap.drop 7)
    rw [← hdasd, hsplit] at hfields
    rw [if_pos hdasd, if_pos hdasd, actionBootmapBootDasd, ← hfields]
    cases matchDasd (boot.bootmap.drop 7) with
    | none => rfl
    | some x => rfl
  · rw [if_neg hdasd, if_neg hdasd]
    by_cases hzfcp : boot.bootmap.take 7 = "zfcp://".toList
    · have hfields := matchZfcp_eq (boot.bootmap.drop 7)
      rw [← hzfcp, hsplit] at hfields
      rw [if_pos hzfcp, if_pos hzfcp, actionBootmapBootZfcp, ← hfields]
      cases matchZfcp (boot.bootmap.drop 7) with
      | none => rfl
      | some x => rfl
    · rw [if_neg hzfcp, if_neg hzfcp]

end Action

/-! ## What the URI says -/

/-- What is read is what the URI says: it is accepted if it has the form, and then the device is the
one of the URI, and the program number is the decimal value. -/
def ReadsUri (fields : Option (BootDevice × Int)) (Form : BootDevice → Option CStr → Prop) : Prop :=
  ∀ device program, fields = some (device, program) ↔
    ∃ p, Form device p ∧ program = programValue p

theorem readsUri_iff {fields : Option (BootDevice × Int)} {Form : BootDevice → Option CStr → Prop}
    (hfields : ∀ device program, fields = some (device, program) ↔
      ∃ p, Form device p ∧ program = scannedProgram p)
    (hprogram : ∀ device p, Form device (some p) → IsProgram p)
    (hunique : ∀ device device' p p', Form device p → Form device' p' → p = p') :
    ReadsUri fields Form ↔ ¬ ∃ device p, Form device (some p) ∧ NotOctal p := by
  constructor
  · rintro hreads ⟨device, p, hform, hoctal⟩
    have hread := (hfields device _).mpr ⟨some p, hform, rfl⟩
    obtain ⟨p', hform', hvalue⟩ := (hreads _ _).mp hread
    rw [← hunique _ _ _ _ hform hform'] at hvalue
    exact (scannedProgram_eq_iff (hprogram device p hform)).mp hvalue hoctal
  · intro hnot device program
    rw [hfields]
    refine exists_congr fun p => and_congr_right fun hform => ?_
    cases p with
    | none => rfl
    | some p =>
      rw [(scannedProgram_eq_iff (hprogram device p hform)).mpr fun hoctal =>
        hnot ⟨device, p, hform, hoctal⟩]

/-- **The two functions read what the URI says, if and only if its program number is not 08 or
09.** -/
theorem bootmapUri_iff (uri : CStr) :
    (ReadsUri (dasdFields uri) (DasdForm uri) ↔
      ¬ ∃ device p, DasdForm uri device (some p) ∧ (p = "08".toList ∨ p = "09".toList)) ∧
    (ReadsUri (zfcpFields uri) (ZfcpForm uri) ↔
      ¬ ∃ device p, ZfcpForm uri device (some p) ∧ (p = "08".toList ∨ p = "09".toList)) := by
  constructor
  · refine readsUri_iff (fun _ _ => dasdFields_eq_some_iff) ?_ fun _ _ _ _ => DasdForm.program_eq
    rintro device p ⟨b, -, hp, -, -⟩
    exact hp p rfl
  · refine readsUri_iff (fun _ _ => zfcpFields_eq_some_iff) ?_ fun _ _ _ _ => ZfcpForm.program_eq
    rintro device p ⟨b, x, y, -, -, -, hp, -, -⟩
    exact hp p rfl

/-- Program 8 of a DASD, written with a zero in front: program 0 is booted. -/
theorem bootmapUri_octal :
    dasdFields "dasd://(0.0.5e89,08)".toList = some (.dasd "0.0.5e89".toList, 0) ∧
      ¬ ReadsUri (dasdFields "dasd://(0.0.5e89,08)".toList)
        (DasdForm "dasd://(0.0.5e89,08)".toList) := by
  have hform : DasdForm "dasd://(0.0.5e89,08)".toList (.dasd "0.0.5e89".toList)
      (some "08".toList) := by
    refine ⟨"0.0.5e89".toList, ⟨['0'], ['0'], "5e89".toList, ?_, ?_, ?_, rfl⟩, ?_, rfl, rfl⟩
    · exact ⟨rfl, List.all_eq_true.mp rfl⟩
    · exact ⟨rfl, List.all_eq_true.mp rfl⟩
    · exact ⟨rfl, List.all_eq_true.mp rfl⟩
    · rintro q ⟨⟩
      exact ⟨by decide, List.all_eq_true.mp rfl⟩
  have hread : dasdFields "dasd://(0.0.5e89,08)".toList = some (.dasd "0.0.5e89".toList, 0) :=
    dasdFields_eq_some_iff.mpr ⟨_, hform, rfl⟩
  refine ⟨hread, fun hreads => ?_⟩
  obtain ⟨p, hp, hvalue⟩ := (hreads _ _).mp hread
  rw [← hform.program_eq hp] at hvalue
  exact absurd hvalue (by decide)

end Sysload
