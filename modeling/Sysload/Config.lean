import Mathlib.Tactic.Common

/-!
# Configuration data (`config.h`, `config.c`)

C strings are lists of characters without the terminating NUL. `printInt` and `scanInt` are the
conversion `%d` of `printf` and `sscanf`; a number that is no `int` is converted as on a machine with
a `long` of 64 bits.

Source: `src/core/config.h`; `src/core/config.c`, `cfg_new`, `cfg_bentry_new`,
`cfg_add_userinterface`, `cfg_add_bentry` and `cfg_bentry_print`. Out of scope are the functions
that copy and free the structures, and a `malloc` that fails.
-/

namespace Sysload

/-- A C string. -/
abbrev CStr := List Char

/-- `CFG_STR_MAX_LEN`. -/
def cfgStrMaxLen : Nat := 512

/-- `NUL`, the end of a C string in memory. -/
def nul : Char := Char.ofNat 0

/-- The C string at the beginning of some memory. -/
def cstr (mem : List Char) : CStr := mem.takeWhile fun c => c != nul

theorem cstr_eq_self {mem : List Char} (h : nul ∉ mem) : cstr mem = mem := by
  have hall : ∀ c ∈ mem, (c != nul) = true := fun c hc => bne_iff_ne.mpr fun heq => h (heq ▸ hc)
  simpa [cstr] using @List.takeWhile_append_of_pos _ (fun c => c != nul) _ [] hall

/-- `enum boot_action`. -/
inductive BootAction where
  | kernelBoot
  | insfileBoot
  | bootmapBoot
  | reboot
  | halt
  | shell
  | exit
  deriving DecidableEq, Repr

/-- `struct cfg_bentry`. -/
structure CfgBentry where
  title : CStr
  label : CStr
  root : CStr
  kernel : CStr
  initrd : CStr
  cmdline : CStr
  parmfile : CStr
  insfile : CStr
  bootmap : CStr
  locked : Int
  pause : CStr
  action : BootAction
  deriving DecidableEq, Repr

/-- `cfg_bentry_init`: everything is zero. -/
def CfgBentry.init : CfgBentry :=
  ⟨[], [], [], [], [], [], [], [], [], 0, [], .kernelBoot⟩

/-- `struct cfg_userinterface`. -/
structure CfgUserinterface where
  module : CStr
  cmdline : CStr
  deriving DecidableEq, Repr

/-- `struct cfg_toplevel`; the counts are the lengths of the lists. -/
structure CfgToplevel where
  bootDefault : Int
  timeout : Int
  password : CStr
  uiList : List CfgUserinterface
  bentryList : List CfgBentry
  deriving DecidableEq, Repr

/-- `cfg_init`: everything is zero. -/
def CfgToplevel.init : CfgToplevel := ⟨0, 0, [], [], []⟩

/-- `cfg_add_userinterface`. -/
def CfgToplevel.addUserinterface (config : CfgToplevel) (ui : CfgUserinterface) : CfgToplevel :=
  { config with uiList := config.uiList ++ [ui] }

/-- `cfg_add_bentry`. -/
def CfgToplevel.addBentry (config : CfgToplevel) (bentry : CfgBentry) : CfgToplevel :=
  { config with bentryList := config.bentryList ++ [bentry] }

/-! ## Boot entries as text -/

/-- `print_if_available`. -/
def printIfAvailable (ident value : CStr) : CStr :=
  if ident = [] ∨ value = [] then [] else ident ++ ' ' :: value ++ ['\n']

/-- `cfg_bentry_print`. -/
def cfgBentryPrint (bentry : CfgBentry) : CStr :=
  "boot_entry \x7b\n".toList ++
  printIfAvailable "title".toList bentry.title ++
  printIfAvailable "label".toList bentry.label ++
  (match bentry.action with
  | .reboot => "reboot\n".toList
  | .halt => "halt\n".toList
  | .shell => "shell\n".toList
  | .exit => "exit\n".toList
  | _ =>
    printIfAvailable "root".toList bentry.root ++
    printIfAvailable "kernel".toList bentry.kernel ++
    printIfAvailable "initrd".toList bentry.initrd ++
    printIfAvailable "cmdline".toList bentry.cmdline ++
    printIfAvailable "parmfile".toList bentry.parmfile ++
    printIfAvailable "insfile".toList bentry.insfile ++
    printIfAvailable "bootmap".toList bentry.bootmap) ++
  "\x7d\n".toList

/-! ## Integers as text -/

/-- `printf("%d", n)`. -/
def printInt : Int → CStr
  | .ofNat n => Nat.toDigits 10 n
  | .negSucc n => '-' :: Nat.toDigits 10 (n + 1)

/-- `isspace`. -/
def isSpaceChar (c : Char) : Bool := c == ' ' || (9 ≤ c.toNat && c.toNat ≤ 13)

/-- The digits at the beginning of a string, if there are any. -/
def scanNat (str : CStr) : Option Nat :=
  match str.takeWhile Char.isDigit with
  | [] => none
  | digits => some (Nat.ofDigitChars 10 digits 0)

/-- The number at the beginning of a string, if there is one: white space and a sign may come
first. -/
def scanNumber (str : CStr) : Option Int :=
  match str.dropWhile isSpaceChar with
  | '-' :: rest => (scanNat rest).map fun n => -(n : Int)
  | '+' :: rest => (scanNat rest).map fun n => (n : Int)
  | rest => (scanNat rest).map fun n => (n : Int)

/-- The `long` that is made of a number, where `LONG_MAX` is `limit`: what is out of range becomes the
end of the range. -/
def toLong (limit : Nat) (n : Int) : Int := max (-(limit : Int) - 1) (min limit n)

/-- `LONG_MAX` on a 64-bit machine. -/
def longMax : Nat := 0x7fffffffffffffff

/-- `INT_MAX`. -/
def intMax : Nat := 0x7fffffff

/-- The `int` that is made of a number: the lower 32 bits of a `long`. -/
def toInt (n : Int) : Int := (toLong longMax n).bmod 0x100000000

/-- `sscanf(str, "%d", &n)`. -/
def scanInt (str : CStr) : Option Int := (scanNumber str).map toInt

/-- `atol`, where `LONG_MAX` is `limit`. -/
def atol (limit : Nat) (str : CStr) : Int := toLong limit ((scanNumber str).getD 0)

/-- A number in the range of an `int` is kept. -/
theorem toInt_of_fits {n : Int} (hlow : -(intMax : Int) - 1 ≤ n) (hhigh : n ≤ intMax) :
    toInt n = n := by
  unfold intMax at hlow hhigh
  have hlong : toLong longMax n = n := by
    unfold toLong longMax
    omega
  rw [toInt, hlong, Int.bmod_def]
  omega

theorem scanInt_of_fits {str : CStr} {n : Nat} (h : scanNumber str = some (n : Int))
    (hn : n ≤ intMax) : scanInt str = some (n : Int) := by
  rw [scanInt, h, Option.map_some, toInt_of_fits (by omega) (Int.ofNat_le.mpr hn)]

/-- What is converted is an `int`. -/
theorem toInt_range (n : Int) : -(intMax : Int) - 1 ≤ toInt n ∧ toInt n ≤ intMax := by
  unfold toInt intMax
  rw [Int.bmod_def]
  omega

theorem isDigit_toDigits {n : Nat} : ∀ c ∈ Nat.toDigits 10 n, c.isDigit = true :=
  fun _ hc => Nat.isDigit_of_mem_toDigits (by decide) (by decide) hc

theorem scanNat_toDigits (n : Nat) : scanNat (Nat.toDigits 10 n) = some n := by
  have hall : (Nat.toDigits 10 n).takeWhile Char.isDigit = Nat.toDigits 10 n := by
    simpa using @List.takeWhile_append_of_pos _ Char.isDigit _ [] (isDigit_toDigits (n := n))
  unfold scanNat
  rw [hall]
  split
  · rename_i hnil
    exact absurd hnil Nat.toDigits_ne_nil
  · rw [Nat.ofDigitChars_ten_toDigits]

theorem isSpaceChar_of_isDigit {c : Char} (h : c.isDigit = true) : isSpaceChar c = false := by
  have hrange := (Char.isDigit_iff_toNat.mp h).1
  have hne : c ≠ ' ' := by
    rintro rfl
    exact absurd h (by decide)
  have hlt : 13 < c.toNat := Nat.lt_of_lt_of_le (by decide) hrange
  rw [isSpaceChar, beq_eq_false_iff_ne.mpr hne, Bool.false_or,
    decide_eq_false (Nat.not_le.mpr hlt), Bool.and_false]

/-- A digit is neither white space nor a sign. -/
theorem scanNumber_of_isDigit {d : Char} (hdigit : d.isDigit = true) (ds : CStr) :
    scanNumber (d :: ds) = (scanNat (d :: ds)).map fun n => (n : Int) := by
  unfold scanNumber
  rw [List.dropWhile_cons_of_neg (by simp [isSpaceChar_of_isDigit hdigit])]
  split
  · rename_i heq
    obtain ⟨rfl, rfl⟩ := List.cons.inj heq
    exact absurd hdigit (by decide)
  · rename_i heq
    obtain ⟨rfl, rfl⟩ := List.cons.inj heq
    exact absurd hdigit (by decide)
  · rfl

theorem scanNumber_toDigits (n : Nat) : scanNumber (Nat.toDigits 10 n) = some (n : Int) := by
  have hscan := scanNat_toDigits n
  have hdigits := @isDigit_toDigits n
  cases hd : Nat.toDigits 10 n with
  | nil => exact absurd hd Nat.toDigits_ne_nil
  | cons d ds =>
    rw [hd] at hscan hdigits
    rw [scanNumber_of_isDigit (hdigits d List.mem_cons_self), hscan]
    rfl

/-- What begins with a digit is a number. -/
theorem scanInt_isSome {d : Char} (hdigit : d.isDigit = true) (ds : CStr) :
    ∃ n, scanInt (d :: ds) = some n := by
  rw [scanInt, scanNumber_of_isDigit hdigit, scanNat, List.takeWhile_cons_of_pos hdigit]
  exact ⟨_, rfl⟩

/-- **What is printed is read back.** -/
theorem scanNumber_printInt (n : Int) : scanNumber (printInt n) = some n := by
  cases n with
  | ofNat n => exact scanNumber_toDigits n
  | negSucc n =>
    show ((scanNat (Nat.toDigits 10 (n + 1))).map fun n => -(n : Int)) = some (Int.negSucc n)
    rw [scanNat_toDigits]
    rfl

/-- An `int` that is printed is read again. -/
theorem scanInt_printInt {n : Int} (hlow : -(intMax : Int) - 1 ≤ n) (hhigh : n ≤ intMax) :
    scanInt (printInt n) = some n := by
  rw [scanInt, scanNumber_printInt, Option.map_some, toInt_of_fits hlow hhigh]

theorem printInt_injective : Function.Injective printInt := by
  intro m n h
  have hscan := congrArg scanNumber h
  rw [scanNumber_printInt, scanNumber_printInt] at hscan
  exact Option.some.inj hscan

end Sysload
