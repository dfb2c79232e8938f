import Sysload.Loader.BootmapUri
import Sysload.Machine

/-!
# Reading files in pieces (`config.c`, `bootmap_common.c`)

`read()` may deliver less than it is asked for. `cfg_read()` goes on until the buffer is full, the file
ends, or `read()` fails; `read_file()` and `echo_and_test()` read the attributes of `sysfs` with it.

Source: `src/core/config.c`, `cfg_read`; `src/core/bootmap_common.c`, `read_file` and
`echo_and_test`. Out of scope are the waiting times between two tries.

Results:
* `cfgRead_cases`: what the loop comes to, wherever it is.
* **`cfgRead_full`**: a full read, however `read()` splits the file.
* `readFile_eq`, `echoAndTest_eq`: its callers only see the content of the file.
-/

namespace Sysload

open Memory
open Bootmap (chars)

/-! ## File descriptors -/

/-- An open file: what is left of it, and what each call of `read` does. `none`: it fails. `some k`:
it delivers `k + 1` bytes, or less if less is asked for or left. -/
structure Fd where
  stream : List UInt8
  reads : Nat → Option Nat

/-- `read`: the call with this number asks for `count` bytes, from a position on. -/
def Fd.read (fd : Fd) (call pos count : Nat) : Option (List UInt8) :=
  (fd.reads call).map fun k => (fd.stream.drop pos).take (min count (k + 1))

/-- A call among these fails. -/
def Fd.FailsIn (fd : Fd) (first last : Nat) : Prop := ∃ i, first ≤ i ∧ i < last ∧ fd.reads i = none

/-- No call fails. -/
def Fd.Reliable (fd : Fd) : Prop := ∀ i, fd.reads i ≠ none

/-! ## The functions -/

/-- What `cfg_read` comes to: the buffer, the return value, and the number of calls of `read`. -/
structure CfgRead where
  buf : List UInt8
  ret : Int
  calls : Nat

/-- `cfg_read`, when `filled` bytes are there after so many calls. -/
def cfgRead (fd : Fd) (count : Nat) (buf : List UInt8) (filled calls : Nat) : Except Stop CfgRead :=
  match fd.read calls filled (count - filled) with
  | none => .ok ⟨buf, -1, calls + 1⟩
  | some [] => .ok ⟨buf, filled, calls + 1⟩
  | some (b :: bs) =>
    match store buf filled (b :: bs) with
    | none => .error .overrun
    | some buf =>
      if filled + (bs.length + 1) < count then
        cfgRead fd count buf (filled + (bs.length + 1)) (calls + 1)
      else .ok ⟨buf, (filled + (bs.length + 1) : Nat), calls + 1⟩
  termination_by count - filled

/-- `read_file`: the return value and the buffer. `open` fails for `none`. -/
def readFile (opened : Option Fd) (buffer : List UInt8) (bufferLen : Nat) :
    Except Stop (Int × List UInt8) :=
  match opened with
  | none => .ok (-1, buffer)
  | some fd => do
    let r ← cfgRead fd (bufferLen - 1) buffer 0 0
    if r.ret = -1 then .ok (-1, r.buf)
    else
      let readLen := r.ret.toNat
      let readLen := if readLen ≠ 0 ∧ r.buf[readLen - 1]? = some 10 then readLen - 1 else readLen
      match store r.buf readLen [0] with
      | none => .error .overrun
      | some buffer => .ok (readLen, buffer)

/-- What `echo_and_test` finds: whether the file to write to can be opened, and how many bytes `write`
takes, and the file to read, if it can be opened. -/
structure Attribute where
  written : Option Nat
  opened : Option Fd

/-- The first part of `echo_and_test`: it fails if the data is not written. -/
def echoData (attr : Attribute) (echo data : Option CStr) : Bool :=
  match echo, data with
  | some echo, some data => echo = [] ∨ data = [] ∨ attr.written = some data.length
  | _, _ => true

/-- The last part of `echo_and_test`: the number in the file. -/
def testFile (attr : Attribute) (test : Option CStr) (buffer : List UInt8) : Except Stop Int :=
  match test with
  | none | some [] => .ok 0
  | some (_ :: _) =>
    match attr.opened with
    | none => .ok (-1)
    | some fd => do
      let r ← cfgRead fd 31 buffer 0 0
      if r.ret = -1 then .ok (-1)
      else
        match store r.buf r.ret.toNat [0] with
        | none => .error .overrun
        | some buffer => .ok ((scanAnyBase (cstr (chars buffer))).getD (-1))

/-- `echo_and_test`. -/
def echoAndTest (attr : Attribute) (echo data test : Option CStr) (buffer : List UInt8) :
    Except Stop Int :=
  if echoData attr echo data then testFile attr test buffer else .ok (-1)

/-! ## One read -/

section Read

variable {fd : Fd} {call pos count : Nat}

theorem Fd.read_eq_none_iff : fd.read call pos count = none ↔ fd.reads call = none :=
  Option.map_eq_none_iff

/-- Nothing is delivered at the end of the file only. -/
theorem Fd.read_nil (h : fd.read call pos count = some []) (hcount : 0 < count) :
    fd.stream.length ≤ pos := by
  obtain ⟨k, -, hbytes⟩ := Option.map_eq_some_iff.mp h
  have hlength := congrArg List.length hbytes
  rw [List.length_take, List.length_drop, List.length_nil] at hlength
  omega

/-- What is delivered is what comes next in the file, and no more than is asked for. -/
theorem Fd.read_eq_some {bytes : List UInt8} (h : fd.read call pos count = some bytes) :
    bytes.length ≤ count ∧ pos + bytes.length ≤ max pos fd.stream.length ∧
      (fd.stream.drop pos).take bytes.length = bytes := by
  obtain ⟨k, -, rfl⟩ := Option.map_eq_some_iff.mp h
  rw [List.length_take, List.length_drop]
  refine ⟨by omega, by omega, ?_⟩
  rw [List.take_eq_take_iff, List.length_drop]
  omega

theorem Fd.not_failsIn_one (h : fd.reads call ≠ none) : ¬ fd.FailsIn call (call + 1) := by
  rintro ⟨i, hi, hi', hfail⟩
  obtain rfl := Nat.le_antisymm hi (Nat.lt_succ_iff.mp hi')
  exact h hfail

/-- A call that does not fail is not among those that do. -/
theorem Fd.failsIn_succ (h : fd.reads call ≠ none) (last : Nat) :
    fd.FailsIn call last ↔ fd.FailsIn (call + 1) last := by
  constructor
  · rintro ⟨i, hi, hi', hfail⟩
    refine ⟨i, Nat.lt_of_le_of_ne hi ?_, hi', hfail⟩
    rintro rfl
    exact h hfail
  · rintro ⟨i, hi, hi', hfail⟩
    exact ⟨i, Nat.le_of_succ_le hi, hi', hfail⟩

end Read

/-! ## A full read -/

/-- What a full read comes to: an error if one of the calls fails, or else the rest of the file, as
far as it fits. -/
def CfgRead.Full (r : CfgRead) (fd : Fd) (count : Nat) (buf : List UInt8) (filled calls : Nat) :
    Prop :=
  (fd.FailsIn calls r.calls ∧ r.ret = -1 ∧
      ∃ data, filled + data.length ≤ count ∧ r.buf = overlay buf filled data) ∨
    (¬ fd.FailsIn calls r.calls ∧ r.ret = (min count fd.stream.length : Nat) ∧
      r.buf = overlay buf filled ((fd.stream.drop filled).take (count - filled)))

/-- A piece, and a full read behind it. -/
theorem CfgRead.Full.cons {r : CfgRead} {fd : Fd} {count filled calls : Nat}
    {buf piece : List UInt8} (hroom : count ≤ buf.length) (hfit : filled + piece.length ≤ count)
    (hreads : fd.reads calls ≠ none) (hpiece : (fd.stream.drop filled).take piece.length = piece)
    (h : r.Full fd count (overlay buf filled piece) (filled + piece.length) (calls + 1)) :
    r.Full fd count buf filled calls := by
  rcases h with ⟨hfail, hret, data, hdata, hbuf⟩ | ⟨hnot, hret, hbuf⟩
  · refine .inl ⟨(Fd.failsIn_succ hreads _).mpr hfail, hret, piece ++ data, ?_, ?_⟩
    · rw [List.length_append]
      omega
    · rw [hbuf]
      exact overlay_overlay buf piece data filled (by omega)
  · refine .inr ⟨mt (Fd.failsIn_succ hreads _).mp hnot, hret, ?_⟩
    have hjoin : (fd.stream.drop filled).take (count - filled) = piece ++
        (fd.stream.drop (filled + piece.length)).take (count - (filled + piece.length)) := by
      have hsplit : count - filled = piece.length + (count - (filled + piece.length)) := by omega
      rw [hsplit, List.take_add, hpiece, List.drop_drop]
    rw [hbuf, hjoin]
    refine overlay_overlay buf piece _ filled ?_
    rw [List.length_take]
    omega

/-- **What the loop comes to**, wherever it is. -/
theorem cfgRead_cases (fd : Fd) {count filled : Nat} (calls : Nat) {buf : List UInt8}
    (hroom : count ≤ buf.length) (hcount : filled < count) (hfilled : filled ≤ fd.stream.length) :
    ∃ r, cfgRead fd count buf filled calls = .ok r ∧ r.Full fd count buf filled calls := by
  induction hrest : count - filled using Nat.strongRecOn generalizing filled calls buf with
  | _ rest ih =>
    unfold cfgRead
    cases hread : fd.read calls filled (count - filled) with
    | none =>
      have hfail := Fd.read_eq_none_iff.mp hread
      refine ⟨_, rfl, .inl ⟨⟨calls, Nat.le_refl _, Nat.lt_succ_self _, hfail⟩, rfl, [], ?_, ?_⟩⟩
      · exact Nat.le_of_lt hcount
      · exact (overlay_nil buf filled).symm
    | some bytes =>
      have hreads : fd.reads calls ≠ none := fun hfail => by
        rw [Fd.read_eq_none_iff.mpr hfail] at hread
        cases hread
      obtain ⟨hle, hon, hpiece⟩ := Fd.read_eq_some hread
      cases bytes with
      | nil =>
        have hend := Fd.read_nil hread (by omega)
        refine ⟨_, rfl, .inr ⟨Fd.not_failsIn_one hreads, ?_, ?_⟩⟩
        · exact congrArg Nat.cast (by omega : filled = _)
        · rw [List.drop_eq_nil_of_le hend, List.take_nil, overlay_nil]
      | cons b bs =>
        rw [List.length_cons] at hle hon
        have hfit : filled + (b :: bs).length ≤ count := by
          rw [List.length_cons]
          omega
        have hstore := store_eq_some (Nat.le_trans hfit hroom)
        simp only [hstore]
        by_cases hmore : filled + (bs.length + 1) < count
        · rw [if_pos hmore]
          have hroom' := overlay_length (Nat.le_trans hfit hroom)
          obtain ⟨r, hr, hfull⟩ := ih (count - (filled + (bs.length + 1))) (by omega) (calls + 1)
            (hroom'.symm ▸ hroom) hmore (by omega) rfl
          exact ⟨r, hr, hfull.cons hroom hfit hreads hpiece⟩
        · rw [if_neg hmore]
          refine ⟨_, rfl, .inr ⟨Fd.not_failsIn_one hreads, ?_, ?_⟩⟩
          · exact congrArg Nat.cast (by omega : filled + (bs.length + 1) = _)
          · have hall : count - filled = (b :: bs).length := by
              rw [List.length_cons]
              omega
            rw [hall, hpiece]

/-- `read_file` stays in a buffer of the length it is told. -/
theorem readFile_returns (opened : Option Fd) {buffer : List UInt8} {bufferLen : Nat}
    (hlen : 1 < bufferLen) (hroom : bufferLen ≤ buffer.length) :
    ∃ r, readFile opened buffer bufferLen = .ok r := by
  cases opened with
  | none => exact ⟨_, rfl⟩
  | some fd =>
    obtain ⟨⟨buf, ret, calls⟩, hr, hfull⟩ := cfgRead_cases fd 0
      (Nat.le_trans (Nat.sub_le bufferLen 1) hroom) (Nat.sub_pos_of_lt hlen) (Nat.zero_le _)
    have hread : readFile (some fd) buffer bufferLen = (cfgRead fd (bufferLen - 1) buffer 0 0 >>= _) :=
      rfl
    rw [hread, hr]
    rcases hfull with ⟨-, hret, -⟩ | ⟨-, hret, hbuf⟩
    · dsimp only at hret
      subst hret
      exact ⟨_, rfl⟩
    · dsimp only at hret hbuf
      rw [List.drop_zero, Nat.sub_zero] at hbuf
      have hfit : 0 + (fd.stream.take (bufferLen - 1)).length ≤ buffer.length := by
        rw [List.length_take]
        omega
      have hlength : buf.length = buffer.length := hbuf ▸ overlay_length hfit
      have hnonneg : ret ≠ -1 := by omega
      have hstore : ∀ n, n ≤ ret.toNat → store buf n [0] = some (overlay buf n [0]) := fun n hn =>
        store_eq_some (by rw [List.length_singleton]; omega)
      show ∃ r, (if ret = -1 then _ else _) = Except.ok r
      rw [if_neg hnonneg]
      dsimp only
      rw [hstore]
      · exact ⟨_, rfl⟩
      · split
        · exact Nat.sub_le _ _
        · exact Nat.le_refl _

/-- Without a failing call the file is read as if there was one call. -/
theorem cfgRead_reliable {fd : Fd} (h : fd.Reliable) {count : Nat} {buf : List UInt8}
    (hcount : 0 < count) (hroom : count ≤ buf.length) : ∃ calls, cfgRead fd count buf 0 0 =
      .ok ⟨overlay buf 0 (fd.stream.take count), (min count fd.stream.length : Nat), calls⟩ := by
  obtain ⟨⟨buf', ret, calls⟩, hr, ⟨⟨i, -, -, hfail⟩, -⟩ | ⟨-, hret, hbuf⟩⟩ :=
    cfgRead_cases fd 0 hroom hcount (Nat.zero_le _)
  · exact absurd hfail (h i)
  · dsimp only at hret hbuf
    rw [List.drop_zero, Nat.sub_zero] at hbuf
    exact ⟨calls, by rw [hr, hret, hbuf]⟩

section Callers

variable {fd fd' : Fd} (h : fd.Reliable) (h' : fd'.Reliable) (hstream : fd'.stream = fd.stream)
include h h' hstream

/-- `read_file` sees the content of the file only. -/
theorem readFile_eq {buffer : List UInt8} {bufferLen : Nat} (hlen : 1 < bufferLen)
    (hroom : bufferLen ≤ buffer.length) :
    readFile (some fd) buffer bufferLen = readFile (some fd') buffer bufferLen := by
  have hcount : 0 < bufferLen - 1 := Nat.sub_pos_of_lt hlen
  have hle : bufferLen - 1 ≤ buffer.length := Nat.le_trans (Nat.sub_le _ _) hroom
  obtain ⟨calls, hr⟩ := cfgRead_reliable h hcount hle
  obtain ⟨calls', hr'⟩ := cfgRead_reliable h' hcount hle
  rw [hstream] at hr'
  rw [readFile, readFile, hr, hr']
  rfl

theorem testFile_eq (written : Option Nat) (test : Option CStr) {buffer : List UInt8}
    (hroom : buffer.length = 32) :
    testFile ⟨written, some fd⟩ test buffer = testFile ⟨written, some fd'⟩ test buffer := by
  have hle : 31 ≤ buffer.length := by omega
  obtain ⟨calls, hr⟩ := cfgRead_reliable h (by decide) hle
  obtain ⟨calls', hr'⟩ := cfgRead_reliable h' (by decide) hle
  rw [hstream] at hr'
  rcases test with _ | _ | ⟨c, test⟩
  · rfl
  · rfl
  · dsimp only [testFile]
    rw [hr, hr']
    rfl

/-- So does `echo_and_test`. -/
theorem echoAndTest_eq (written : Option Nat) (echo data test : Option CStr) {buffer : List UInt8}
    (hroom : buffer.length = 32) :
    echoAndTest ⟨written, some fd⟩ echo data test buffer =
      echoAndTest ⟨written, some fd'⟩ echo data test buffer := by
  rw [echoAndTest, echoAndTest, testFile_eq h h' hstream written test hroom]
  rfl

end Callers

/-- **Full reads do not depend on the pieces**: `cfg_read` returns a negative value exactly when a
call of `read` fails, and otherwise it has stored what the file begins with, as much as is asked for;
and where no call fails its callers find the same in whatever pieces the file comes. -/
theorem cfgRead_full (fd : Fd) {count : Nat} {buf : List UInt8} (hcount : 0 < count)
    (hroom : count ≤ buf.length) :
    (∃ r, cfgRead fd count buf 0 0 = .ok r ∧
      (r.ret < 0 ↔ fd.FailsIn 0 r.calls) ∧
      (0 ≤ r.ret → r.ret = (min count fd.stream.length : Nat) ∧
        r.buf = overlay buf 0 (fd.stream.take count)) ∧
      r.buf.length = buf.length ∧ r.buf.drop count = buf.drop count) ∧
    ∀ fd' : Fd, fd.Reliable → fd'.Reliable → fd'.stream = fd.stream →
      (∀ (buffer : List UInt8) (bufferLen : Nat), 1 < bufferLen → bufferLen ≤ buffer.length →
        readFile (some fd) buffer bufferLen = readFile (some fd') buffer bufferLen) ∧
      ∀ (written : Option Nat) (echo data test : Option CStr) (buffer : List UInt8),
        buffer.length = 32 → echoAndTest ⟨written, some fd⟩ echo data test buffer =
          echoAndTest ⟨written, some fd'⟩ echo data test buffer := by
  refine ⟨?_, fun fd' h h' hstream => ⟨fun buffer bufferLen hlen hle => ?_,
    fun written echo data test buffer hlen => ?_⟩⟩
  · obtain ⟨r, hr, hfull⟩ := cfgRead_cases fd 0 hroom hcount (Nat.zero_le _)
    refine ⟨r, hr, ?_⟩
    rcases hfull with ⟨hfail, hret, data, hdata, hbuf⟩ | ⟨hnot, hret, hbuf⟩
    · rw [Nat.zero_add] at hdata
      have hfit : 0 + data.length ≤ buf.length := by omega
      refine ⟨iff_of_true (hret ▸ by decide) hfail, fun hnonneg => ?_, ?_, ?_⟩
      · rw [hret] at hnonneg
        exact absurd hnonneg (by decide)
      · rw [hbuf, overlay_length hfit]
      · rw [hbuf, overlay_drop hfit (by omega)]
    · rw [List.drop_zero, Nat.sub_zero] at hbuf
      have hfit : 0 + (fd.stream.take count).length ≤ buf.length := by
        rw [List.length_take]
        omega
      refine ⟨iff_of_false ?_ hnot, fun _ => ⟨hret, hbuf⟩, ?_, ?_⟩
      · rw [hret]
        exact Int.not_lt.mpr (Int.natCast_nonneg _)
      · rw [hbuf, overlay_length hfit]
      · rw [hbuf, overlay_drop hfit]
        rw [List.length_take]
        omega
  · exact readFile_eq h h' hstream hlen hle
  · exact echoAndTest_eq h h' hstream written echo data test hlen

/-- The file `1\n`, byte by byte. -/
def byteByByte : Fd := ⟨[49, 10], fun _ => some 0⟩

/-- The same file at once. -/
def atOnce : Fd := ⟨[49, 10], fun _ => some 1⟩

theorem cfgRead_full_byteByByte :
    (∃ r, cfgRead byteByByte 3 [0, 0, 0] 0 0 = .ok r ∧
      (r.ret < 0 ↔ byteByByte.FailsIn 0 r.calls) ∧
      (0 ≤ r.ret → r.ret = (2 : Nat) ∧ r.buf = [49, 10, 0]) ∧
      r.buf.length = 3 ∧ r.buf.drop 3 = []) ∧
    readFile (some byteByByte) [0, 0, 0] 3 = readFile (some atOnce) [0, 0, 0] 3 ∧
    echoAndTest ⟨none, some byteByByte⟩ none none (some ['f']) (malloc 32) =
      echoAndTest ⟨none, some atOnce⟩ none none (some ['f']) (malloc 32) := by
  obtain ⟨hread, hsame⟩ := @cfgRead_full byteByByte 3 [0, 0, 0] (by decide) (by decide)
  obtain ⟨hfile, hecho⟩ := hsame atOnce (fun _ => Option.some_ne_none _)
    (fun _ => Option.some_ne_none _) rfl
  exact ⟨hread, hfile [0, 0, 0] 3 (by decide) (by decide), hecho none none none (some ['f'])
    (malloc 32) rfl⟩

end Sysload
