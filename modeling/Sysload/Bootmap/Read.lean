import Sysload.Bootmap.Disk

/-!
# Reading blocks (`bootmap_common.c`)

`disk_read_phy_blocks` checks a block pointer, turns it into a byte range of the device and reads
the range into a buffer of its caller, piece by piece as `read` delivers it. The loop has no exit
for the end of the device.

Source: `src/core/bootmap_common.c`, `disk_read_phy_blocks`. Out of scope is a disk that changes
while it is read.

Results:
* `diskReadPhyBlocks_gives`: what it comes to is `readOutcome`, which needs no loop to state.
* `readOutcome_eq_none_iff`: it never ends exactly when it runs off the device.
* **`diskReadPhyBlocks_fills_iff`**: on a device without read errors, an accepted pointer is read
  in full exactly when its last block is on the device and the `int` computations do not overflow.
-/

namespace Sysload.Bootmap

open Memory
open Comp (Pass)

/-! ## The device -/

variable {size : Nat}

/-- The `n` bytes of a device from position `pos` on. -/
def Device.slice (dev : Device size) (pos n : Nat) : List UInt8 :=
  (List.range n).map fun i => dev.content (pos + i)

@[simp] theorem Device.slice_length (dev : Device size) (pos n : Nat) :
    (dev.slice pos n).length = n := by
  simp [slice]

theorem Device.slice_add (dev : Device size) (pos n m : Nat) :
    dev.slice pos (n + m) = dev.slice pos n ++ dev.slice (pos + n) m := by
  simp [slice, List.range_add, Nat.add_assoc]

/-- A part of a slice. -/
theorem Device.slice_window (dev : Device size) {pos n off len : Nat} (h : off + len ≤ n) :
    ((dev.slice pos n).drop off).take len = dev.slice (pos + off) len := by
  obtain ⟨rest, rfl⟩ : ∃ rest, n = off + len + rest := ⟨n - (off + len), by omega⟩
  rw [dev.slice_add, dev.slice_add, List.append_assoc, List.drop_left' (dev.slice_length _ _),
    List.take_left' (dev.slice_length _ _)]

/-- Looking at bytes inside a slice. -/
theorem Device.peek_slice (dev : Device size) (beyond : Nat → UInt8) {pos n off len : Nat}
    (h : off + len ≤ n) : peek beyond (dev.slice pos n) off len = dev.slice (pos + off) len := by
  unfold peek slice
  refine List.map_congr_left fun i hi => ?_
  have hlt : off + i < n := by
    have := List.mem_range.mp hi
    omega
  simp [hlt, Nat.add_assoc]

/-- The first error that `read` reports while `total` bytes from position `pos` on are read. -/
def Device.firstError (dev : Device size) (pos total : Nat) : Option String :=
  if _h : 0 < total ∧ pos < size then
    match _hr : dev.read pos total with
    | .error e => some e
    | .ok n => dev.firstError (pos + n) (total - n)
  else none
termination_by total
decreasing_by
  have := dev.read_on pos total n _h.2 _h.1 _hr
  omega

/-- What reading `total` bytes from position `pos` on comes to; `none` if it never ends. -/
def Device.outcome (dev : Device size) (pos total : Nat) : Option (Except String (List UInt8)) :=
  match dev.firstError pos total with
  | some e => some (.error e)
  | none => if total = 0 ∨ pos + total ≤ size then some (.ok (dev.slice pos total)) else none

/-- A device on which no `read` fails. -/
def Device.Reliable (dev : Device size) : Prop := ∀ pos count, ∃ n, dev.read pos count = .ok n

theorem Device.outcome_zero (dev : Device size) (pos : Nat) : dev.outcome pos 0 = some (.ok []) := by
  rw [outcome, firstError, dif_neg (by omega)]
  rfl

theorem Device.outcome_error (dev : Device size) {pos total : Nat} (ht : 0 < total)
    (hp : pos < size) {e : String} (hr : dev.read pos total = .error e) :
    dev.outcome pos total = some (.error e) := by
  rw [outcome, firstError, dif_pos ⟨ht, hp⟩]
  split
  · rename_i e' h
    split at h <;> simp_all
  · rename_i h
    split at h <;> simp_all

theorem Device.outcome_ok (dev : Device size) {pos total n : Nat} (ht : 0 < total)
    (hp : pos < size) (hr : dev.read pos total = .ok n) :
    dev.outcome pos total =
      (dev.outcome (pos + n) (total - n)).map (Except.map (dev.slice pos n ++ ·)) := by
  obtain ⟨hn, hle, hon⟩ := dev.read_on pos total n hp ht hr
  have hfirst : dev.firstError pos total = dev.firstError (pos + n) (total - n) := by
    rw [firstError, dif_pos ⟨ht, hp⟩]
    split <;> simp_all
  have hslice : dev.slice pos total = dev.slice pos n ++ dev.slice (pos + n) (total - n) := by
    rw [← dev.slice_add, Nat.add_sub_cancel' hle]
  unfold outcome
  rw [hfirst]
  cases dev.firstError (pos + n) (total - n) with
  | some e => rfl
  | none =>
    by_cases hin : pos + total ≤ size
    · rw [if_pos (Or.inr hin), if_pos (Or.inr (by omega)), hslice]
      rfl
    · rw [if_neg (by omega), if_neg (by omega)]
      rfl

theorem Device.outcome_end (dev : Device size) {pos total : Nat} (ht : 0 < total)
    (hp : size ≤ pos) : dev.outcome pos total = none := by
  rw [outcome, firstError, dif_neg (by omega)]
  exact if_neg (by omega)

/-- What is delivered is the whole range, and on the device. -/
theorem Device.outcome_eq_ok {dev : Device size} {pos total : Nat} {bs : List UInt8}
    (h : dev.outcome pos total = some (.ok bs)) :
    bs = dev.slice pos total ∧ (total = 0 ∨ pos + total ≤ size) := by
  unfold outcome at h
  split at h
  · exact absurd h (by simp)
  · split at h
    · rename_i hin
      exact ⟨(Except.ok.inj (Option.some.inj h)).symm, hin⟩
    · exact absurd h (by simp)

theorem Device.firstError_of_reliable {dev : Device size} (h : dev.Reliable) (pos total : Nat) :
    dev.firstError pos total = none := by
  induction total using Nat.strongRecOn generalizing pos with
  | _ total ih =>
    rw [firstError]
    split
    · rename_i hc
      split
      · rename_i e he
        obtain ⟨n, hn⟩ := h pos total
        exact absurd (he.symm.trans hn) (by simp)
      · rename_i n hn
        have := dev.read_on pos total n hc.2 hc.1 hn
        exact ih (total - n) (by omega) (pos + n)
    · rfl

/-- A device without read errors delivers a range on it, and nothing else. -/
theorem Device.outcome_of_reliable {dev : Device size} (h : dev.Reliable) {pos total : Nat}
    (ht : 0 < total) :
    dev.outcome pos total =
      if pos + total ≤ size then some (.ok (dev.slice pos total)) else none := by
  rw [outcome, firstError_of_reliable h]
  exact if_congr (by omega) rfl rfl

theorem Device.ofContent_reliable (size : Nat) (content : Nat → UInt8) :
    (Device.ofContent size content).Reliable := fun _ _ => ⟨_, rfl⟩

/-! ## `disk_read_phy_blocks` -/

/-- The switch of `disk_read_phy_blocks` over the disk type: the number of the first block and
the number of bytes to read. -/
def blockRange (t : Target) (disk : Disk) (blockptr : DiskBlockptr) : Except Stop (Nat × Nat) :=
  match disk.type with
  | .scsi | .fba | .diag => do
    let readTotal ← t.int (disk.phyBlockSize * (blockptr.linear.blockct + 1))
    pure (blockptr.linear.block, readTotal)
  | .eckdClassic | .eckdCompatible => do
    let number ← t.int (blockptr.chs.sec +
      disk.geo.sectors * (blockptr.chs.head + blockptr.chs.cyl * disk.geo.heads))
    let readTotal ← t.int (disk.phyBlockSize * (blockptr.chs.blockct + 1))
    pure (number - 1, readTotal)
  | .unknown => throw (.errmsg "Invalid disk type for physical block read")

/-- One pass of the read loop: `read` into the caller's buffer `mem` at `off + readCnt`. -/
def readPass (dev : Device size) (pos readTotal off : Nat) (s : List UInt8 × Nat) :
    Prog Stop (Pass (List UInt8 × Nat) (List UInt8)) :=
  let (mem, readCnt) := s
  if readCnt < readTotal then
    match dev.read (pos + readCnt) (readTotal - readCnt) with
    | .error e => throw (.errmsg ("Error reading data from disk - " ++ e))
    | .ok readLen =>
      match store mem (off + readCnt) (dev.slice (pos + readCnt) readLen) with
      | some mem' => pure (.next (mem', readCnt + readLen))
      | none => throw .overrun
  else pure (.done mem)

/-- `disk_read_phy_blocks`: the caller's buffer `mem` after the blocks were read into it from
offset `off` on. -/
def diskReadPhyBlocks (t : Target) (disk : Disk) (mem : List UInt8) (off : Nat)
    (blockptr : DiskBlockptr) : Prog Stop (List UInt8) := do
  if checkBlockptr disk blockptr = false then
    throw (.errmsg "Error reading block from disk - invalid block pointer")
  let (block, readTotal) ← blockRange t disk blockptr
  let offset := block * disk.phyBlockSize
  match disk.dev.seek offset with
  | some e => throw (.errmsg ("Error seeking physical block - " ++ e))
  | none => Prog.loop (readPass disk.dev offset readTotal off) (mem, 0)

/-! ## What it comes to -/

/-- The error of the read loop, from the error text of `read`. -/
def readError (e : String) : Stop := .errmsg ("Error reading data from disk - " ++ e)

/-- **The read loop** comes to what the device delivers, stored behind what was read before. -/
theorem readLoop_gives (dev : Device size) (pos total off : Nat) {r : Except Stop (List UInt8)} :
    ∀ {cnt : Nat} {mem : List UInt8}, cnt ≤ total → off + total ≤ mem.length →
      ((Prog.loop (readPass dev pos total off) (mem, cnt)).Gives r ↔
        ∃ o, dev.outcome (pos + cnt) (total - cnt) = some o ∧
          (o.mapError readError).map (overlay mem (off + cnt)) = r) := by
  intro cnt mem hcnt hroom
  induction hrest : total - cnt using Nat.strongRecOn generalizing cnt mem with
  | _ rest ih =>
    rcases Nat.eq_zero_or_pos rest with h0 | hpos
    · have hdone : (readPass dev pos total off (mem, cnt)).Gives (.ok (.done mem)) := by
        simp [readPass, show ¬ cnt < total by omega]
      rw [Prog.gives_loop_done hdone, h0, dev.outcome_zero]
      simp [Except.mapError, Except.map, overlay_nil]
    · have hlt : cnt < total := by omega
      rcases Nat.lt_or_ge (pos + cnt) size with hon | hend
      · cases hr : dev.read (pos + cnt) rest with
        | error e =>
          have herr : (readPass dev pos total off (mem, cnt)).Gives (.error (readError e)) := by
            simp [readPass, hlt, hrest, hr, readError]
          rw [Prog.gives_loop_error herr, dev.outcome_error hpos hon hr]
          simp [Except.mapError, Except.map]
        | ok n =>
          obtain ⟨hn, hle, _⟩ := dev.read_on _ _ _ hon hpos hr
          have hfit : off + cnt + (dev.slice (pos + cnt) n).length ≤ mem.length := by
            rw [dev.slice_length]; omega
          have hnext : (readPass dev pos total off (mem, cnt)).Gives
              (.ok (.next (overlay mem (off + cnt) (dev.slice (pos + cnt) n), cnt + n))) := by
            simp [readPass, hlt, hrest, hr, store_eq_some hfit]
          rw [Prog.gives_loop_next hnext,
            ih (rest - n) (by omega) (by omega) (by rw [overlay_length hfit]; exact hroom) (by omega),
            dev.outcome_ok hpos hon hr, ← Nat.add_assoc pos, ← Nat.add_assoc off]
          cases ho : dev.outcome (pos + cnt + n) (rest - n) with
          | none => simp
          | some o =>
            cases o with
            | error e => simp [Except.mapError, Except.map]
            | ok bs =>
              have hbs := (Device.outcome_eq_ok ho).1
              have hover := overlay_overlay mem (dev.slice (pos + cnt) n) bs (off + cnt)
                (by rw [hbs, dev.slice_length, dev.slice_length]; omega)
              rw [dev.slice_length] at hover
              simp [Except.mapError, Except.map, hover]
      · have hread : dev.read (pos + cnt) rest = .ok 0 := dev.read_end _ _ hend
        have hstuck : ¬ (Prog.loop (readPass dev pos total off) (mem, cnt)).Ends := by
          refine Prog.not_loop_ends_of_inv (fun s => s = (mem, cnt)) ?_ rfl
          rintro s p rfl hp
          refine ⟨(mem, cnt), ?_, rfl⟩
          have h0 : store mem (off + cnt) (dev.slice (pos + cnt) 0) = some mem := by
            rw [store_eq_some (by rw [dev.slice_length]; omega)]
            exact congrArg some (overlay_nil mem _)
          simp [readPass, hlt, hrest, hread, h0] at hp
          exact hp.symm
        rw [dev.outcome_end hpos hend]
        simp only [reduceCtorEq, false_and, exists_false, iff_false]
        exact fun h => hstuck ⟨r, h⟩

/-- The length in bytes of the block range of a pointer. -/
def rangeBytes (disk : Disk) (blockptr : DiskBlockptr) : Nat :=
  disk.phyBlockSize * (getBlockptrBlockct disk blockptr + 1)

theorem rangeBytes_pos (disk : Disk) (blockptr : DiskBlockptr) : 0 < rangeBytes disk blockptr :=
  Nat.mul_pos disk.phyBlockSize_pos (Nat.succ_pos _)

/-- The number of the first block of a pointer, in exact arithmetic. -/
def firstBlock (disk : Disk) (blockptr : DiskBlockptr) : Nat :=
  match disk.type with
  | .scsi | .fba | .diag | .unknown => blockptr.linear.block
  | .eckdClassic | .eckdCompatible =>
    blockptr.chs.sec + disk.geo.sectors * (blockptr.chs.head + blockptr.chs.cyl * disk.geo.heads) - 1

/-- The `int` computations of `disk_read_phy_blocks` do not overflow. -/
def RangeFits (t : Target) (disk : Disk) (blockptr : DiskBlockptr) : Prop :=
  t.fits (rangeBytes disk blockptr) = true ∧
    (disk.type = .eckdClassic ∨ disk.type = .eckdCompatible →
      t.fits (blockptr.chs.sec +
        disk.geo.sectors * (blockptr.chs.head + blockptr.chs.cyl * disk.geo.heads)) = true)

/-- The range of a pointer is computed exactly, or the computation overflows. -/
theorem blockRange_cases (t : Target) {disk : Disk} (h : disk.type.supported = true)
    (blockptr : DiskBlockptr) :
    (RangeFits t disk blockptr ∧
      blockRange t disk blockptr = .ok (firstBlock disk blockptr, rangeBytes disk blockptr)) ∨
    (¬ RangeFits t disk blockptr ∧ blockRange t disk blockptr = .error .overflow) := by
  unfold RangeFits blockRange firstBlock rangeBytes getBlockptrBlockct
  cases htype : disk.type with
  | scsi | fba =>
    by_cases hf : t.fits (disk.phyBlockSize * (blockptr.linear.blockct + 1)) = true
    · exact Or.inl ⟨⟨hf, by simp⟩, by simp [Target.int_of_fits hf]⟩
    · exact Or.inr ⟨fun h => hf h.1, by simp [Target.int_of_not_fits hf]⟩
  | eckdClassic | eckdCompatible =>
    by_cases hn : t.fits (blockptr.chs.sec +
        disk.geo.sectors * (blockptr.chs.head + blockptr.chs.cyl * disk.geo.heads)) = true
    · by_cases hf : t.fits (disk.phyBlockSize * (blockptr.chs.blockct + 1)) = true
      · exact Or.inl ⟨⟨hf, fun _ => hn⟩, by simp [Target.int_of_fits hn, Target.int_of_fits hf]; rfl⟩
      · exact Or.inr ⟨fun h => hf h.1,
          by simp [Target.int_of_fits hn, Target.int_of_not_fits hf]; rfl⟩
    · exact Or.inr ⟨fun h => hn (h.2 (by simp)), by simp [Target.int_of_not_fits hn]; rfl⟩
  | diag | unknown => simp [htype, DiskType.supported] at h

/-- What `disk_read_phy_blocks` comes to: the bytes it reads, or why it stops; `none` if it never
ends. -/
def readOutcome (t : Target) (disk : Disk) (blockptr : DiskBlockptr) :
    Option (Except Stop (List UInt8)) :=
  if checkBlockptr disk blockptr = false then
    some (.error (.errmsg "Error reading block from disk - invalid block pointer"))
  else
    match blockRange t disk blockptr with
    | .error e => some (.error e)
    | .ok (block, readTotal) =>
      match disk.dev.seek (block * disk.phyBlockSize) with
      | some e => some (.error (.errmsg ("Error seeking physical block - " ++ e)))
      | none =>
        (disk.dev.outcome (block * disk.phyBlockSize) readTotal).map (Except.mapError readError)

/-- **`disk_read_phy_blocks` comes to its outcome**, stored into the caller's buffer, whenever the
buffer has room for the whole range. -/
theorem diskReadPhyBlocks_gives (t : Target) {disk : Disk} (h : disk.type.supported = true)
    (blockptr : DiskBlockptr) {mem : List UInt8} {off : Nat}
    (hroom : off + rangeBytes disk blockptr ≤ mem.length) {r : Except Stop (List UInt8)} :
    (diskReadPhyBlocks t disk mem off blockptr).Gives r ↔
      ∃ o, readOutcome t disk blockptr = some o ∧ o.map (overlay mem off) = r := by
  unfold diskReadPhyBlocks readOutcome
  cases hc : checkBlockptr disk blockptr with
  | false => simp [Except.map]
  | true =>
    rcases blockRange_cases t h blockptr with ⟨_, hr⟩ | ⟨_, hr⟩
    · rw [hr]
      cases hs : disk.dev.seek (firstBlock disk blockptr * disk.phyBlockSize) with
      | some e => simp [hs, Except.map]
      | none =>
        have hloop := readLoop_gives disk.dev (firstBlock disk blockptr * disk.phyBlockSize)
          (rangeBytes disk blockptr) off (r := r) (Nat.zero_le _) hroom
        simp [hs, hloop]
    · rw [hr]
      simp [Except.map]

/-! ## Where the read ends -/

/-- The bytes of a range are on the device iff its last block is. -/
theorem range_le_iff (disk : Disk) (blockptr : DiskBlockptr) :
    firstBlock disk blockptr * disk.phyBlockSize + rangeBytes disk blockptr ≤
        disk.phyBlocks * disk.phyBlockSize ↔
      firstBlock disk blockptr + getBlockptrBlockct disk blockptr < disk.phyBlocks := by
  have hmul : firstBlock disk blockptr * disk.phyBlockSize + rangeBytes disk blockptr =
      (firstBlock disk blockptr + getBlockptrBlockct disk blockptr + 1) * disk.phyBlockSize := by
    unfold rangeBytes
    ring
  rw [hmul, Nat.mul_le_mul_right_iff disk.phyBlockSize_pos, Nat.succ_le_iff]

/-- The outcome of an accepted pointer whose range is computed without overflow. -/
theorem readOutcome_eq (t : Target) {disk : Disk} (h : disk.type.supported = true)
    {blockptr : DiskBlockptr} (hc : checkBlockptr disk blockptr = true)
    (hf : RangeFits t disk blockptr) :
    readOutcome t disk blockptr =
      match disk.dev.seek (firstBlock disk blockptr * disk.phyBlockSize) with
      | some e => some (.error (.errmsg ("Error seeking physical block - " ++ e)))
      | none =>
        (disk.dev.outcome (firstBlock disk blockptr * disk.phyBlockSize)
          (rangeBytes disk blockptr)).map (Except.mapError readError) := by
  rcases blockRange_cases t h blockptr with ⟨_, hr⟩ | ⟨hn, _⟩
  · rw [readOutcome, hc, hr]
    rfl
  · exact absurd hf hn

/-- A pointer whose read does not stop at once is accepted and its range computed without
overflow. -/
theorem accepted_of_readOutcome {t : Target} {disk : Disk} (h : disk.type.supported = true)
    (blockptr : DiskBlockptr) (ho : ∀ e, readOutcome t disk blockptr ≠ some (.error e)) :
    checkBlockptr disk blockptr = true ∧ RangeFits t disk blockptr := by
  cases hc : checkBlockptr disk blockptr with
  | false => exact absurd (by rw [readOutcome, if_pos hc]) (ho _)
  | true =>
    rcases blockRange_cases t h blockptr with ⟨hf, _⟩ | ⟨_, hr⟩
    · exact ⟨rfl, hf⟩
    · refine absurd ?_ (ho .overflow)
      rw [readOutcome, hc, hr]
      rfl

/-- **What is read is the range of the pointer, and lies on the device.** -/
theorem readOutcome_eq_ok {t : Target} {disk : Disk} (h : disk.type.supported = true)
    {blockptr : DiskBlockptr} {bs : List UInt8} (ho : readOutcome t disk blockptr = some (.ok bs)) :
    checkBlockptr disk blockptr = true ∧ RangeFits t disk blockptr ∧
      bs = disk.dev.slice (firstBlock disk blockptr * disk.phyBlockSize)
        (rangeBytes disk blockptr) ∧
      firstBlock disk blockptr + getBlockptrBlockct disk blockptr < disk.phyBlocks := by
  obtain ⟨hc, hf⟩ := accepted_of_readOutcome h (t := t) blockptr
    fun e he => absurd (ho.symm.trans he) (by simp)
  refine ⟨hc, hf, ?_⟩
  rw [readOutcome_eq t h hc hf] at ho
  split at ho
  · exact absurd ho (by simp)
  · obtain ⟨o, hout, hmap⟩ := Option.map_eq_some_iff.mp ho
    cases o with
    | error e => exact absurd hmap (by simp [Except.mapError])
    | ok bytes =>
      obtain rfl : bytes = bs := Except.ok.inj hmap
      obtain ⟨hbs, h0 | hin⟩ := Device.outcome_eq_ok hout
      · exact absurd h0 (rangeBytes_pos disk blockptr).ne'
      · exact ⟨hbs, (range_le_iff disk blockptr).mp hin⟩

theorem readOutcome_length {t : Target} {disk : Disk} (h : disk.type.supported = true)
    {blockptr : DiskBlockptr} {bs : List UInt8} (ho : readOutcome t disk blockptr = some (.ok bs)) :
    bs.length = rangeBytes disk blockptr := by
  rw [(readOutcome_eq_ok h ho).2.2.1, Device.slice_length]

/-- A device without read errors delivers the range of an accepted pointer that is on it. -/
theorem readOutcome_of_reliable {t : Target} {disk : Disk} (h : disk.type.supported = true)
    (hread : disk.dev.Reliable) {blockptr : DiskBlockptr}
    (hcheck : checkBlockptr disk blockptr = true) (hfits : RangeFits t disk blockptr)
    (hlast : firstBlock disk blockptr + getBlockptrBlockct disk blockptr < disk.phyBlocks) :
    readOutcome t disk blockptr =
      some (.ok (disk.dev.slice (firstBlock disk blockptr * disk.phyBlockSize)
        (rangeBytes disk blockptr))) := by
  have hon := (range_le_iff disk blockptr).mpr hlast
  have hpos := rangeBytes_pos disk blockptr
  rw [readOutcome_eq t h hcheck hfits, disk.dev.seek_on _ (by omega)]
  show Option.map _ (disk.dev.outcome _ _) = _
  rw [Device.outcome_of_reliable hread hpos, if_pos hon]
  rfl

theorem readOutcome_overflow {t : Target} {disk : Disk} (h : disk.type.supported = true)
    {blockptr : DiskBlockptr} (hc : checkBlockptr disk blockptr = true)
    (hf : ¬ RangeFits t disk blockptr) :
    readOutcome t disk blockptr = some (.error .overflow) := by
  rcases blockRange_cases t h blockptr with ⟨hfits, _⟩ | ⟨_, hr⟩
  · exact absurd hfits hf
  · simp [readOutcome, hc, hr]

/-- The read of the pointer runs off the device: the pointer is accepted, its range ends behind
the device, and neither the seek nor a `read` on the device fails. -/
def RunsOffDevice (t : Target) (disk : Disk) (blockptr : DiskBlockptr) : Prop :=
  checkBlockptr disk blockptr = true ∧ RangeFits t disk blockptr ∧
    disk.dev.seek (firstBlock disk blockptr * disk.phyBlockSize) = none ∧
    disk.dev.firstError (firstBlock disk blockptr * disk.phyBlockSize)
      (rangeBytes disk blockptr) = none ∧
    disk.phyBlocks ≤ firstBlock disk blockptr + getBlockptrBlockct disk blockptr

/-- **The read never ends** exactly when it runs off the device. -/
theorem readOutcome_eq_none_iff {t : Target} {disk : Disk} (h : disk.type.supported = true)
    {blockptr : DiskBlockptr} :
    readOutcome t disk blockptr = none ↔ RunsOffDevice t disk blockptr := by
  have hpos := rangeBytes_pos disk blockptr
  have hrange := range_le_iff disk blockptr
  constructor
  · intro hn
    obtain ⟨hc, hf⟩ := accepted_of_readOutcome h (t := t) blockptr
      fun e he => absurd (hn.symm.trans he) (by simp)
    refine ⟨hc, hf, ?_⟩
    rw [readOutcome_eq t h hc hf] at hn
    split at hn
    · exact absurd hn (by simp)
    · rename_i hseek
      rw [Option.map_eq_none_iff, Device.outcome] at hn
      split at hn
      · exact absurd hn (by simp)
      · rename_i herr
        split at hn
        · exact absurd hn (by simp)
        · rename_i hout
          exact ⟨hseek, herr, by omega⟩
  · rintro ⟨hc, hf, hseek, herr, hout⟩
    rw [readOutcome_eq t h hc hf, hseek]
    show Option.map _ (disk.dev.outcome _ _) = none
    rw [Device.outcome, herr, Option.map_eq_none_iff]
    exact if_neg (by omega)

/-- **The errors of a read**: an error message, or the overflow of a range that does not fit. -/
theorem readOutcome_eq_error {t : Target} {disk : Disk} (h : disk.type.supported = true)
    {blockptr : DiskBlockptr} {e : Stop} (ho : readOutcome t disk blockptr = some (.error e)) :
    (∃ msg, e = .errmsg msg) ∨
      e = .overflow ∧ checkBlockptr disk blockptr = true ∧ ¬ RangeFits t disk blockptr := by
  cases hc : checkBlockptr disk blockptr with
  | false =>
    rw [readOutcome, if_pos hc] at ho
    exact Or.inl ⟨_, (Except.error.inj (Option.some.inj ho)).symm⟩
  | true =>
    by_cases hf : RangeFits t disk blockptr
    · rw [readOutcome_eq t h hc hf] at ho
      split at ho
      · exact Or.inl ⟨_, (Except.error.inj (Option.some.inj ho)).symm⟩
      · obtain ⟨o, _, hmap⟩ := Option.map_eq_some_iff.mp ho
        cases o with
        | error msg => exact Or.inl ⟨_, (Except.error.inj hmap).symm⟩
        | ok bs => exact absurd hmap (by simp [Except.mapError])
    · rw [readOutcome_overflow h hc hf] at ho
      exact Or.inr ⟨(Except.error.inj (Option.some.inj ho)).symm, rfl, hf⟩

/-- The read of the pointer comes to an end: it does not run off the device, and its range can be
computed. -/
def ReadEnds (t : Target) (disk : Disk) (blockptr : DiskBlockptr) : Prop :=
  ¬ RunsOffDevice t disk blockptr ∧
    (checkBlockptr disk blockptr = true → RangeFits t disk blockptr)

theorem readOutcome_ends_iff {t : Target} {disk : Disk} (h : disk.type.supported = true)
    {blockptr : DiskBlockptr} :
    (∃ bs, readOutcome t disk blockptr = some (.ok bs)) ∨
        (∃ msg, readOutcome t disk blockptr = some (.error (.errmsg msg))) ↔
      ReadEnds t disk blockptr := by
  unfold ReadEnds
  rw [← readOutcome_eq_none_iff h]
  constructor
  · rintro (⟨bs, hr⟩ | ⟨msg, hr⟩)
    · exact ⟨by simp [hr], fun _ => (readOutcome_eq_ok h hr).2.1⟩
    · refine ⟨by simp [hr], fun hc => ?_⟩
      by_contra hf
      exact absurd (hr.symm.trans (readOutcome_overflow h hc hf)) (by simp)
  · rintro ⟨hsome, hfits⟩
    rcases hr : readOutcome t disk blockptr with _ | (e | bs)
    · exact absurd hr hsome
    · rcases readOutcome_eq_error h hr with ⟨msg, rfl⟩ | ⟨_, hc, hf⟩
      · exact Or.inr ⟨msg, rfl⟩
      · exact absurd (hfits hc) hf
    · exact Or.inl ⟨bs, rfl⟩

/-! ## Reading into the buffers of the callers -/

/-- A read into an allocation of the size of the range leaves exactly the range. -/
theorem diskReadPhyBlocks_whole (t : Target) {disk : Disk} (h : disk.type.supported = true)
    (blockptr : DiskBlockptr) {mem : List UInt8} (hmem : mem.length = rangeBytes disk blockptr) :
    (diskReadPhyBlocks t disk mem 0 blockptr).ComesTo (readOutcome t disk blockptr) := by
  intro r
  rw [diskReadPhyBlocks_gives t h blockptr (by omega)]
  have hmap : ∀ o, readOutcome t disk blockptr = some o → o.map (overlay mem 0) = o := by
    intro o ho
    cases o with
    | error e => rfl
    | ok bs =>
      have hlen := readOutcome_length h ho
      exact congrArg Except.ok (overlay_all (hmem.trans hlen.symm))
  constructor
  · rintro ⟨o, ho, rfl⟩
    rw [hmap o ho]
    exact ho
  · intro hr
    exact ⟨r, hr, hmap r hr⟩

/-- A read behind the bytes of a buffer grown by the size of the range appends the range. -/
theorem diskReadPhyBlocks_append (t : Target) {disk : Disk} (h : disk.type.supported = true)
    (blockptr : DiskBlockptr) (buffer : List UInt8) :
    (diskReadPhyBlocks t disk (realloc buffer (buffer.length + rangeBytes disk blockptr))
      buffer.length blockptr).ComesTo
        (Prog.Outcome.map (buffer ++ ·) (readOutcome t disk blockptr)) := by
  intro r
  rw [diskReadPhyBlocks_gives t h blockptr (by rw [realloc_length])]
  cases ho : readOutcome t disk blockptr with
  | none => simp [Prog.Outcome.map, Prog.Outcome.bind]
  | some o =>
    cases o with
    | error e => simp [Prog.Outcome.map, Prog.Outcome.bind, Except.map]
    | ok bs =>
      have hlen := readOutcome_length h ho
      simp [Prog.Outcome.map, Prog.Outcome.bind, Except.map, ← hlen, overlay_realloc]

/-! ## Accepted pointers and the end of the device -/

/-- **On a device without read errors, an accepted pointer is read in full**, all its blocks being
on the device, exactly when its last block is on the device and the `int` computations do not
overflow. -/
theorem diskReadPhyBlocks_fills_iff (t : Target) (disk : Disk) (blockptr : DiskBlockptr)
    (mem : List UInt8) (off : Nat) (htype : disk.type.supported = true)
    (hread : disk.dev.Reliable) (hcheck : checkBlockptr disk blockptr = true)
    (hroom : off + rangeBytes disk blockptr ≤ mem.length) :
    ((∀ i ≤ getBlockptrBlockct disk blockptr, firstBlock disk blockptr + i < disk.phyBlocks) ∧
      (diskReadPhyBlocks t disk mem off blockptr).Gives (.ok (overlay mem off
        (disk.dev.slice (firstBlock disk blockptr * disk.phyBlockSize)
          (rangeBytes disk blockptr))))) ↔
      firstBlock disk blockptr + getBlockptrBlockct disk blockptr < disk.phyBlocks ∧
        RangeFits t disk blockptr := by
  rw [diskReadPhyBlocks_gives t htype blockptr hroom]
  constructor
  · rintro ⟨hon, o, ho, hmap⟩
    refine ⟨hon _ (Nat.le_refl _), ?_⟩
    cases o with
    | error e => exact absurd hmap (by simp [Except.map])
    | ok bs => exact (readOutcome_eq_ok htype ho).2.1
  · rintro ⟨hlast, hfits⟩
    exact ⟨fun i hi => by omega, .ok _,
      readOutcome_of_reliable htype hread hcheck hfits hlast, rfl⟩

/-- A SCSI disk of one block. -/
def oneBlockDisk : Disk :=
  .image .scsi 512 1 ⟨0, 0, 0⟩ .zero (fun _ => 0) blockSize512_pos

theorem diskReadPhyBlocks_fills_iff_oneBlockDisk :
    ((∀ i ≤ 0, 0 + i < oneBlockDisk.phyBlocks) ∧
      (diskReadPhyBlocks s390x oneBlockDisk (malloc 512) 0 ⟨⟨0, 0, 0, 0, 0⟩, ⟨0, 512, 0⟩⟩).Gives
        (.ok (overlay (malloc 512) 0 (oneBlockDisk.dev.slice 0 512)))) ↔
      0 + 0 < oneBlockDisk.phyBlocks ∧
        RangeFits s390x oneBlockDisk ⟨⟨0, 0, 0, 0, 0⟩, ⟨0, 512, 0⟩⟩ :=
  diskReadPhyBlocks_fills_iff s390x oneBlockDisk ⟨⟨0, 0, 0, 0, 0⟩, ⟨0, 512, 0⟩⟩ (malloc 512) 0 rfl
    (Device.ofContent_reliable _ _) rfl (by rw [malloc_length]; decide)

/-- A pointer to two blocks is accepted on the disk of one block, and reading it never ends. -/
theorem oneBlockDisk_read_never_ends :
    checkBlockptr oneBlockDisk ⟨⟨0, 0, 0, 0, 0⟩, ⟨0, 512, 1⟩⟩ = true ∧
      ¬ (diskReadPhyBlocks s390x oneBlockDisk (malloc 1024) 0
        ⟨⟨0, 0, 0, 0, 0⟩, ⟨0, 512, 1⟩⟩).Ends := by
  refine ⟨rfl, ?_⟩
  rintro ⟨r, hr⟩
  have hstall : readOutcome s390x oneBlockDisk ⟨⟨0, 0, 0, 0, 0⟩, ⟨0, 512, 1⟩⟩ = none :=
    (readOutcome_eq_none_iff rfl).mpr ⟨rfl, ⟨rfl, by decide⟩, rfl,
      Device.firstError_of_reliable (Device.ofContent_reliable _ _) _ _, by decide⟩
  have hmem : (malloc 1024).length =
      rangeBytes oneBlockDisk ⟨⟨0, 0, 0, 0, 0⟩, ⟨0, 512, 1⟩⟩ := malloc_length 1024
  rw [diskReadPhyBlocks_whole s390x rfl _ hmem r, hstall] at hr
  exact absurd hr (by simp)

end Sysload.Bootmap
