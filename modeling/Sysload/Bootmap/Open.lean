import Sysload.Bootmap.Tables
import Sysload.Config

/-!
# Opening a disk (`bootmap_common.c`, `bootmap_dasd.c`, `bootmap_fcp.c`)

`disk_open()` asks the device for its geometry and its size and reads the boot record, which has the
pointer to the program table.

`diskOpen_ok` says what the other functions rely on: an open disk has a type with a format for block
pointers, blocks of 512 bytes at least, and a program table pointer that is accepted and has one
block.

Source: `src/core/bootmap_common.c`, `disk_open`; `src/core/bootmap_dasd.c`,
`disk_read_dasd_boot_record`; `src/core/bootmap_fcp.c`, `disk_read_scsi_mbr`. Out of scope are
`disk_close` and the name of the device.
-/

namespace Sysload.Bootmap

open Memory

/-- What the `ioctl`s on an open device file deliver, and the device, which has the size that they
tell. `dasdInfo` is the type and the layout of a DASD. -/
structure DiskFile where
  geo : Except String HdGeometry
  dasdInfo : Option (CStr × Nat)
  blockSize : Except String Nat
  devSize : Except String Nat
  dev : (size : Nat) → Device size

/-- The type of a disk, from the answer to `BIODASDINFO`. -/
def diskType : Option (CStr × Nat) → DiskType
  | none => .scsi
  | some (type, fbaLayout) =>
    if type.take 4 = "FBA ".toList then .fba
    else if type.take 4 = "DIAG".toList then .diag
    else if type.take 4 = "ECKD".toList then
      if fbaLayout ≠ 0 then .eckdClassic else .eckdCompatible
    else .unknown

variable (t : Target)

/-- `disk_read_scsi_mbr`: the program table pointer in the boot record. -/
def diskReadScsiMbr (disk : Disk) : Prog Stop DiskBlockptr := do
  let bootrecord ← diskReadPhyBlocks t disk (malloc disk.phyBlockSize) 0
    { DiskBlockptr.zero with linear := ⟨0, disk.phyBlockSize, 0⟩ }
  if bootrecord[510]? ≠ some 0x55 ∨ bootrecord[511]? ≠ some 0xaa then
    throw (.errmsg "Unsupported SCSI disk layout.")
  if bootrecord.take 4 ≠ magic then
    throw (.errmsg "Missing boot signature on SCSI disk.")
  pure (readPackedBlockptr t disk (bootrecord.drop 16))

/-- `disk_read_dasd_boot_record`. -/
def diskReadDasdBootRecord (disk : Disk) : Prog Stop DiskBlockptr := do
  let bootrecord ← diskReadPhyBlocks t disk (malloc disk.phyBlockSize) 0
    { DiskBlockptr.zero with chs := ⟨0, 0, 2, disk.phyBlockSize, 0⟩ }
  pure (readPackedBlockptr t disk (bootrecord.drop 4))

/-- The boot record of a disk. -/
def diskReadBootRecord (disk : Disk) : Prog Stop DiskBlockptr :=
  match disk.type with
  | .scsi | .fba => diskReadScsiMbr t disk
  | .eckdClassic | .eckdCompatible => diskReadDasdBootRecord t disk
  | .diag | .unknown => throw (.errmsg "Unsupported disk type.")

/-- The last part of `disk_open`: the boot record. -/
def diskOpenBootRecord (disk : Disk) : Prog Stop Disk := do
  let ptr ← diskReadBootRecord t disk
  let disk := { disk with programTablePtr := ptr }
  if checkBlockptr disk ptr = false then
    throw (.errmsg "Error - invalid program table pointer in boot record")
  if getBlockptrBlockct disk ptr ≠ 0 then
    throw (.errmsg "Error - invalid program table pointer in boot record")
  pure disk

/-- `disk_open`; a block size below 512 makes it divide by zero. -/
def diskOpen (file : Except String DiskFile) : Prog Stop Disk := do
  match file with
  | .error e => throw (.errmsg ("Error opening disk - " ++ e))
  | .ok file =>
    match file.geo with
    | .error e => throw (.errmsg ("Error getting disk geometry - " ++ e))
    | .ok geo =>
      match file.blockSize with
      | .error e => throw (.errmsg ("Error getting blocksize - " ++ e))
      | .ok phyBlockSize =>
        match file.devSize with
        | .error e => throw (.errmsg ("Error getting device size - " ++ e))
        | .ok devsize =>
          if h : 512 ≤ phyBlockSize then
            diskOpenBootRecord t
              { type := diskType file.dasdInfo
                phyBlockSize := phyBlockSize
                phyBlocks := devsize / (phyBlockSize / 512)
                geo := geo
                programTablePtr := .zero
                dev := file.dev _
                phyBlockSize_pos := Nat.lt_of_lt_of_le (by decide) h }
          else throw .overflow

variable {t}

theorem diskReadBootRecord_supported {disk : Disk} {ptr : DiskBlockptr}
    (h : (diskReadBootRecord t disk).Gives (.ok ptr)) : disk.type.supported = true := by
  unfold diskReadBootRecord at h
  cases htype : disk.type with
  | diag | unknown =>
    rw [htype] at h
    exact absurd (Prog.gives_throw.mp h) (by simp)
  | _ => rfl

theorem diskOpenBootRecord_ok {disk disk' : Disk}
    (h : (diskOpenBootRecord t disk).Gives (.ok disk')) : disk'.type.supported = true ∧
      disk'.phyBlockSize = disk.phyBlockSize ∧
      checkBlockptr disk' disk'.programTablePtr = true ∧
      getBlockptrBlockct disk' disk'.programTablePtr = 0 := by
  obtain ⟨ptr, hptr, hrest⟩ := Prog.gives_bind_eq_ok.mp h
  have hsupported := diskReadBootRecord_supported hptr
  dsimp only at hrest
  by_cases hcheck : checkBlockptr { disk with programTablePtr := ptr } ptr = false
  · rw [if_pos hcheck] at hrest
    exact absurd (Prog.gives_throw.mp hrest) (by simp)
  rw [if_neg hcheck] at hrest
  by_cases hblockct : getBlockptrBlockct { disk with programTablePtr := ptr } ptr ≠ 0
  · rw [if_pos hblockct] at hrest
    exact absurd (Prog.gives_throw.mp hrest) (by simp)
  rw [if_neg hblockct] at hrest
  obtain rfl := Except.ok.inj (Prog.gives_pure.mp hrest)
  exact ⟨hsupported, rfl, Bool.eq_true_of_not_eq_false hcheck, not_not.mp hblockct⟩

/-- **What holds of an open disk.** -/
theorem diskOpen_ok {file : Except String DiskFile} {disk : Disk}
    (h : (diskOpen t file).Gives (.ok disk)) : disk.type.supported = true ∧
      512 ≤ disk.phyBlockSize ∧ checkBlockptr disk disk.programTablePtr = true ∧
      getBlockptrBlockct disk disk.programTablePtr = 0 := by
  unfold diskOpen at h
  repeat' split at h
  all_goals try exact absurd (Prog.gives_throw.mp h) (by simp)
  rename_i h512
  obtain ⟨hsupported, hsize, hcheck, hblockct⟩ := diskOpenBootRecord_ok h
  exact ⟨hsupported, hsize ▸ h512, hcheck, hblockct⟩

end Sysload.Bootmap
