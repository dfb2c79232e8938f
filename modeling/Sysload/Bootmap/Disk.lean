import Sysload.Machine

/-!
# Disks, block pointers and the null test (`bootmap.h`, `bootmap_common.c`)

The data model of the boot map loader and the functions that need no I/O:
`get_blockptr_blockct`, `get_blockptr_size`, `blockptr_is_null`, `read_packed_blockptr`,
`check_blockptr`.

* `disk_blockptr_t` is a union; `DiskBlockptr` holds its two views side by side. Each disk type
  uses one of them throughout, and `memset(ptr, 0, ...)` clears both.
* The `int` members of a block pointer are only ever written from unsigned on-disk fields, from
  zero or from a block size, so they are natural numbers here and the tests `< 0` of
  `check_blockptr` have nothing to reject.
* A `Device` is what `lseek` and `read` do with the file descriptor of the disk.

Source: `src/core/bootmap.h` and `src/core/bootmap_common.c`. Out of scope are `print_blockptr`,
which is debug output, and `disk_close`.

Results: `blockptrIsNull_iff` says what the null test really looks at, for every disk type;
**`blockptr_null_exact_iff`** says for which packed pointers this is the whole pointer.
-/

namespace Sysload.Bootmap

open Memory

/-! ## Block pointers and disks -/

/-- `disk_type_t`. -/
inductive DiskType where
  | scsi
  | fba
  | diag
  | eckdClassic
  | eckdCompatible
  | unknown
  deriving DecidableEq, Repr

/-- The disk types that have a block pointer format; `disk_open` refuses the others. -/
def DiskType.supported : DiskType → Bool
  | scsi | fba | eckdClassic | eckdCompatible => true
  | diag | unknown => false

/-- `struct hd_geometry`; `start` is never read. -/
structure HdGeometry where
  heads : Nat
  sectors : Nat
  cylinders : Nat
  deriving DecidableEq, Repr

/-- `struct disk_blockptr_chs`. -/
structure BlockptrChs where
  cyl : Nat
  head : Nat
  sec : Nat
  size : Nat
  blockct : Nat
  deriving DecidableEq, Repr

/-- `struct disk_blockptr_linear`. -/
structure BlockptrLinear where
  block : Nat
  size : Nat
  blockct : Nat
  deriving DecidableEq, Repr

/-- `disk_blockptr_t`: both views of the union. -/
structure DiskBlockptr where
  chs : BlockptrChs
  linear : BlockptrLinear
  deriving DecidableEq, Repr

/-- `memset(ptr, 0x0, sizeof (*ptr))`. -/
def DiskBlockptr.zero : DiskBlockptr := ⟨⟨0, 0, 0, 0, 0⟩, ⟨0, 0, 0⟩⟩

/-- A block device of `size` bytes behind a file descriptor. `read pos count` is what `read`
does at position `pos`: fail with an error text, or deliver a number of bytes, which is positive
on the device and zero at its end. -/
structure Device (size : Nat) where
  content : Nat → UInt8
  seek : Nat → Option String
  read : Nat → Nat → Except String Nat
  seek_on : ∀ pos, pos < size → seek pos = none
  read_on : ∀ pos count n, pos < size → 0 < count → read pos count = .ok n →
    0 < n ∧ n ≤ count ∧ pos + n ≤ size
  read_end : ∀ pos count, size ≤ pos → read pos count = .ok 0

/-- The device that delivers whatever is asked for, as far as it goes. -/
def Device.ofContent (size : Nat) (content : Nat → UInt8) : Device size where
  content := content
  seek _ := none
  read pos count := .ok (min count (size - pos))
  seek_on _ _ := rfl
  read_on pos count n hp hc h := by
    obtain rfl := Except.ok.inj h
    omega
  read_end pos count h := by
    rw [Nat.sub_eq_zero_of_le h, Nat.min_zero]

/-- `struct disk`, with the device its file descriptor refers to. -/
structure Disk where
  type : DiskType
  phyBlockSize : Nat
  phyBlocks : Nat
  geo : HdGeometry
  programTablePtr : DiskBlockptr
  dev : Device (phyBlocks * phyBlockSize)
  phyBlockSize_pos : 0 < phyBlockSize

/-- The disk with the given content and no I/O errors. -/
def Disk.image (type : DiskType) (phyBlockSize phyBlocks : Nat) (geo : HdGeometry)
    (programTablePtr : DiskBlockptr) (content : Nat → UInt8) (h : 0 < phyBlockSize) : Disk :=
  ⟨type, phyBlockSize, phyBlocks, geo, programTablePtr, Device.ofContent _ content, h⟩

theorem blockSize512_pos : 0 < 512 := by decide

theorem blockSize4096_pos : 0 < 4096 := by decide

/-! ## Block pointer functions -/

/-- `get_blockptr_blockct`. -/
def getBlockptrBlockct (disk : Disk) (ptr : DiskBlockptr) : Nat :=
  match disk.type with
  | .scsi | .fba => ptr.linear.blockct
  | .eckdClassic | .eckdCompatible => ptr.chs.blockct
  | .diag | .unknown => 0

/-- `get_blockptr_size`: the sizes of the packed structures `scsi_blockptr`, `fba_blockptr` and
`eckd_blockptr`. -/
def getBlockptrSize (disk : Disk) : Nat :=
  match disk.type with
  | .scsi => packedSize [(8, 8), (2, 2), (2, 2), (4, 1)]
  | .fba => packedSize [(4, 4), (2, 2), (2, 2)]
  | .eckdClassic | .eckdCompatible => packedSize [(2, 2), (2, 2), (1, 1), (2, 2), (1, 1)]
  | .diag | .unknown => 0

/-- The bytes of the union as the view of the disk type stores them: an 8-byte block number and
4-byte `int`s without gaps. -/
def DiskBlockptr.bytes (t : Target) (type : DiskType) (ptr : DiskBlockptr) : List UInt8 :=
  match type with
  | .scsi | .fba =>
    t.order.encode 8 ptr.linear.block ++ t.order.encode 4 ptr.linear.size ++
      t.order.encode 4 ptr.linear.blockct
  | .eckdClassic | .eckdCompatible =>
    t.order.encode 4 ptr.chs.cyl ++ t.order.encode 4 ptr.chs.head ++
      t.order.encode 4 ptr.chs.sec ++ t.order.encode 4 ptr.chs.size ++
      t.order.encode 4 ptr.chs.blockct
  | .diag | .unknown => []

/-- `blockptr_is_null`: `true` for the return value `-1`. The loop runs over the first
`get_blockptr_size` bytes of the union, the size of the packed on-disk record. -/
def blockptrIsNull (t : Target) (disk : Disk) (blockptr : DiskBlockptr) : Bool :=
  ((blockptr.bytes t disk.type).take (getBlockptrSize disk)).all fun b => b == 0

/-- The `len` bytes of a packed record from offset `off` on, as an unsigned integer. -/
def packedField (t : Target) (buffer : List UInt8) (off len : Nat) : Nat :=
  t.order.decode ((buffer.drop off).take len)

/-- `read_packed_blockptr`. -/
def readPackedBlockptr (t : Target) (disk : Disk) (buffer : List UInt8) : DiskBlockptr :=
  match disk.type with
  | .scsi =>
    { DiskBlockptr.zero with linear :=
      { block := packedField t buffer 0 8
        size := packedField t buffer 8 2
        blockct := packedField t buffer 10 2 } }
  | .eckdClassic | .eckdCompatible =>
    { DiskBlockptr.zero with chs :=
      { cyl := packedField t buffer 0 2
        head := packedField t buffer 2 2
        sec := packedField t buffer 4 1
        size := packedField t buffer 5 2
        blockct := packedField t buffer 7 1 } }
  | .fba =>
    { DiskBlockptr.zero with linear :=
      { block := packedField t buffer 0 4
        size := packedField t buffer 4 2
        blockct := packedField t buffer 6 2 } }
  | .diag | .unknown => DiskBlockptr.zero

/-- `check_blockptr`: `true` for the return value `0`. Only the first block is looked at. -/
def checkBlockptr (disk : Disk) (blockptr : DiskBlockptr) : Bool :=
  match disk.type with
  | .scsi | .fba =>
    !(blockptr.linear.size != disk.phyBlockSize || decide (disk.phyBlocks ≤ blockptr.linear.block))
  | .eckdClassic | .eckdCompatible =>
    !(blockptr.chs.size != disk.phyBlockSize ||
      decide (disk.geo.cylinders ≤ blockptr.chs.cyl) ||
      decide (disk.geo.heads ≤ blockptr.chs.head) ||
      decide (blockptr.chs.sec < 1) || decide (disk.geo.sectors < blockptr.chs.sec))
  | .diag | .unknown => true

/-! ## Small facts -/

theorem packedField_lt (t : Target) (buffer : List UInt8) (off len : Nat) :
    packedField t buffer off len < 256 ^ len :=
  lt_of_lt_of_le (t.order.decode_lt _)
    (Nat.pow_le_pow_right (by decide) (List.length_take_le len _))

theorem getBlockptrSize_pos {disk : Disk} (h : disk.type.supported = true) :
    0 < getBlockptrSize disk := by
  unfold getBlockptrSize
  cases htype : disk.type <;> simp_all [DiskType.supported, packedSize]

/-- **An accepted pointer of a linear disk** has the block size of the disk and its first block on
the disk. -/
theorem checkBlockptr_linear {disk : Disk} (h : disk.type = .scsi ∨ disk.type = .fba)
    (ptr : DiskBlockptr) : checkBlockptr disk ptr = true ↔
      ptr.linear.size = disk.phyBlockSize ∧ ptr.linear.block < disk.phyBlocks := by
  unfold checkBlockptr
  rcases h with h | h <;> rw [h] <;> simp

/-- **An accepted pointer of an ECKD disk** has the block size of the disk and lies inside its
geometry. -/
theorem checkBlockptr_eckd {disk : Disk}
    (h : disk.type = .eckdClassic ∨ disk.type = .eckdCompatible) (ptr : DiskBlockptr) :
    checkBlockptr disk ptr = true ↔
      ptr.chs.size = disk.phyBlockSize ∧ ptr.chs.cyl < disk.geo.cylinders ∧
      ptr.chs.head < disk.geo.heads ∧ 1 ≤ ptr.chs.sec ∧ ptr.chs.sec ≤ disk.geo.sectors := by
  unfold checkBlockptr
  rcases h with h | h <;> rw [h] <;> simp <;> omega

/-- The zero pointer is rejected on every supported disk. -/
theorem checkBlockptr_zero {disk : Disk} (h : disk.type.supported = true) :
    checkBlockptr disk .zero = false := by
  have hpos := disk.phyBlockSize_pos
  unfold checkBlockptr
  cases htype : disk.type <;>
    simp_all [DiskType.supported, DiskBlockptr.zero] <;> omega

/-! ## The null test -/

/-- Every member of the view that a disk type uses is zero. -/
def DiskBlockptr.FieldsZero (type : DiskType) (ptr : DiskBlockptr) : Prop :=
  match type with
  | .scsi | .fba => ptr.linear = ⟨0, 0, 0⟩
  | .eckdClassic | .eckdCompatible => ptr.chs = ⟨0, 0, 0, 0, 0⟩
  | .diag | .unknown => True

instance (type : DiskType) (ptr : DiskBlockptr) : Decidable (ptr.FieldsZero type) :=
  match type with
  | .scsi | .fba => inferInstanceAs (Decidable (ptr.linear = ⟨0, 0, 0⟩))
  | .eckdClassic | .eckdCompatible => inferInstanceAs (Decidable (ptr.chs = ⟨0, 0, 0, 0, 0⟩))
  | .diag | .unknown => inferInstanceAs (Decidable True)

/-- A list of bytes is all zero iff each of two parts is. -/
theorem all_zero_append (xs ys : List UInt8) :
    (xs ++ ys).all (fun b => b == 0) = (xs.all (fun b => b == 0) && ys.all (fun b => b == 0)) :=
  List.all_append

theorem encode_all_zero (t : Target) {n x : Nat} (h : x < 256 ^ n) :
    ((t.order.encode n x).all fun b => b == 0) = decide (x = 0) := by
  have h0 := t.order.encode_eq_zero_iff h
  rw [Bool.eq_iff_iff, List.all_eq_true, decide_eq_true_iff, ← h0]
  simp

/-- What `blockptr_is_null` tests: the whole pointer on SCSI disks, the block number alone on FBA
disks, cylinder and head alone on ECKD disks. -/
def nullTest (type : DiskType) (ptr : DiskBlockptr) : Prop :=
  match type with
  | .scsi => ptr.linear = ⟨0, 0, 0⟩
  | .fba => ptr.linear.block = 0
  | .eckdClassic | .eckdCompatible => ptr.chs.cyl = 0 ∧ ptr.chs.head = 0
  | .diag | .unknown => True

/-- **What the null test looks at**, for every packed pointer: the record size of the packed
form covers the unpacked form on SCSI disks only. -/
theorem blockptrIsNull_iff (t : Target) (disk : Disk) (b : List UInt8) :
    blockptrIsNull t disk (readPackedBlockptr t disk b) = true ↔
      nullTest disk.type (readPackedBlockptr t disk b) := by
  have hf : ∀ off len m, len ≤ m → packedField t b off len < 256 ^ m := fun off len m hm =>
    lt_of_lt_of_le (packedField_lt t b off len) (Nat.pow_le_pow_right (by decide) hm)
  have hlen := t.order.encode_length
  unfold blockptrIsNull readPackedBlockptr getBlockptrSize DiskBlockptr.bytes nullTest
  cases disk.type with
  | scsi =>
    simp only [packedSize, List.map_cons, List.map_nil, List.sum_cons, List.sum_nil]
    rw [List.take_of_length_le (by simp [hlen]), all_zero_append, all_zero_append,
      encode_all_zero t (hf 0 8 8 (by decide)), encode_all_zero t (hf 8 2 4 (by decide)),
      encode_all_zero t (hf 10 2 4 (by decide))]
    simp [and_assoc]
  | fba =>
    simp only [packedSize, List.map_cons, List.map_nil, List.sum_cons, List.sum_nil]
    rw [List.append_assoc, List.take_left' (by simp [hlen]),
      encode_all_zero t (hf 0 4 8 (by decide))]
    simp
  | eckdClassic | eckdCompatible =>
    simp only [packedSize, List.map_cons, List.map_nil, List.sum_cons, List.sum_nil]
    rw [List.append_assoc, List.append_assoc, List.take_left' (by simp [hlen]), all_zero_append,
      encode_all_zero t (hf 0 2 4 (by decide)), encode_all_zero t (hf 2 2 4 (by decide))]
    simp
  | diag | unknown => simp

/-- The pointers the null test decides rightly: not an FBA pointer to block 0, nor an ECKD pointer
into cylinder 0, head 0, in which another member is set. -/
def NullDecided (type : DiskType) (ptr : DiskBlockptr) : Prop :=
  match type with
  | .fba => ptr.linear.block = 0 → ptr.linear.size = 0 ∧ ptr.linear.blockct = 0
  | .eckdClassic | .eckdCompatible =>
    ptr.chs.cyl = 0 → ptr.chs.head = 0 →
      ptr.chs.sec = 0 ∧ ptr.chs.size = 0 ∧ ptr.chs.blockct = 0
  | .scsi | .diag | .unknown => True

/-- A pointer whose members are all zero is not accepted. -/
theorem checkBlockptr_of_fieldsZero {disk : Disk} (h : disk.type.supported = true)
    {ptr : DiskBlockptr} (hz : ptr.FieldsZero disk.type) : checkBlockptr disk ptr = false := by
  have hpos := disk.phyBlockSize_pos
  unfold checkBlockptr
  unfold DiskBlockptr.FieldsZero at hz
  cases htype : disk.type <;> simp_all [DiskType.supported] <;> omega

/-- **The null test is exact, and takes no accepted pointer for null, exactly on the pointers it
decides rightly.** -/
theorem blockptr_null_exact_iff (t : Target) (disk : Disk) (b : List UInt8)
    (h : disk.type.supported = true) :
    ((blockptrIsNull t disk (readPackedBlockptr t disk b) = true ↔
        (readPackedBlockptr t disk b).FieldsZero disk.type) ∧
      (checkBlockptr disk (readPackedBlockptr t disk b) = true →
        blockptrIsNull t disk (readPackedBlockptr t disk b) = false)) ↔
      NullDecided disk.type (readPackedBlockptr t disk b) := by
  have hnull := blockptrIsNull_iff t disk b
  generalize hp : readPackedBlockptr t disk b = p at hnull
  have hexact : (nullTest disk.type p ↔ p.FieldsZero disk.type) ↔ NullDecided disk.type p := by
    obtain ⟨⟨cyl, head, sec, csize, cct⟩, ⟨block, size, ct⟩⟩ := p
    unfold nullTest DiskBlockptr.FieldsZero NullDecided
    cases disk.type <;> simp
  rw [hnull]
  constructor
  · rintro ⟨hiff, _⟩
    exact hexact.mp hiff
  · intro hd
    have hiff := hexact.mpr hd
    refine ⟨hiff, fun hc => ?_⟩
    cases hn : blockptrIsNull t disk p with
    | false => rfl
    | true =>
      rw [checkBlockptr_of_fieldsZero h (hiff.mp (hnull.mp hn))] at hc
      exact absurd hc (by simp)

/-- An ECKD volume of 100 cylinders with 15 heads and 12 blocks per track. -/
def eckdVolume : Disk :=
  .image .eckdClassic 4096 18000 ⟨15, 12, 100⟩ .zero (fun _ => 0) blockSize4096_pos

/-- The packed pointer to the third block of cylinder 1. -/
def cylinderOne : List UInt8 := [0, 1, 0, 0, 3, 0x10, 0, 0]

theorem blockptr_null_exact_iff_eckdVolume :
    checkBlockptr eckdVolume (readPackedBlockptr s390x eckdVolume cylinderOne) = true ∧
      blockptrIsNull s390x eckdVolume (readPackedBlockptr s390x eckdVolume cylinderOne) = false ∧
      ¬ (readPackedBlockptr s390x eckdVolume cylinderOne).FieldsZero eckdVolume.type := by
  have hdecided : NullDecided eckdVolume.type (readPackedBlockptr s390x eckdVolume cylinderOne) :=
    fun hcyl => absurd hcyl (by decide)
  have hcheck : checkBlockptr eckdVolume (readPackedBlockptr s390x eckdVolume cylinderOne) = true := by
    decide
  obtain ⟨hiff, hnull⟩ := (blockptr_null_exact_iff s390x eckdVolume cylinderOne rfl).mpr hdecided
  refine ⟨hcheck, hnull hcheck, fun hzero => ?_⟩
  rw [hnull hcheck] at hiff
  exact absurd (hiff.mpr hzero) Bool.false_ne_true

/-- The third block of an ECKD volume (cylinder 0, head 0, sector 3) can be read, and is taken for
a null pointer. -/
theorem eckd_third_block_taken_for_null :
    checkBlockptr eckdVolume
        (readPackedBlockptr s390x eckdVolume [0, 0, 0, 0, 3, 0x10, 0, 0]) = true ∧
      blockptrIsNull s390x eckdVolume
        (readPackedBlockptr s390x eckdVolume [0, 0, 0, 0, 3, 0x10, 0, 0]) = true ∧
      ¬ (readPackedBlockptr s390x eckdVolume [0, 0, 0, 0, 3, 0x10, 0, 0]).FieldsZero
        eckdVolume.type := by decide

end Sysload.Bootmap
