import Sysload.Bootmap.Read

/-!
# Program table and component table (`bootmap_common.c`)

`get_program_table` and `get_component_table` read one block, check its magic number and decode
the records in it. Three record sizes meet in the component table: the number of entries is
computed from the size of a packed block pointer, the entries themselves are 32 bytes long, and the
table is allocated for as many `disk_blockptr_t`s as there are entries.

The decoding of the component table is modelled with the accesses it makes (`Access`), in bounds or
not; a read behind the end of the block delivers what lies there in memory (`beyond`).

Source: `src/core/bootmap_common.c`, `get_program_table` and `get_component_table` with the sizes of
their tables. Out of scope is what an access outside of an allocation does to the program.

Results:
* `componentTable_reads_escape`, `componentTable_writes_escape`: a table that is decoded is read
  behind the end of its block, and written behind the end of its allocation.
* **`getComponentTable_inBounds_iff`**: the accesses are in bounds exactly when the table is
  rejected before it is decoded.
-/

namespace Sysload.Bootmap

open Memory

/-! ## Sizes -/

/-- `sizeof (disk_blockptr_t)`. -/
def sizeofDiskBlockptr (t : Target) : Nat :=
  unionSize [(structSize [(4, 4), (4, 4), (4, 4), (4, 4), (4, 4)], 4),
    (structSize [(8, t.abi.align64), (4, 4), (4, 4)], t.abi.align64)]

/-- `sizeof (struct component)`. -/
def sizeofComponent (t : Target) : Nat :=
  structSize [(sizeofDiskBlockptr t, t.abi.align64), (4, 4), (8, t.abi.align64)]

/-- `sizeof (struct component_entry)`: 23 bytes of data, the type, the address. -/
def sizeofComponentEntry : Nat := packedSize [(23, 1), (1, 1), (8, 8)]

/-- `get_program_table_size`. -/
def getProgramTableSize (disk : Disk) : Nat := 512 / getBlockptrSize disk - 1

/-- `get_component_table_size`. -/
def getComponentTableSize (disk : Disk) : Nat := disk.phyBlockSize / getBlockptrSize disk - 1

/-! ## Tables -/

/-- `MAGIC`: the bytes of `zIPL`. -/
def magic : List UInt8 := [0x7a, 0x49, 0x50, 0x4c]

/-- `component_execute`. -/
def componentExecute : Nat := 0x01

/-- `struct component`. -/
structure Component where
  segmentPtr : DiskBlockptr
  type : Nat
  address : Nat
  deriving DecidableEq, Repr

/-- An access to `len` bytes at offset `off` of an allocation of `size` bytes. -/
structure Access where
  off : Nat
  len : Nat
  size : Nat
  deriving DecidableEq, Repr

/-- The access lies inside its allocation. -/
def Access.inBounds (a : Access) : Bool := a.off + a.len ≤ a.size

/-- The result of `get_component_table`, with the accesses the decoding loop made: to the entries
in the block, and to the elements of the table it fills. -/
structure ComponentTable where
  components : List Component
  opt : Nat
  reads : List Access
  writes : List Access

/-- The program table in a block. -/
def decodeProgramTable (t : Target) (beyond : Nat → UInt8) (disk : Disk) (buffer : List UInt8) :
    List DiskBlockptr :=
  (List.range (getProgramTableSize disk)).map fun n =>
    readPackedBlockptr t disk
      (peek beyond buffer ((n + 1) * getBlockptrSize disk) (getBlockptrSize disk))

/-- `get_program_table`. -/
def getProgramTable (t : Target) (beyond : Nat → UInt8) (disk : Disk) :
    Prog Stop (List DiskBlockptr) := do
  if getBlockptrBlockct disk disk.programTablePtr ≠ 0 then
    throw (.errmsg "Error - invalid program table pointer")
  let buffer ← diskReadPhyBlocks t disk (malloc disk.phyBlockSize) 0 disk.programTablePtr
  if peek beyond buffer 0 4 ≠ magic then
    throw (.errmsg "Error - invalid magic number in program table")
  pure (decodeProgramTable t beyond disk buffer)

/-- The component that the decoding loop makes of entry `n + 1` of the block. -/
def decodeComponent (t : Target) (beyond : Nat → UInt8) (disk : Disk) (buffer : List UInt8)
    (n : Nat) : Component :=
  let entry := peek beyond buffer ((n + 1) * sizeofComponentEntry) sizeofComponentEntry
  { segmentPtr := readPackedBlockptr t disk entry
    type := packedField t entry 23 1
    address := packedField t entry 24 8 }

/-- The access to entry `n + 1` of the block. -/
def entryRead (disk : Disk) (n : Nat) : Access :=
  ⟨(n + 1) * sizeofComponentEntry, sizeofComponentEntry, disk.phyBlockSize⟩

/-- The access to element `n` of the table, which was allocated for `table_size` block pointers. -/
def componentWrite (t : Target) (disk : Disk) (n : Nat) : Access :=
  ⟨n * sizeofComponent t, sizeofComponent t, sizeofDiskBlockptr t * getComponentTableSize disk⟩

/-- The component table in a block, and the accesses its decoding takes. A block that is smaller
than a block pointer has a table of size -1, for which there is no memory. -/
def decodeComponentTable (t : Target) (beyond : Nat → UInt8) (disk : Disk) (buffer : List UInt8) :
    Except Stop ComponentTable :=
  let tableSize := getComponentTableSize disk
  if disk.phyBlockSize < getBlockptrSize disk then .error .aborted
  else .ok
    { components := (List.range tableSize).map (decodeComponent t beyond disk buffer)
      opt := packedField t (peek beyond buffer 4 1) 0 1
      reads := (List.range tableSize).map (entryRead disk)
      writes := (List.range tableSize).map (componentWrite t disk) }

/-- `get_component_table`. -/
def getComponentTable (t : Target) (beyond : Nat → UInt8) (disk : Disk)
    (tablePtr : DiskBlockptr) : Prog Stop ComponentTable := do
  if getBlockptrBlockct disk tablePtr ≠ 0 then
    throw (.errmsg "Error - invalid component table pointer")
  let buffer ← diskReadPhyBlocks t disk (malloc disk.phyBlockSize) 0 tablePtr
  if peek beyond buffer 0 4 ≠ magic then
    throw (.errmsg "Error - invalid magic number in component table")
  decodeComponentTable t beyond disk buffer

/-! ## Which tables are decoded -/

/-- The component table behind a pointer is decoded: the pointer covers one block, the block can
be read, and begins with the magic number. -/
def TableDecoded (t : Target) (beyond : Nat → UInt8) (disk : Disk) (tablePtr : DiskBlockptr) :
    Prop :=
  getBlockptrBlockct disk tablePtr = 0 ∧
    ∃ buffer, readOutcome t disk tablePtr = some (.ok buffer) ∧ peek beyond buffer 0 4 = magic

/-- A read of one block into an allocation of one block. -/
theorem diskReadPhyBlocks_block (t : Target) {disk : Disk} (h : disk.type.supported = true)
    {blockptr : DiskBlockptr} (hct : getBlockptrBlockct disk blockptr = 0) :
    (diskReadPhyBlocks t disk (malloc disk.phyBlockSize) 0 blockptr).ComesTo
      (readOutcome t disk blockptr) :=
  diskReadPhyBlocks_whole t h blockptr (by rw [malloc_length, rangeBytes, hct, Nat.mul_one])

/-- **What reading a table comes to**: the shape that `get_program_table` and
`get_component_table` share. -/
theorem readTable_gives_ok (t : Target) (beyond : Nat → UInt8) {disk : Disk}
    (h : disk.type.supported = true) (tablePtr : DiskBlockptr) (badPointer badMagic : String)
    {α : Type} (decode : List UInt8 → Except Stop α) {table : α} :
    Prog.Gives (do
      if getBlockptrBlockct disk tablePtr ≠ 0 then throw (.errmsg badPointer)
      let buffer ← diskReadPhyBlocks t disk (malloc disk.phyBlockSize) 0 tablePtr
      if peek beyond buffer 0 4 ≠ magic then throw (.errmsg badMagic)
      decode buffer) (.ok table) ↔
      ∃ buffer, getBlockptrBlockct disk tablePtr = 0 ∧
        readOutcome t disk tablePtr = some (.ok buffer) ∧ peek beyond buffer 0 4 = magic ∧
        decode buffer = .ok table := by
  by_cases hct : getBlockptrBlockct disk tablePtr = 0
  · simp only [hct, ne_eq, not_true_eq_false, if_false, Prog.gives_bind_eq_ok,
      diskReadPhyBlocks_block t h hct _, true_and]
    refine exists_congr fun buffer => and_congr_right fun _ => ?_
    by_cases hm : peek beyond buffer 0 4 = magic
    · simp [hm]
    · simp [hm]
  · simp [hct]

theorem diskReadPhyBlocks_block_comes_iff (t : Target) {disk : Disk}
    (h : disk.type.supported = true) {blockptr : DiskBlockptr}
    (hct : getBlockptrBlockct disk blockptr = 0) :
    Comes (diskReadPhyBlocks t disk (malloc disk.phyBlockSize) 0 blockptr) ↔
      ReadEnds t disk blockptr := by
  unfold Comes
  simp only [diskReadPhyBlocks_block t h hct _]
  exact readOutcome_ends_iff h

/-- Reading a table comes to an end when the read does, and the decoding of what was read. -/
theorem readTable_comes_iff (t : Target) (beyond : Nat → UInt8) {disk : Disk}
    (h : disk.type.supported = true) (tablePtr : DiskBlockptr) (badPointer badMagic : String)
    {α : Type} (decode : List UInt8 → Except Stop α) :
    Comes (do
      if getBlockptrBlockct disk tablePtr ≠ 0 then throw (.errmsg badPointer)
      let buffer ← diskReadPhyBlocks t disk (malloc disk.phyBlockSize) 0 tablePtr
      if peek beyond buffer 0 4 ≠ magic then throw (.errmsg badMagic)
      decode buffer) ↔
      (getBlockptrBlockct disk tablePtr = 0 → ReadEnds t disk tablePtr) ∧
        ∀ buffer, getBlockptrBlockct disk tablePtr = 0 →
          readOutcome t disk tablePtr = some (.ok buffer) → peek beyond buffer 0 4 = magic →
          Comes (liftM (decode buffer) : Prog Stop α) := by
  by_cases hct : getBlockptrBlockct disk tablePtr = 0
  · simp only [hct, ne_eq, not_true_eq_false, if_false, forall_const, comes_bind,
      diskReadPhyBlocks_block_comes_iff t h hct, diskReadPhyBlocks_block t h hct _]
    refine and_congr_right fun _ => forall_congr' fun buffer => imp_congr_right fun _ => ?_
    by_cases hm : peek beyond buffer 0 4 = magic
    · simp [hm]
    · simp [hm, comes_errmsg]
  · simp [hct, comes_errmsg]

/-- **What a decoded component table is made of.** -/
theorem getComponentTable_gives_ok (t : Target) (beyond : Nat → UInt8) {disk : Disk}
    (h : disk.type.supported = true) (tablePtr : DiskBlockptr) {table : ComponentTable} :
    (getComponentTable t beyond disk tablePtr).Gives (.ok table) ↔
      ∃ buffer, getBlockptrBlockct disk tablePtr = 0 ∧
        readOutcome t disk tablePtr = some (.ok buffer) ∧ peek beyond buffer 0 4 = magic ∧
        decodeComponentTable t beyond disk buffer = .ok table :=
  readTable_gives_ok t beyond h tablePtr _ _ _

theorem getProgramTable_gives_ok (t : Target) (beyond : Nat → UInt8) {disk : Disk}
    (h : disk.type.supported = true) {table : List DiskBlockptr} :
    (getProgramTable t beyond disk).Gives (.ok table) ↔
      ∃ buffer, getBlockptrBlockct disk disk.programTablePtr = 0 ∧
        readOutcome t disk disk.programTablePtr = some (.ok buffer) ∧
        peek beyond buffer 0 4 = magic ∧
        Except.ok (decodeProgramTable t beyond disk buffer) = (.ok table : Except Stop _) :=
  readTable_gives_ok t beyond h disk.programTablePtr _ _
    fun buffer => .ok (decodeProgramTable t beyond disk buffer)

theorem getProgramTable_comes_iff (t : Target) (beyond : Nat → UInt8) {disk : Disk}
    (h : disk.type.supported = true) :
    Comes (getProgramTable t beyond disk) ↔
      (getBlockptrBlockct disk disk.programTablePtr = 0 →
        ReadEnds t disk disk.programTablePtr) :=
  (readTable_comes_iff t beyond h disk.programTablePtr _ _
    fun buffer => .ok (decodeProgramTable t beyond disk buffer)).trans
      (and_iff_left fun _ _ _ _ => comes_pure _)

/-- A block pointer that does not fit into a block leaves no memory for a table. -/
theorem decodeComponentTable_comes_iff (t : Target) (beyond : Nat → UInt8) (disk : Disk)
    (buffer : List UInt8) :
    Comes (liftM (decodeComponentTable t beyond disk buffer) : Prog Stop ComponentTable) ↔
      getBlockptrSize disk ≤ disk.phyBlockSize := by
  unfold Comes decodeComponentTable
  by_cases hlt : disk.phyBlockSize < getBlockptrSize disk
  · simp [hlt]
  · simp [hlt, Nat.not_lt.mp hlt]

theorem getComponentTable_comes_iff (t : Target) (beyond : Nat → UInt8) {disk : Disk}
    (h : disk.type.supported = true) (tablePtr : DiskBlockptr) :
    Comes (getComponentTable t beyond disk tablePtr) ↔
      (getBlockptrBlockct disk tablePtr = 0 → ReadEnds t disk tablePtr) ∧
        (TableDecoded t beyond disk tablePtr → getBlockptrSize disk ≤ disk.phyBlockSize) := by
  refine (readTable_comes_iff t beyond h tablePtr _ _ _).trans (and_congr_right fun _ => ?_)
  simp only [decodeComponentTable_comes_iff]
  constructor
  · rintro hle ⟨hct, buffer, hread, hmagic⟩
    exact hle buffer hct hread hmagic
  · intro hle buffer hct hread hmagic
    exact hle ⟨hct, buffer, hread, hmagic⟩

/-! ## Bounds -/

theorem sizeofDiskBlockptr_lt (t : Target) : sizeofDiskBlockptr t < sizeofComponent t := by
  unfold sizeofDiskBlockptr sizeofComponent sizeofDiskBlockptr
  cases t.abi <;> decide

/-- A packed block pointer is at most half as long as a component entry. -/
theorem getBlockptrSize_le (disk : Disk) : getBlockptrSize disk ≤ 16 := by
  unfold getBlockptrSize
  cases disk.type <;> decide

/-- A block of at least 512 bytes has room for many block pointers. -/
theorem getComponentTableSize_pos {disk : Disk} (h : disk.type.supported = true)
    (hsize : 512 ≤ disk.phyBlockSize) : 0 < getComponentTableSize disk := by
  have hpos := getBlockptrSize_pos h
  have hle := getBlockptrSize_le disk
  have hdiv : 512 / 16 ≤ disk.phyBlockSize / getBlockptrSize disk :=
    Nat.div_le_div hsize hle hpos.ne'
  unfold getComponentTableSize
  omega

/-- **The last entry that is decoded begins behind the end of the block.** -/
theorem componentTable_reads_escape {disk : Disk} (h : disk.type.supported = true)
    (hsize : 512 ≤ disk.phyBlockSize) :
    (entryRead disk (getComponentTableSize disk - 1)).inBounds = false := by
  have hpos := getBlockptrSize_pos h
  have hle := getBlockptrSize_le disk
  have hn := getComponentTableSize_pos h hsize
  have hlt : disk.phyBlockSize < 16 * (disk.phyBlockSize / getBlockptrSize disk + 1) :=
    lt_of_lt_of_le (Nat.lt_mul_div_succ disk.phyBlockSize hpos)
      (Nat.mul_le_mul_right _ hle)
  unfold getComponentTableSize at hn ⊢
  unfold Access.inBounds entryRead sizeofComponentEntry
  simp only [packedSize, List.map_cons, List.map_nil, List.sum_cons, List.sum_nil]
  rw [decide_eq_false_iff_not]
  omega

/-- **The last element that is written ends behind the end of the allocation.** -/
theorem componentTable_writes_escape (t : Target) {disk : Disk} (h : disk.type.supported = true)
    (hsize : 512 ≤ disk.phyBlockSize) :
    (componentWrite t disk (getComponentTableSize disk - 1)).inBounds = false := by
  have hn := getComponentTableSize_pos h hsize
  obtain ⟨n, hn⟩ : ∃ n, getComponentTableSize disk = n + 1 := ⟨_, (Nat.succ_pred hn.ne').symm⟩
  have hlt := Nat.mul_lt_mul_of_pos_right (sizeofDiskBlockptr_lt t) (Nat.succ_pos n)
  unfold Access.inBounds componentWrite
  simp only [hn, Nat.add_sub_cancel]
  rw [decide_eq_false_iff_not, Nat.not_le, ← Nat.succ_mul, Nat.mul_comm _ (sizeofComponent t)]
  exact hlt

/-- A block of at least 512 bytes is decoded. -/
theorem decodeComponentTable_of_le (t : Target) (beyond : Nat → UInt8) {disk : Disk}
    (hsize : 512 ≤ disk.phyBlockSize) (buffer : List UInt8) :
    decodeComponentTable t beyond disk buffer = .ok
      { components := (List.range (getComponentTableSize disk)).map
          (decodeComponent t beyond disk buffer)
        opt := packedField t (peek beyond buffer 4 1) 0 1
        reads := (List.range (getComponentTableSize disk)).map (entryRead disk)
        writes := (List.range (getComponentTableSize disk)).map (componentWrite t disk) } := by
  have hle := getBlockptrSize_le disk
  exact if_neg (by omega)

/-- **The decoding of a component table stays in bounds** exactly when there is none: the table is
rejected before it is decoded. -/
theorem getComponentTable_inBounds_iff (t : Target) (beyond : Nat → UInt8) (disk : Disk)
    (tablePtr : DiskBlockptr) (htype : disk.type.supported = true)
    (hsize : 512 ≤ disk.phyBlockSize) :
    (∀ table, (getComponentTable t beyond disk tablePtr).Gives (.ok table) →
      (∀ a ∈ table.reads, a.inBounds = true) ∧ ∀ a ∈ table.writes, a.inBounds = true) ↔
      ¬ TableDecoded t beyond disk tablePtr := by
  have hlast : getComponentTableSize disk - 1 ∈ List.range (getComponentTableSize disk) :=
    List.mem_range.mpr (Nat.sub_lt (getComponentTableSize_pos htype hsize) Nat.one_pos)
  constructor
  · rintro hin ⟨hct, buffer, hread, hmagic⟩
    obtain ⟨hreads, _⟩ := hin _ ((getComponentTable_gives_ok t beyond htype tablePtr).mpr
      ⟨buffer, hct, hread, hmagic, decodeComponentTable_of_le t beyond hsize buffer⟩)
    have hbad := hreads _ (List.mem_map.mpr ⟨_, hlast, rfl⟩)
    rw [componentTable_reads_escape htype hsize] at hbad
    exact absurd hbad (by simp)
  · intro hnot table htable
    obtain ⟨buffer, hct, hread, hmagic, _⟩ :=
      (getComponentTable_gives_ok t beyond htype tablePtr).mp htable
    exact absurd ⟨hct, buffer, hread, hmagic⟩ hnot

/-- A SCSI disk of one block that begins with the magic number. -/
def tableDisk : Disk :=
  .image .scsi 512 1 ⟨0, 0, 0⟩ .zero (fun pos => magic.getD pos 0) blockSize512_pos

/-- The pointer to its block. -/
def tablePtr : DiskBlockptr := ⟨⟨0, 0, 0, 0, 0⟩, ⟨0, 512, 0⟩⟩

theorem tableDisk_read :
    readOutcome s390x tableDisk tablePtr = some (.ok (tableDisk.dev.slice 0 512)) :=
  readOutcome_of_reliable rfl (Device.ofContent_reliable _ _) rfl ⟨rfl, by decide⟩ (by decide)

theorem tableDisk_magic (beyond : Nat → UInt8) :
    peek beyond (tableDisk.dev.slice 0 512) 0 4 = magic := by
  rw [Device.peek_slice _ _ (by decide)]
  decide

theorem getComponentTable_inBounds_iff_tableDisk :
    TableDecoded s390x (fun _ => 0) tableDisk tablePtr ∧
      ¬ ∀ table, (getComponentTable s390x (fun _ => 0) tableDisk tablePtr).Gives (.ok table) →
        (∀ a ∈ table.reads, a.inBounds = true) ∧ ∀ a ∈ table.writes, a.inBounds = true := by
  have hdecoded : TableDecoded s390x (fun _ => 0) tableDisk tablePtr :=
    ⟨rfl, _, tableDisk_read, tableDisk_magic _⟩
  have hiff := getComponentTable_inBounds_iff s390x (fun _ => 0) tableDisk tablePtr rfl (by decide)
  exact ⟨hdecoded, fun hin => hiff.mp hin hdecoded⟩

/-- The 31 entries of a table in a block of 512 bytes: the last one is read at bytes 992 to 1023 of
the block, and written at bytes 1200 to 1239 of an allocation of 744 bytes. -/
theorem tableDisk_accesses_escape :
    ∃ table, (getComponentTable s390x (fun _ => 0) tableDisk
        ⟨⟨0, 0, 0, 0, 0⟩, ⟨0, 512, 0⟩⟩).Gives (.ok table) ∧
      ⟨992, 32, 512⟩ ∈ table.reads ∧ (Access.mk 992 32 512).inBounds = false ∧
      ⟨1200, 40, 744⟩ ∈ table.writes ∧ (Access.mk 1200 40 744).inBounds = false := by
  refine ⟨_, (getComponentTable_gives_ok s390x _ rfl _).mpr ⟨_, rfl, tableDisk_read,
    tableDisk_magic _, decodeComponentTable_of_le s390x _ (by decide) _⟩, ?_, rfl, ?_, rfl⟩
  · exact List.mem_map.mpr ⟨30, by decide, by decide⟩
  · exact List.mem_map.mpr ⟨30, by decide, by decide⟩

end Sysload.Bootmap
