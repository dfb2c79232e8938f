import Sysload.Bootmap.Tables

/-!
# Loading a component (`copy_component_to_memory`)

A component is a chain of segment tables. Each table holds packed pointers to code segments, up to
a null pointer; the last slot of a full table links to the next table. The function walks the chain
and appends the segments to a growing buffer.

The five variables of the loop are kept in `Walk`. Every state the loop reaches is `walkAt table
entry buffer`, so a pass is determined by a table, a slot of it and the bytes loaded so far
(`passOutcome`), and the walk itself is a path through the slots of tables (`advance`).

Source: `src/core/bootmap_common.c`, `copy_component_to_memory`. Out of scope is a `realloc` that
fails.

Results:
* `walkPass_comesTo`: what a pass of the loop comes to.
* `copyComponentToMemory_gives`: the whole function is the loop from slot 0 of the first table.
-/

namespace Sysload.Bootmap

open Memory
open Comp (Pass)

variable (t : Target) (disk : Disk)

/-! ## The function -/

/-- `read_packed_blockptr` on slot `entry` of a segment table. -/
def readSlot (segmentTable : List UInt8) (entry : Nat) : Except Stop DiskBlockptr :=
  match load segmentTable (entry * getBlockptrSize disk) (getBlockptrSize disk) with
  | some record => .ok (readPackedBlockptr t disk record)
  | none => .error .overrun

/-- A segment table is read into the allocation `old`, resized for it: the table, the number of
its slots and its first pointer. -/
def loadSegmentTable (old : List UInt8) (ptr : DiskBlockptr) :
    Prog Stop (List UInt8 × Nat × DiskBlockptr) := do
  let tableBytes ← t.int (disk.phyBlockSize * (getBlockptrBlockct disk ptr + 1))
  let segmentTable ← diskReadPhyBlocks t disk (realloc old tableBytes) 0 ptr
  let codePtr ← readSlot t disk segmentTable 0
  pure (segmentTable, tableBytes / getBlockptrSize disk, codePtr)

/-- The variables of the loop of `copy_component_to_memory`. -/
structure Walk where
  segmentTable : List UInt8
  pointerInSegmentTable : Nat
  codePtr : DiskBlockptr
  buffer : List UInt8
  bufferSize : Nat
  loadPosition : Nat
  entry : Nat

/-- The end of a pass: a new segment table is read when the end of the current one is reached. -/
def switchTable (segmentTable : List UInt8) (pointers : Nat) (codePtr : DiskBlockptr)
    (entry : Nat) : Prog Stop (List UInt8 × Nat × DiskBlockptr × Nat) :=
  if entry = pointers - 1 ∧ blockptrIsNull t disk codePtr = false then do
    let (segmentTable, pointers, codePtr) ← loadSegmentTable t disk segmentTable codePtr
    pure (segmentTable, pointers, codePtr, 0)
  else pure (segmentTable, pointers, codePtr, entry)

/-- One pass of the do-while loop. -/
def walkPass (w : Walk) : Prog Stop (Pass Walk (List UInt8 × Nat)) := do
  -- load code segment
  let segmentBytes ← t.int (disk.phyBlockSize * (getBlockptrBlockct disk w.codePtr + 1))
  let bufferSize ← t.int (w.bufferSize + segmentBytes)
  let buffer ← diskReadPhyBlocks t disk (realloc w.buffer bufferSize) w.loadPosition w.codePtr
  let loadPosition ← t.int (w.loadPosition + segmentBytes)
  let codePtr ← readSlot t disk w.segmentTable (w.entry + 1)
  let (segmentTable, pointers, codePtr, entry) ←
    switchTable t disk w.segmentTable w.pointerInSegmentTable codePtr (w.entry + 1)
  if blockptrIsNull t disk codePtr then
    pure (.done (buffer, bufferSize))
  else
    pure (.next ⟨segmentTable, pointers, codePtr, buffer, bufferSize, loadPosition, entry⟩)

/-- `copy_component_to_memory`: the buffer and its size. -/
def copyComponentToMemory (componentPtr : DiskBlockptr) : Prog Stop (List UInt8 × Nat) := do
  let (segmentTable, pointers, codePtr) ← loadSegmentTable t disk [] componentPtr
  Prog.loop (walkPass t disk) ⟨segmentTable, pointers, codePtr, [], 0, 0, 0⟩

/-! ## Slots of a table -/

/-- The number of slots of a segment table. -/
def slotCount (table : List UInt8) : Nat := table.length / getBlockptrSize disk

/-- The pointer in slot `k` of a segment table. -/
def slot (table : List UInt8) (k : Nat) : DiskBlockptr :=
  readPackedBlockptr t disk ((table.drop (k * getBlockptrSize disk)).take (getBlockptrSize disk))

/-- A slot before the last of a table. -/
def BeforeLast (table : List UInt8) (entry : Nat) : Prop := entry + 1 < slotCount disk table

variable {t disk}

/-- A slot of the table is decoded from inside the table. -/
theorem readSlot_of_lt {table : List UInt8} {k : Nat} (hk : k < slotCount disk table) :
    readSlot t disk table k = .ok (slot t disk table k) := by
  have hmul : (k + 1) * getBlockptrSize disk ≤ table.length :=
    Nat.mul_le_of_le_div _ _ _ hk
  unfold readSlot slot
  rw [load_eq_some (by rw [← Nat.succ_mul]; exact hmul)]

/-- A slot of a table is a record on the device. -/
theorem slot_slice {pos n k : Nat} (h : (k + 1) * getBlockptrSize disk ≤ n) :
    slot t disk (disk.dev.slice pos n) k =
      readPackedBlockptr t disk
        (disk.dev.slice (pos + k * getBlockptrSize disk) (getBlockptrSize disk)) := by
  rw [slot, Device.slice_window _ (by rw [← Nat.succ_mul]; exact h)]

/-- A table that was read has many slots. -/
theorem beforeLast_of_read (h : disk.type.supported = true) (hsize : 512 ≤ disk.phyBlockSize)
    {ptr : DiskBlockptr} {table : List UInt8} (hread : readOutcome t disk ptr = some (.ok table)) :
    BeforeLast disk table 0 := by
  have hlen : 512 ≤ table.length := by
    rw [readOutcome_length h hread]
    exact le_trans hsize (Nat.le_mul_of_pos_right _ (Nat.succ_pos _))
  have hdiv : 512 / 16 ≤ table.length / getBlockptrSize disk :=
    Nat.div_le_div hlen (getBlockptrSize_le disk) (getBlockptrSize_pos h).ne'
  unfold BeforeLast slotCount
  omega

variable (t disk)

/-! ## One pass -/

/-- What loading the range of a pointer behind `loaded` bytes comes to. -/
def loadOutcome (loaded : Nat) (ptr : DiskBlockptr) : Prog.Outcome Stop (List UInt8) :=
  if t.fits (loaded + rangeBytes disk ptr) then readOutcome t disk ptr
  else some (.error .overflow)

/-- The slot the walk goes to after slot `entry` of a table: `none` in the result when the
component ends there. -/
def advance (table : List UInt8) (entry : Nat) : Prog.Outcome Stop (Option (List UInt8 × Nat)) :=
  if blockptrIsNull t disk (slot t disk table (entry + 1)) then some (.ok none)
  else if entry + 1 = slotCount disk table - 1 then
    (loadOutcome t disk 0 (slot t disk table (entry + 1))).map fun table' =>
      if blockptrIsNull t disk (slot t disk table' 0) then none else some (table', 0)
  else some (.ok (some (table, entry + 1)))

/-- The state of the loop at a slot of a table, with the bytes loaded so far. -/
def walkAt (table : List UInt8) (entry : Nat) (buffer : List UInt8) : Walk :=
  ⟨table, slotCount disk table, slot t disk table entry, buffer, buffer.length, buffer.length,
    entry⟩

/-- How a pass ends, from the bytes loaded so far and the slot it goes to. -/
def passEnd (buffer : List UInt8) : Option (List UInt8 × Nat) → Pass Walk (List UInt8 × Nat)
  | none => .done (buffer, buffer.length)
  | some (table, entry) => .next (walkAt t disk table entry buffer)

/-- What a pass from a slot of a table comes to. -/
def passOutcome (table : List UInt8) (entry : Nat) (buffer : List UInt8) :
    Prog.Outcome Stop (Pass Walk (List UInt8 × Nat)) :=
  (loadOutcome t disk buffer.length (slot t disk table entry)).bind fun bytes =>
    (advance t disk table entry).map (passEnd t disk (buffer ++ bytes))

variable {t disk}

/-- **A segment table is loaded** into an allocation of any size. -/
theorem loadSegmentTable_comesTo (h : disk.type.supported = true)
    (hsize : 512 ≤ disk.phyBlockSize) (old : List UInt8) (ptr : DiskBlockptr) :
    (loadSegmentTable t disk old ptr).ComesTo
      ((loadOutcome t disk 0 ptr).map fun table =>
        (table, slotCount disk table, slot t disk table 0)) := by
  have hbytes : disk.phyBlockSize * (getBlockptrBlockct disk ptr + 1) = rangeBytes disk ptr := rfl
  unfold loadSegmentTable loadOutcome
  rw [hbytes, Nat.zero_add]
  by_cases hf : t.fits (rangeBytes disk ptr) = true
  · rw [Target.int_of_fits hf, if_pos hf, Prog.lift_ok_bind]
    refine (diskReadPhyBlocks_whole t h ptr (realloc_length _ _)).bind fun table htable => ?_
    have hzero : 0 < slotCount disk table := Nat.lt_of_succ_lt (beforeLast_of_read h hsize htable)
    rw [readSlot_of_lt hzero, Prog.lift_ok_bind, ← readOutcome_length h htable]
    exact Prog.comesTo_pure _
  · rw [Target.int_of_not_fits hf, if_neg hf, Prog.lift_error_bind]
    exact Prog.comesTo_throw _

/-- The end of a pass, from the pointer behind slot `entry` on: the slot that is left, in the table
that is left. -/
theorem switchTable_comesTo (h : disk.type.supported = true) (hsize : 512 ≤ disk.phyBlockSize)
    (table : List UInt8) (entry : Nat) :
    (switchTable t disk table (slotCount disk table) (slot t disk table (entry + 1))
      (entry + 1)).ComesTo
      (if entry + 1 = slotCount disk table - 1 ∧
          blockptrIsNull t disk (slot t disk table (entry + 1)) = false then
        (loadOutcome t disk 0 (slot t disk table (entry + 1))).map fun table' =>
          (table', slotCount disk table', slot t disk table' 0, 0)
      else some (.ok (table, slotCount disk table, slot t disk table (entry + 1), entry + 1))) := by
  unfold switchTable
  split
  · exact ((loadSegmentTable_comesTo h hsize table _).map fun x => (x.1, x.2.1, x.2.2, 0)).of_eq
      (Prog.Outcome.map_map _ _ _)
  · exact Prog.comesTo_pure _

/-- How a pass ends, once the segment is loaded. -/
theorem passEnd_advance (table : List UInt8) (entry : Nat) (buffer : List UInt8) :
    Prog.Outcome.bind
      (if entry + 1 = slotCount disk table - 1 ∧
          blockptrIsNull t disk (slot t disk table (entry + 1)) = false then
        (loadOutcome t disk 0 (slot t disk table (entry + 1))).map fun table' =>
          (table', slotCount disk table', slot t disk table' 0, 0)
      else some (.ok (table, slotCount disk table, slot t disk table (entry + 1), entry + 1)))
      (fun x => some (.ok (if blockptrIsNull t disk x.2.2.1 = true then
          Pass.done (buffer, buffer.length)
        else Pass.next ⟨x.1, x.2.1, x.2.2.1, buffer, buffer.length, buffer.length, x.2.2.2⟩))) =
      (advance t disk table entry).map (passEnd t disk buffer) := by
  unfold advance
  cases hnull : blockptrIsNull t disk (slot t disk table (entry + 1)) with
  | true => simp [hnull, Prog.Outcome.map, passEnd]
  | false =>
    by_cases hlast : entry + 1 = slotCount disk table - 1
    · rw [if_pos ⟨hlast, rfl⟩, if_neg (by simp), if_pos hlast, Prog.Outcome.map_map,
        Prog.Outcome.map_bind]
      rcases loadOutcome t disk 0 (slot t disk table (entry + 1)) with _ | (e | table')
      · rfl
      · rfl
      · cases hz : blockptrIsNull t disk (slot t disk table' 0) <;>
          simp [Prog.Outcome.map, hz, passEnd, walkAt]
    · simp [hlast, hnull, Prog.Outcome.map, passEnd, walkAt]

/-- **A pass of the loop** comes to its outcome. -/
theorem walkPass_comesTo (h : disk.type.supported = true) (hsize : 512 ≤ disk.phyBlockSize)
    {table : List UInt8} {entry : Nat} (hin : BeforeLast disk table entry) (buffer : List UInt8) :
    (walkPass t disk (walkAt t disk table entry buffer)).ComesTo
      (passOutcome t disk table entry buffer) := by
  have hbytes : disk.phyBlockSize * (getBlockptrBlockct disk (slot t disk table entry) + 1) =
      rangeBytes disk (slot t disk table entry) := rfl
  unfold walkPass passOutcome loadOutcome
  simp only [walkAt, hbytes]
  by_cases hf : t.fits (buffer.length + rangeBytes disk (slot t disk table entry)) = true
  · simp only [Target.int_of_fits (t.fits_mono (Nat.le_add_left _ _) hf), Target.int_of_fits hf,
      if_pos hf, Prog.lift_ok_bind, readSlot_of_lt hin]
    refine (Prog.ComesTo.bind (diskReadPhyBlocks_append t h _ buffer) fun bytes _ =>
      Prog.ComesTo.bind (switchTable_comesTo h hsize table entry) fun x _ =>
        Prog.comesTo_pure_ite _ _ _).of_eq ?_
    rw [Prog.Outcome.map_bind]
    rcases ho : readOutcome t disk (slot t disk table entry) with _ | (e | bytes)
    · rfl
    · rfl
    · have hlen : (buffer ++ bytes).length =
          buffer.length + rangeBytes disk (slot t disk table entry) := by
        rw [List.length_append, readOutcome_length h ho]
      simp only [Prog.Outcome.bind_ok, ← hlen]
      exact passEnd_advance table entry (buffer ++ bytes)
  · rw [if_neg hf]
    by_cases hb : t.fits (rangeBytes disk (slot t disk table entry)) = true
    · rw [Target.int_of_fits hb, Prog.lift_ok_bind, Target.int_of_not_fits hf,
        Prog.lift_error_bind]
      exact Prog.comesTo_throw _
    · rw [Target.int_of_not_fits hb, Prog.lift_error_bind]
      exact Prog.comesTo_throw _

/-! ## The whole walk -/

/-- What was loaded was read, and fits. -/
theorem loadOutcome_eq_ok {loaded : Nat} {ptr : DiskBlockptr} {bytes : List UInt8} :
    loadOutcome t disk loaded ptr = some (.ok bytes) ↔
      t.fits (loaded + rangeBytes disk ptr) = true ∧
        readOutcome t disk ptr = some (.ok bytes) := by
  unfold loadOutcome
  split
  · rename_i hf
    simp [hf]
  · rename_i hf
    simp [hf]

/-- **Where the walk goes**: to the slot behind, or to the first slot of a table it has read. -/
theorem advance_next {table table' : List UInt8} {entry entry' : Nat}
    (ha : advance t disk table entry = some (.ok (some (table', entry')))) :
    (table' = table ∧ entry' = entry + 1 ∧ entry + 1 ≠ slotCount disk table - 1) ∨
      (entry' = 0 ∧ ∃ ptr, readOutcome t disk ptr = some (.ok table')) := by
  unfold advance at ha
  split at ha
  · exact absurd ha (by simp)
  · split at ha
    · obtain ⟨table₁, hload, hif⟩ := Prog.Outcome.map_eq_ok.mp ha
      split at hif
      · exact absurd hif (by simp)
      · obtain ⟨rfl, rfl⟩ : table₁ = table' ∧ 0 = entry' := by simpa using hif
        exact Or.inr ⟨rfl, _, (loadOutcome_eq_ok.mp hload).2⟩
    · rename_i hlast
      obtain ⟨rfl, rfl⟩ : table = table' ∧ entry + 1 = entry' := by simpa using ha
      exact Or.inl ⟨rfl, rfl, hlast⟩

/-- The slot a pass goes to is not the last of its table. -/
theorem advance_beforeLast (h : disk.type.supported = true) (hsize : 512 ≤ disk.phyBlockSize)
    {table table' : List UInt8} {entry entry' : Nat} (hin : BeforeLast disk table entry)
    (ha : advance t disk table entry = some (.ok (some (table', entry')))) :
    BeforeLast disk table' entry' := by
  rcases advance_next ha with ⟨rfl, rfl, hlast⟩ | ⟨rfl, ptr, hread⟩
  · unfold BeforeLast at hin ⊢
    omega
  · exact beforeLast_of_read h hsize hread

/-- **The function is the loop**, from slot 0 of the first table on. -/
theorem copyComponentToMemory_gives (h : disk.type.supported = true)
    (hsize : 512 ≤ disk.phyBlockSize) (componentPtr : DiskBlockptr)
    {r : Except Stop (List UInt8 × Nat)} :
    (copyComponentToMemory t disk componentPtr).Gives r ↔
      (∃ table, loadOutcome t disk 0 componentPtr = some (.ok table) ∧
        (Prog.loop (walkPass t disk) (walkAt t disk table 0 [])).Gives r) ∨
      ∃ e, loadOutcome t disk 0 componentPtr = some (.error e) ∧ .error e = r := by
  unfold copyComponentToMemory
  rw [Prog.gives_bind]
  simp only [loadSegmentTable_comesTo h hsize [] componentPtr _, Prog.Outcome.map_eq_ok,
    Prog.Outcome.map_eq_error]
  refine or_congr ⟨?_, ?_⟩ Iff.rfl
  · rintro ⟨_, ⟨table, hload, rfl⟩, hr⟩
    exact ⟨table, hload, hr⟩
  · rintro ⟨table, hload, hr⟩
    exact ⟨_, ⟨table, hload, rfl⟩, hr⟩

end Sysload.Bootmap
