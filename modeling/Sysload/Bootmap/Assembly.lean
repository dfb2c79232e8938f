import Sysload.Bootmap.Walk

/-!
# What a component is made of

`SegmentChain` says, with no loop, what a component on a disk is: a chain of segment tables, each
holding code pointers up to its first null slot, a full table linking to the next through its last
slot. `copy_component_to_memory` walks such a chain (`Path`) and returns its segments in order.

Source: `src/core/bootmap_common.c`, `copy_component_to_memory`; the definitions here are not
translated from it.

Results:
* `SegmentChain.path`: the walk follows the chain.
* `path_comesTo`: along a path of readable segments the loop appends them, or overflows.
* **`copyComponentToMemory_assembles_iff`**: the function returns the segments of a finite chain
  exactly when their total length fits into an `int`.
-/

namespace Sysload.Bootmap

open Memory

variable (t : Target) (disk : Disk)

/-! ## Chains of segment tables -/

/-- The blocks a pointer stands for. -/
def segmentBytes (ptr : DiskBlockptr) : List UInt8 :=
  disk.dev.slice (firstBlock disk ptr * disk.phyBlockSize) (rangeBytes disk ptr)

/-- The pointer leads to a finite chain of readable segment tables with these code pointers. -/
inductive SegmentChain : DiskBlockptr → List DiskBlockptr → Prop
  | last {ptr : DiskBlockptr} {table : List UInt8} {n : Nat} :
      readOutcome t disk ptr = some (.ok table) → n < slotCount disk table →
      (∀ k < n, blockptrIsNull t disk (slot t disk table k) = false) →
      blockptrIsNull t disk (slot t disk table n) = true →
      SegmentChain ptr ((List.range n).map (slot t disk table))
  | link {ptr : DiskBlockptr} {table : List UInt8} {segs : List DiskBlockptr} :
      readOutcome t disk ptr = some (.ok table) →
      (∀ k < slotCount disk table, blockptrIsNull t disk (slot t disk table k) = false) →
      SegmentChain (slot t disk table (slotCount disk table - 1)) segs →
      SegmentChain ptr ((List.range (slotCount disk table - 1)).map (slot t disk table) ++ segs)

/-- The walk from slot `entry` of a table meets these code pointers and ends. -/
inductive Path : List UInt8 → Nat → List DiskBlockptr → Prop
  | last {table : List UInt8} {entry : Nat} :
      advance t disk table entry = some (.ok none) →
      Path table entry [slot t disk table entry]
  | next {table table' : List UInt8} {entry entry' : Nat} {ptrs : List DiskBlockptr} :
      advance t disk table entry = some (.ok (some (table', entry'))) →
      Path table' entry' ptrs →
      Path table entry (slot t disk table entry :: ptrs)

variable {t disk}

/-! ## The walk follows the chain -/

/-- In front of a null slot the walk ends. -/
theorem advance_null {table : List UInt8} {entry : Nat}
    (hnull : blockptrIsNull t disk (slot t disk table (entry + 1)) = true) :
    advance t disk table entry = some (.ok none) := if_pos hnull

/-- In front of a code pointer the walk goes one slot on. -/
theorem advance_code {table : List UInt8} {entry : Nat}
    (hnull : blockptrIsNull t disk (slot t disk table (entry + 1)) = false)
    (hlt : entry + 1 < slotCount disk table - 1) :
    advance t disk table entry = some (.ok (some (table, entry + 1))) := by
  rw [advance, hnull, if_neg (by simp), if_neg (by omega)]

/-- In front of the link pointer the walk goes to the next table. -/
theorem advance_link {table table' : List UInt8} {entry : Nat}
    (hnull : blockptrIsNull t disk (slot t disk table (entry + 1)) = false)
    (hlast : entry + 1 = slotCount disk table - 1)
    (hload : loadOutcome t disk 0 (slot t disk table (entry + 1)) = some (.ok table')) :
    advance t disk table entry = some (.ok
      (if blockptrIsNull t disk (slot t disk table' 0) then none else some (table', 0))) := by
  rw [advance, hnull, if_neg (by simp), if_pos hlast, hload]
  rfl

/-- A walk over code pointers of one table, from the slots before it to a slot it continues at. -/
theorem path_table {table : List UInt8} {n : Nat} {rest : List DiskBlockptr}
    (hlt : n < slotCount disk table)
    (hcode : ∀ k < n, blockptrIsNull t disk (slot t disk table k) = false)
    (hrest : ∀ e, e + 1 = n → Path t disk table e (slot t disk table e :: rest)) :
    ∀ m e, e + m + 1 = n →
      Path t disk table e ((List.range' e (m + 1)).map (slot t disk table) ++ rest)
  | 0, e, he => hrest e he
  | m + 1, e, he => by
    rw [List.range'_succ, List.map_cons, List.cons_append]
    refine Path.next (advance_code (hcode _ (by omega)) (by omega)) ?_
    exact path_table hlt hcode hrest m (e + 1) (by omega)

/-- The range of a table that was read fits into an `int`. -/
theorem loadOutcome_of_read (h : disk.type.supported = true) {ptr : DiskBlockptr}
    {table : List UInt8} (hread : readOutcome t disk ptr = some (.ok table)) :
    loadOutcome t disk 0 ptr = some (.ok table) := by
  refine loadOutcome_eq_ok.mpr ⟨?_, hread⟩
  rw [Nat.zero_add]
  exact (readOutcome_eq_ok h hread).2.1.1

/-- **The walk follows the chain**: it meets the code pointers of the chain, unless the chain
begins with a null pointer. -/
theorem SegmentChain.path (h : disk.type.supported = true) (hsize : 512 ≤ disk.phyBlockSize)
    {ptr : DiskBlockptr} {segs : List DiskBlockptr} (hc : SegmentChain t disk ptr segs) :
    ∃ table, readOutcome t disk ptr = some (.ok table) ∧
      ((blockptrIsNull t disk (slot t disk table 0) = true ∧ segs = []) ∨
        (blockptrIsNull t disk (slot t disk table 0) = false ∧ Path t disk table 0 segs)) := by
  induction hc with
  | @last ptr table n hread hlt hcode hnull =>
    refine ⟨table, hread, ?_⟩
    cases n with
    | zero => exact Or.inl ⟨hnull, rfl⟩
    | succ n =>
      refine Or.inr ⟨hcode 0 (Nat.succ_pos n), ?_⟩
      have hend : ∀ e, e + 1 = n + 1 → Path t disk table e (slot t disk table e :: []) := by
        intro e he
        exact Path.last (advance_null (he ▸ hnull))
      have hpath := path_table hlt hcode hend n 0 (by omega)
      rwa [List.append_nil, ← List.range_eq_range'] at hpath
  | @link ptr table segs hread hcode hc ih =>
    obtain ⟨table', hread', hnext⟩ := ih
    have hin := beforeLast_of_read h hsize hread
    unfold BeforeLast at hin
    refine ⟨table, hread, Or.inr ⟨hcode 0 (by omega), ?_⟩⟩
    have hend : ∀ e, e + 1 = slotCount disk table - 1 →
        Path t disk table e (slot t disk table e :: segs) := by
      intro e he
      have hadv := advance_link (hcode (e + 1) (by omega)) he
        (loadOutcome_of_read h (he ▸ hread'))
      rcases hnext with ⟨hnull, rfl⟩ | ⟨hnull, hpath⟩
      · rw [hnull, if_pos rfl] at hadv
        exact Path.last hadv
      · rw [hnull, if_neg (by simp)] at hadv
        exact Path.next hadv hpath
    have hpath := path_table (by omega) (fun k hk => hcode k (by omega)) hend
      (slotCount disk table - 2) 0 (by omega)
    rwa [show slotCount disk table - 2 + 1 = slotCount disk table - 1 by omega,
      ← List.range_eq_range'] at hpath

/-! ## What the walk assembles -/

variable (t disk) in
/-- The segments of these pointers behind the bytes in `buffer`, if the total length fits into an
`int`. -/
def assembled (buffer : List UInt8) (ptrs : List DiskBlockptr) :
    Prog.Outcome Stop (List UInt8 × Nat) :=
  if t.fits (buffer.length + (ptrs.map (rangeBytes disk)).sum) = true then
    some (.ok (buffer ++ ptrs.flatMap (segmentBytes disk),
      buffer.length + (ptrs.map (rangeBytes disk)).sum))
  else some (.error .overflow)

/-- A pass over a readable segment. -/
theorem passOutcome_of_read {table bytes buffer : List UInt8} {entry : Nat}
    {next : Option (List UInt8 × Nat)}
    (hread : readOutcome t disk (slot t disk table entry) = some (.ok bytes))
    (hadv : advance t disk table entry = some (.ok next)) :
    passOutcome t disk table entry buffer =
      if t.fits (buffer.length + rangeBytes disk (slot t disk table entry)) = true then
        some (.ok (passEnd t disk (buffer ++ bytes) next))
      else some (.error .overflow) := by
  unfold passOutcome loadOutcome
  rw [hadv]
  split
  · rw [hread]
    rfl
  · rfl

/-- **Along a path of readable segments the loop appends them**, unless their total length behind
the bytes loaded before does not fit into an `int`. -/
theorem path_comesTo (h : disk.type.supported = true) (hsize : 512 ≤ disk.phyBlockSize)
    {table : List UInt8} {entry : Nat} {ptrs : List DiskBlockptr}
    (hpath : Path t disk table entry ptrs) (hin : BeforeLast disk table entry)
    (hread : ∀ p ∈ ptrs, ∃ bytes, readOutcome t disk p = some (.ok bytes))
    (buffer : List UInt8) :
    (Prog.loop (walkPass t disk) (walkAt t disk table entry buffer)).ComesTo
      (assembled t disk buffer ptrs) := by
  unfold assembled
  induction hpath generalizing buffer with
  | @last table entry hadv =>
    obtain ⟨bytes, hbytes⟩ := hread _ (List.mem_singleton_self _)
    have hpass := walkPass_comesTo (t := t) h hsize hin buffer
    have hlen := readOutcome_length h hbytes
    have hseg : bytes = segmentBytes disk (slot t disk table entry) :=
      (readOutcome_eq_ok h hbytes).2.2.1
    rw [passOutcome_of_read hbytes hadv] at hpass
    simp only [List.map_cons, List.map_nil, List.sum_cons, List.sum_nil, Nat.add_zero,
      List.flatMap_cons, List.flatMap_nil, List.append_nil]
    split at hpass
    · rename_i hf
      rw [if_pos hf, ← hseg, ← hlen, ← List.length_append]
      exact hpass.loop_done
    · rename_i hf
      rw [if_neg hf]
      exact hpass.loop_error
  | @next table table' entry entry' ptrs hadv hpath ih =>
    obtain ⟨bytes, hbytes⟩ := hread _ List.mem_cons_self
    have hpass := walkPass_comesTo (t := t) h hsize hin buffer
    have hlen := readOutcome_length h hbytes
    have hseg : bytes = segmentBytes disk (slot t disk table entry) :=
      (readOutcome_eq_ok h hbytes).2.2.1
    have hrest := ih (advance_beforeLast h hsize hin hadv)
      (fun p hp => hread p (List.mem_cons_of_mem _ hp)) (buffer ++ bytes)
    rw [passOutcome_of_read hbytes hadv] at hpass
    rw [List.length_append, hlen, Nat.add_assoc, List.append_assoc] at hrest
    simp only [List.map_cons, List.sum_cons, List.flatMap_cons]
    split at hpass
    · rw [← hseg]
      exact hpass.loop_next hrest
    · rename_i hf
      rw [if_neg fun hfit => hf (t.fits_mono (by omega) hfit)]
      exact hpass.loop_error

/-- What the function comes to on a finite chain of readable tables and segments. -/
theorem SegmentChain.comesTo (h : disk.type.supported = true) (hsize : 512 ≤ disk.phyBlockSize)
    {ptr : DiskBlockptr} {segs : List DiskBlockptr} (hc : SegmentChain t disk ptr segs)
    (hfirst : segs ≠ [])
    (hread : ∀ p ∈ segs, ∃ bytes, readOutcome t disk p = some (.ok bytes)) :
    (copyComponentToMemory t disk ptr).ComesTo (assembled t disk [] segs) := by
  obtain ⟨table, htable, ⟨_, hnil⟩ | ⟨_, hpath⟩⟩ := hc.path h hsize
  · exact absurd hnil hfirst
  · intro r
    rw [copyComponentToMemory_gives h hsize ptr, loadOutcome_of_read h htable]
    have hloop := path_comesTo h hsize hpath (beforeLast_of_read h hsize htable) hread [] r
    simp [hloop]

/-- **The function returns the segments of a finite chain of readable tables and segments**, each
once and in order, exactly when their total length fits into an `int`. That it returns says that
every read went into memory with room for it and every slot was decoded inside its table. -/
theorem copyComponentToMemory_assembles_iff (t : Target) (disk : Disk) (ptr : DiskBlockptr)
    (segs : List DiskBlockptr) (htype : disk.type.supported = true)
    (hsize : 512 ≤ disk.phyBlockSize) (hchain : SegmentChain t disk ptr segs)
    (hfirst : segs ≠ [])
    (hread : ∀ p ∈ segs, ∃ bytes, readOutcome t disk p = some (.ok bytes)) :
    (copyComponentToMemory t disk ptr).Gives
        (.ok (segs.flatMap (segmentBytes disk), (segs.map (rangeBytes disk)).sum)) ↔
      t.fits ((segs.map (rangeBytes disk)).sum) = true := by
  rw [hchain.comesTo htype hsize hfirst hread _, assembled]
  simp only [List.length_nil, Nat.zero_add, List.nil_append]
  split
  · rename_i hf
    simp [hf]
  · rename_i hf
    simp [hf]

/-- A SCSI disk of 65537 blocks of 4096 bytes whose first block is a segment table with `n`
pointers, each to the 65536 blocks behind it. -/
def segmentDisk (n : Nat) : Disk :=
  .image .scsi 4096 65537 ⟨0, 0, 0⟩ .zero
    (fun pos => if pos < 16 * n then
      [0, 0, 0, 0, 0, 0, 0, 1, 0x10, 0, 0xff, 0xff, 0, 0, 0, 0].getD (pos % 16) 0 else 0)
    blockSize4096_pos

/-- The pointer to the segment table. -/
def segmentDiskPtr : DiskBlockptr := ⟨⟨0, 0, 0, 0, 0⟩, ⟨0, 4096, 0⟩⟩

/-- The pointer in the slots of the segment table. -/
def segmentDiskSlot : DiskBlockptr := ⟨⟨0, 0, 0, 0, 0⟩, ⟨1, 4096, 65535⟩⟩

theorem segmentDisk_read (n : Nat) :
    readOutcome s390x (segmentDisk n) segmentDiskPtr =
      some (.ok ((segmentDisk n).dev.slice 0 4096)) := by
  have hfirst : firstBlock (segmentDisk n) segmentDiskPtr = 0 := rfl
  have hbytes : rangeBytes (segmentDisk n) segmentDiskPtr = 4096 := by
    show 4096 * (0 + 1) = 4096
    decide
  have hfits : RangeFits s390x (segmentDisk n) segmentDiskPtr :=
    ⟨by rw [hbytes]; decide, by simp [segmentDisk, Disk.image]⟩
  have hread := readOutcome_of_reliable rfl (Device.ofContent_reliable _ _) rfl hfits
    (Nat.succ_pos _)
  rwa [hbytes, hfirst, Nat.zero_mul] at hread

theorem segmentDisk_slot {n k : Nat} (hk : k < 256) :
    slot s390x (segmentDisk n) ((segmentDisk n).dev.slice 0 4096) k =
      if k < n then segmentDiskSlot else .zero := by
  have hslot : slot s390x (segmentDisk n) ((segmentDisk n).dev.slice 0 4096) k =
      readPackedBlockptr s390x (segmentDisk n) ((segmentDisk n).dev.slice (0 + k * 16) 16) :=
    slot_slice (by show (k + 1) * 16 ≤ 4096; omega)
  have hbytes : (segmentDisk n).dev.slice (0 + k * 16) 16 = (List.range 16).map fun i =>
      if k < n then [0, 0, 0, 0, 0, 0, 0, 1, 0x10, 0, 0xff, 0xff, 0, 0, 0, 0].getD i 0 else 0 := by
    refine List.map_congr_left fun i hi => ?_
    have hi := List.mem_range.mp hi
    show (if 0 + k * 16 + i < 16 * n then _ else _) = _
    rw [show (0 + k * 16 + i) % 16 = i by omega]
    exact if_congr (by omega) rfl rfl
  rw [hslot, hbytes]
  split <;> rfl

theorem segmentDisk_chain {n : Nat} (hn : n < 256) :
    SegmentChain s390x (segmentDisk n) segmentDiskPtr (List.replicate n segmentDiskSlot) := by
  have hsegs : (List.range n).map (slot s390x (segmentDisk n) ((segmentDisk n).dev.slice 0 4096)) =
      List.replicate n segmentDiskSlot := by
    rw [List.map_congr_left fun k hk => (segmentDisk_slot (by
      have := List.mem_range.mp hk; omega)).trans (if_pos (List.mem_range.mp hk))]
    simp
  rw [← hsegs]
  refine SegmentChain.last (segmentDisk_read n) ?_ ?_ ?_
  · rw [slotCount, Device.slice_length]
    show n < 4096 / 16
    omega
  · intro k hk
    rw [segmentDisk_slot (by omega), if_pos hk]
    rfl
  · rw [segmentDisk_slot hn, if_neg (Nat.lt_irrefl n)]
    rfl

theorem segmentDisk_rangeBytes (n : Nat) : rangeBytes (segmentDisk n) segmentDiskSlot = 2 ^ 28 := by
  show 4096 * (65535 + 1) = 2 ^ 28
  decide

theorem segmentDisk_slot_read (n : Nat) :
    ∃ bytes, readOutcome s390x (segmentDisk n) segmentDiskSlot = some (.ok bytes) := by
  have hfits : RangeFits s390x (segmentDisk n) segmentDiskSlot :=
    ⟨by rw [segmentDisk_rangeBytes]; decide, by simp [segmentDisk, Disk.image]⟩
  refine ⟨_, readOutcome_of_reliable rfl (Device.ofContent_reliable _ _) rfl hfits ?_⟩
  show 1 + 65535 < 65537
  decide

theorem copyComponentToMemory_assembles_iff_segmentDisk :
    (copyComponentToMemory s390x (segmentDisk 1) segmentDiskPtr).Gives
        (.ok ([segmentDiskSlot].flatMap (segmentBytes (segmentDisk 1)),
          ([segmentDiskSlot].map (rangeBytes (segmentDisk 1))).sum)) ↔
      s390x.fits (([segmentDiskSlot].map (rangeBytes (segmentDisk 1))).sum) = true :=
  copyComponentToMemory_assembles_iff s390x (segmentDisk 1) segmentDiskPtr [segmentDiskSlot] rfl
    (by decide) (segmentDisk_chain (by decide)) (by simp)
    fun p hp => List.mem_singleton.mp hp ▸ segmentDisk_slot_read 1

/-- A component of eight segments of 256 MiB each overflows `*buffer_size`: the function does not
return it. -/
theorem segmentDisk_eight_overflows :
    SegmentChain s390x (segmentDisk 8) segmentDiskPtr (List.replicate 8 segmentDiskSlot) ∧
      (∀ p ∈ List.replicate 8 segmentDiskSlot,
        ∃ bytes, readOutcome s390x (segmentDisk 8) p = some (.ok bytes)) ∧
      (copyComponentToMemory s390x (segmentDisk 8) segmentDiskPtr).Gives (.error .overflow) ∧
      ¬ ∃ result, (copyComponentToMemory s390x (segmentDisk 8) segmentDiskPtr).Gives
        (.ok result) := by
  have hchain := segmentDisk_chain (n := 8) (by decide)
  have hread : ∀ p ∈ List.replicate 8 segmentDiskSlot,
      ∃ bytes, readOutcome s390x (segmentDisk 8) p = some (.ok bytes) := fun p hp =>
    List.eq_of_mem_replicate hp ▸ segmentDisk_slot_read 8
  have hgives : (copyComponentToMemory s390x (segmentDisk 8) segmentDiskPtr).Gives
      (.error .overflow) := by
    rw [hchain.comesTo rfl (by decide) (by simp) hread _, assembled, if_neg]
    rw [List.map_replicate, segmentDisk_rangeBytes, List.sum_replicate]
    decide
  refine ⟨hchain, hread, hgives, ?_⟩
  rintro ⟨result, hr⟩
  exact absurd (hgives.unique hr) (by simp)

end Sysload.Bootmap
