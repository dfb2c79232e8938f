import Sysload.Bootmap.Read
import Sysload.Lib.Radix

/-!
# Block numbers of ECKD disks (`bootmap_common.c`)

On an ECKD disk a block has a cylinder, a head and a sector, and sectors are counted from one.
`check_blockptr()` compares them with the geometry of the disk, and `disk_read_phy_blocks()` computes
the number of the block. Here the members of a block pointer are `int`s, as in the source.

Source: `src/core/bootmap_common.c`, `check_blockptr` and `disk_read_phy_blocks`.

Results:
* `chsOffset_eq`: the number is the one that cylinder, head and sector denote in mixed radix.
* **`chsOffset_numbers`**: the blocks that are accepted are numbered one by one, in their order.
* `exists_chsOffset`: no number is left out.
* `checkBlockptr_eq_checkChs`, `firstBlock_eq_chsOffset`: the pointers that are read from a disk.
-/

namespace Sysload.Bootmap

/-- `struct disk_blockptr_chs`, whatever is stored in it. -/
structure ChsBlockptr where
  cyl : Int
  head : Int
  sec : Int
  size : Int
  blockct : Int
  deriving DecidableEq, Repr

variable (geo : HdGeometry)

/-- `check_blockptr` for the ECKD disk types: `true` for the return value `0`. -/
def checkChs (phyBlockSize : Int) (blockptr : ChsBlockptr) : Bool :=
  !(decide (blockptr.blockct < 0) || blockptr.size != phyBlockSize ||
    decide (blockptr.cyl < 0) || decide ((geo.cylinders : Int) ≤ blockptr.cyl) ||
    decide (blockptr.head < 0) || decide ((geo.heads : Int) ≤ blockptr.head) ||
    decide (blockptr.sec < 1) || decide ((geo.sectors : Int) < blockptr.sec))

/-- `offset` in `disk_read_phy_blocks` for the ECKD disk types, in blocks. -/
def chsOffset (blockptr : ChsBlockptr) : Int :=
  blockptr.sec + geo.sectors * (blockptr.head + blockptr.cyl * geo.heads) - 1

/-! ## Addresses as numerals -/

/-- The bases of an address. -/
def HdGeometry.bases : List Nat := [geo.cylinders, geo.heads, geo.sectors]

theorem HdGeometry.bases_prod : geo.bases.prod = geo.cylinders * geo.heads * geo.sectors := by
  simp [bases, Nat.mul_assoc]

/-- An address on a disk of this geometry. Sectors are counted from one. -/
structure BlockAddress where
  cyl : Nat
  head : Nat
  sec : Nat
  cyl_lt : cyl < geo.cylinders
  head_lt : head < geo.heads
  sec_pos : 1 ≤ sec
  sec_le : sec ≤ geo.sectors

variable {geo}

/-- The digits of an address. -/
def BlockAddress.digits (a : BlockAddress geo) : List Nat := [a.cyl, a.head, a.sec - 1]

theorem BlockAddress.isDigits (a : BlockAddress geo) : Radix.Digits geo.bases a.digits :=
  .cons a.cyl_lt (.cons a.head_lt (.cons (Nat.sub_one_lt_of_le a.sec_pos a.sec_le) .nil))

/-- The number of a block. -/
def BlockAddress.number (a : BlockAddress geo) : Nat := Radix.value geo.bases a.digits

theorem BlockAddress.number_eq (a : BlockAddress geo) :
    a.number = a.cyl * (geo.heads * geo.sectors) + (a.head * geo.sectors + (a.sec - 1)) := by
  simp [number, digits, HdGeometry.bases]

/-- The address that a pointer is at. -/
def ChsBlockptr.At (blockptr : ChsBlockptr) (a : BlockAddress geo) : Prop :=
  blockptr.cyl = a.cyl ∧ blockptr.head = a.head ∧ blockptr.sec = a.sec

/-- **A pointer that is accepted** is at an address of the disk. -/
theorem checkChs_iff {phyBlockSize : Int} {blockptr : ChsBlockptr} :
    checkChs geo phyBlockSize blockptr = true ↔
      blockptr.size = phyBlockSize ∧ 0 ≤ blockptr.blockct ∧ ∃ a : BlockAddress geo, blockptr.At a := by
  simp only [checkChs, Bool.not_eq_true', Bool.or_eq_false_iff, decide_eq_false_iff_not, not_lt,
    not_le, bne_eq_false_iff_eq]
  constructor
  · rintro ⟨⟨⟨⟨⟨⟨⟨hct, hsize⟩, hcyl⟩, hcyl'⟩, hhead⟩, hhead'⟩, hsec⟩, hsec'⟩
    obtain ⟨cyl, hcyleq⟩ := Int.eq_ofNat_of_zero_le hcyl
    obtain ⟨head, hheadeq⟩ := Int.eq_ofNat_of_zero_le hhead
    obtain ⟨sec, hseceq⟩ := Int.eq_ofNat_of_zero_le (Int.le_trans (by decide) hsec)
    rw [hcyleq, Int.ofNat_lt] at hcyl'
    rw [hheadeq, Int.ofNat_lt] at hhead'
    rw [hseceq, Int.ofNat_le] at hsec'
    refine ⟨hsize, hct, ⟨cyl, head, sec, hcyl', hhead', ?_, hsec'⟩, hcyleq, hheadeq, hseceq⟩
    omega
  · rintro ⟨hsize, hct, a, hcyl, hhead, hsec⟩
    have := a.cyl_lt
    have := a.head_lt
    have := a.sec_pos
    have := a.sec_le
    exact ⟨⟨⟨⟨⟨⟨⟨hct, hsize⟩, by omega⟩, by omega⟩, by omega⟩, by omega⟩, by omega⟩, by omega⟩

/-- The number that is computed for it is that of its address. -/
theorem chsOffset_eq {blockptr : ChsBlockptr} {a : BlockAddress geo} (h : blockptr.At a) :
    chsOffset geo blockptr = a.number := by
  obtain ⟨hcyl, hhead, hsec⟩ := h
  rw [chsOffset, hcyl, hhead, hsec, a.number_eq]
  push_cast [Nat.cast_sub a.sec_pos]
  ring

/-- An address is in front of another one: by its cylinder, then by its head, then by its sector. -/
def ChsBlockptr.Before (p q : ChsBlockptr) : Prop :=
  p.cyl < q.cyl ∨ p.cyl = q.cyl ∧ (p.head < q.head ∨ p.head = q.head ∧ p.sec < q.sec)

theorem BlockAddress.digits_lt_iff {p q : ChsBlockptr} {a b : BlockAddress geo} (hp : p.At a)
    (hq : q.At b) : a.digits < b.digits ↔ p.Before q := by
  have := a.sec_pos
  have := b.sec_pos
  obtain ⟨hcyl, hhead, hsec⟩ := hp
  obtain ⟨hcyl', hhead', hsec'⟩ := hq
  simp only [digits, List.cons_lt_cons_iff, List.not_lt_nil, and_false, or_false,
    ChsBlockptr.Before]
  omega

/-- **The blocks of an ECKD disk are numbered one by one**: the numbers are those of the blocks, no
two blocks have the same one, and they are in the order of cylinder, head and sector. -/
theorem chsOffset_numbers {phyBlockSize : Int} {p q : ChsBlockptr}
    (hp : checkChs geo phyBlockSize p = true) (hq : checkChs geo phyBlockSize q = true) :
    (0 ≤ chsOffset geo p ∧ chsOffset geo p ≤ geo.cylinders * geo.heads * geo.sectors - 1) ∧
      (chsOffset geo p = chsOffset geo q → p.cyl = q.cyl ∧ p.head = q.head ∧ p.sec = q.sec) ∧
      (chsOffset geo p < chsOffset geo q ↔ p.Before q) := by
  obtain ⟨-, -, a, ha⟩ := checkChs_iff.mp hp
  obtain ⟨-, -, b, hb⟩ := checkChs_iff.mp hq
  have hlt := Radix.value_lt a.isDigits
  rw [geo.bases_prod] at hlt
  rw [chsOffset_eq ha, chsOffset_eq hb]
  refine ⟨⟨Int.natCast_nonneg _, ?_⟩, fun heq => ?_, ?_⟩
  · exact Int.le_sub_one_of_lt (by exact_mod_cast hlt)
  · have hdigits := Radix.value_injective a.isDigits b.isDigits (Int.ofNat.inj heq)
    have := a.sec_pos
    have := b.sec_pos
    obtain ⟨hcyl, hhead, hsec⟩ := ha
    obtain ⟨hcyl', hhead', hsec'⟩ := hb
    simp only [BlockAddress.digits, List.cons.injEq, and_true] at hdigits
    omega
  · rw [Int.ofNat_lt, ← BlockAddress.digits_lt_iff ha hb]
    exact Radix.value_lt_iff a.isDigits b.isDigits

/-- The last block of a track, and the first one of the next. -/
theorem chsOffset_numbers_tracks :
    (0 ≤ chsOffset eckdVolume.geo ⟨0, 1, 12, 4096, 0⟩ ∧
      chsOffset eckdVolume.geo ⟨0, 1, 12, 4096, 0⟩ ≤ 100 * 15 * 12 - 1) ∧
      (chsOffset eckdVolume.geo ⟨0, 1, 12, 4096, 0⟩ = chsOffset eckdVolume.geo ⟨0, 2, 1, 4096, 0⟩ →
        (0 : Int) = 0 ∧ (1 : Int) = 2 ∧ (12 : Int) = 1) ∧
      (chsOffset eckdVolume.geo ⟨0, 1, 12, 4096, 0⟩ < chsOffset eckdVolume.geo ⟨0, 2, 1, 4096, 0⟩ ↔
        ChsBlockptr.Before ⟨0, 1, 12, 4096, 0⟩ ⟨0, 2, 1, 4096, 0⟩) :=
  @chsOffset_numbers eckdVolume.geo 4096 ⟨0, 1, 12, 4096, 0⟩ ⟨0, 2, 1, 4096, 0⟩ rfl rfl

/-- Each number below the size of the disk is that of a block. -/
theorem exists_chsOffset {n : Nat} (h : n < geo.cylinders * geo.heads * geo.sectors)
    (phyBlockSize : Int) :
    ∃ blockptr, checkChs geo phyBlockSize blockptr = true ∧ chsOffset geo blockptr = n := by
  obtain ⟨ds, hds, rfl⟩ := Radix.exists_value (geo.bases_prod ▸ h)
  obtain _ | @⟨cyl, _, _, _, hcyl, _ | @⟨head, _, _, _, hhead, _ | @⟨sec, _, _, _, hsec, ⟨⟩⟩⟩⟩ := hds
  let a : BlockAddress geo := ⟨cyl, head, sec + 1, hcyl, hhead, Nat.le_add_left 1 sec, hsec⟩
  have ha : ChsBlockptr.At ⟨cyl, head, (sec + 1 : Nat), phyBlockSize, 0⟩ a := ⟨rfl, rfl, rfl⟩
  exact ⟨_, checkChs_iff.mpr ⟨rfl, Int.le_refl 0, a, ha⟩, chsOffset_eq ha⟩

/-! ## The pointers of a disk -/

/-- A pointer that is read from a disk. -/
def BlockptrChs.toChs (blockptr : BlockptrChs) : ChsBlockptr :=
  ⟨blockptr.cyl, blockptr.head, blockptr.sec, blockptr.size, blockptr.blockct⟩

theorem checkBlockptr_eq_checkChs {disk : Disk}
    (h : disk.type = .eckdClassic ∨ disk.type = .eckdCompatible) (blockptr : DiskBlockptr) :
    checkBlockptr disk blockptr = checkChs disk.geo disk.phyBlockSize blockptr.chs.toChs := by
  rw [Bool.eq_iff_iff, checkBlockptr_eckd h, checkChs_iff]
  constructor
  · rintro ⟨hsize, hcyl, hhead, hsec, hsec'⟩
    exact ⟨congrArg Nat.cast hsize, Int.natCast_nonneg _, ⟨_, _, _, hcyl, hhead, hsec, hsec'⟩,
      rfl, rfl, rfl⟩
  · rintro ⟨hsize, -, a, hcyl, hhead, hsec⟩
    rw [Int.ofNat.inj hcyl, Int.ofNat.inj hhead, Int.ofNat.inj hsec]
    exact ⟨Int.ofNat.inj hsize, a.cyl_lt, a.head_lt, a.sec_pos, a.sec_le⟩

/-- What is read from an ECKD disk begins at the block with this number. -/
theorem firstBlock_eq_chsOffset {disk : Disk}
    (h : disk.type = .eckdClassic ∨ disk.type = .eckdCompatible) {blockptr : DiskBlockptr}
    (hcheck : checkBlockptr disk blockptr = true) :
    (firstBlock disk blockptr : Int) = chsOffset disk.geo blockptr.chs.toChs := by
  have hsec := ((checkBlockptr_eckd h blockptr).mp hcheck).2.2.2.1
  have hfirst : firstBlock disk blockptr = blockptr.chs.sec +
      disk.geo.sectors * (blockptr.chs.head + blockptr.chs.cyl * disk.geo.heads) - 1 := by
    rcases h with h | h <;> rw [firstBlock, h]
  rw [hfirst, Nat.cast_sub (Nat.le_add_right_of_le hsec)]
  push_cast
  rfl

end Sysload.Bootmap
