import Sysload.Bootmap.Walk
import Sysload.Lib.Orbit

/-!
# When the walk through a component ends

The walk of `copy_component_to_memory` goes from slot to slot of segment tables (`nextSlot`), and
the link pointers it follows are data of the disk. Integers are unbounded here (`intLimit = none`),
so that a walk can only end at a null pointer or with an error message.

Source: `src/core/bootmap_common.c`, `copy_component_to_memory`. Out of scope is the memory that the
component takes.

Results:
* `pass_cases`: what a pass comes to, by the next slot and the pointers it meets.
* `orbit_finite`: on a disk only finitely many slots can be reached.
* **`copyComponentToMemory_comes_iff`**: the function ends, with the component or an error message,
  exactly when no pointer it meets runs off the device and it comes to no slot twice.
-/

namespace Sysload.Bootmap

open Memory
open Comp (Pass)
open Orbit (orbit Stops)

variable (t : Target) (disk : Disk)

/-! ## From slot to slot -/

/-- A segment table and a slot of it. -/
abbrev Cursor := List UInt8 × Nat

/-- The slot the walk goes to, if it loads the code segment of this one and goes on. -/
def nextSlot (c : Cursor) : Option Cursor :=
  match readOutcome t disk (slot t disk c.1 c.2) with
  | some (.ok _) =>
    match advance t disk c.1 c.2 with
    | some (.ok next) => next
    | _ => none
  | _ => none

/-- The pointers a pass from this slot reads: the code pointer and, behind it, the link pointer of
the table. -/
inductive MeetsAt (c : Cursor) : DiskBlockptr → Prop
  | code : MeetsAt c (slot t disk c.1 c.2)
  | link {bytes : List UInt8} :
      readOutcome t disk (slot t disk c.1 c.2) = some (.ok bytes) →
      c.2 + 1 = slotCount disk c.1 - 1 →
      blockptrIsNull t disk (slot t disk c.1 (c.2 + 1)) = false →
      MeetsAt c (slot t disk c.1 (c.2 + 1))

/-- The pointers that the walk from a component pointer reads. -/
inductive Meets (componentPtr : DiskBlockptr) : DiskBlockptr → Prop
  | component : Meets componentPtr componentPtr
  | pass {table : List UInt8} {n : Nat} {c : Cursor} {ptr : DiskBlockptr} :
      readOutcome t disk componentPtr = some (.ok table) →
      orbit (nextSlot t disk) (table, 0) n = some c →
      MeetsAt t disk c ptr →
      Meets componentPtr ptr

/-- The walk from a component pointer comes to no slot twice. -/
def NoSlotTwice (componentPtr : DiskBlockptr) : Prop :=
  ∀ table, readOutcome t disk componentPtr = some (.ok table) → ∀ i j c, i < j →
    orbit (nextSlot t disk) (table, 0) i = some c → orbit (nextSlot t disk) (table, 0) j ≠ some c

variable {t disk}

/-- The next slot is the one the walk goes to behind this one. -/
theorem advance_of_nextSlot {c c' : Cursor} (hc : nextSlot t disk c = some c') :
    advance t disk c.1 c.2 = some (.ok (some c')) := by
  unfold nextSlot at hc
  split at hc
  · split at hc
    · rename_i hadv
      rw [hadv, hc]
    · exact absurd hc (by simp)
  · exact absurd hc (by simp)

theorem nextSlot_beforeLast (h : disk.type.supported = true) (hsize : 512 ≤ disk.phyBlockSize)
    {c c' : Cursor} (hin : BeforeLast disk c.1 c.2) (hc : nextSlot t disk c = some c') :
    BeforeLast disk c'.1 c'.2 :=
  advance_beforeLast h hsize hin (advance_of_nextSlot hc)

/-! ## One pass -/

section Unbounded

variable (ht : t.intLimit = none) (h : disk.type.supported = true)
  (hsize : 512 ≤ disk.phyBlockSize)

include ht

theorem fits_of_unbounded (x : Nat) : t.fits x = true := by
  rw [Target.fits, ht]
  rfl

/-- With unbounded integers a read that stops reports an error message. -/
theorem readOutcome_errmsg (h : disk.type.supported = true) {ptr : DiskBlockptr} {e : Stop}
    (ho : readOutcome t disk ptr = some (.error e)) : ∃ msg, e = .errmsg msg := by
  rcases readOutcome_eq_error h ho with hmsg | ⟨_, _, hf⟩
  · exact hmsg
  · exact absurd ⟨fits_of_unbounded ht _, fun _ => fits_of_unbounded ht _⟩ hf

theorem loadOutcome_of_unbounded (loaded : Nat) (ptr : DiskBlockptr) :
    loadOutcome t disk loaded ptr = readOutcome t disk ptr := if_pos (fits_of_unbounded ht _)

include h

/-- The walk gets stuck behind a slot exactly when it follows a link that runs off the device. -/
theorem advance_eq_none_iff (c : Cursor) :
    advance t disk c.1 c.2 = none ↔ c.2 + 1 = slotCount disk c.1 - 1 ∧
      blockptrIsNull t disk (slot t disk c.1 (c.2 + 1)) = false ∧
      RunsOffDevice t disk (slot t disk c.1 (c.2 + 1)) := by
  rw [← readOutcome_eq_none_iff h]
  unfold advance
  rw [loadOutcome_of_unbounded ht]
  cases hnull : blockptrIsNull t disk (slot t disk c.1 (c.2 + 1)) with
  | true => simp
  | false =>
    by_cases hlast : c.2 + 1 = slotCount disk c.1 - 1
    · rw [if_neg (by simp), if_pos hlast, Prog.Outcome.map_eq_none]
      simp [hlast]
    · simp [hlast]

theorem advance_eq_error (c : Cursor) {e : Stop}
    (ha : advance t disk c.1 c.2 = some (.error e)) : ∃ msg, e = .errmsg msg := by
  unfold advance at ha
  rw [loadOutcome_of_unbounded ht] at ha
  split at ha
  · exact absurd ha (by simp)
  · split at ha
    · exact readOutcome_errmsg ht h (Prog.Outcome.map_eq_error.mp ha)
    · exact absurd ha (by simp)

/-- **What a pass comes to**: it never ends if a pointer it meets runs off the device, goes on to
the next slot if there is one, and otherwise ends the loop, with an error message or the buffer. -/
theorem pass_cases (c : Cursor) (buffer : List UInt8) :
    (passOutcome t disk c.1 c.2 buffer = none ∧
      ∃ ptr, MeetsAt t disk c ptr ∧ RunsOffDevice t disk ptr) ∨
    ((∀ ptr, MeetsAt t disk c ptr → ¬ RunsOffDevice t disk ptr) ∧
      match nextSlot t disk c with
      | some c' => ∃ buffer', passOutcome t disk c.1 c.2 buffer =
          some (.ok (.next (walkAt t disk c'.1 c'.2 buffer')))
      | none => (∃ msg, passOutcome t disk c.1 c.2 buffer = some (.error (.errmsg msg))) ∨
          ∃ result, passOutcome t disk c.1 c.2 buffer = some (.ok (.done result))) := by
  unfold passOutcome nextSlot
  rw [loadOutcome_of_unbounded ht]
  rcases hread : readOutcome t disk (slot t disk c.1 c.2) with _ | (e | bytes)
  · exact Or.inl ⟨rfl, _, MeetsAt.code, (readOutcome_eq_none_iff h).mp hread⟩
  · obtain ⟨msg, rfl⟩ := readOutcome_errmsg ht h hread
    refine Or.inr ⟨fun ptr hmeets hoff => ?_, Or.inl ⟨msg, rfl⟩⟩
    cases hmeets with
    | code => exact absurd ((readOutcome_eq_none_iff h).mpr hoff) (by simp [hread])
    | link hok => exact absurd (hread.symm.trans hok) (by simp)
  · by_cases hadv : advance t disk c.1 c.2 = none
    · obtain ⟨hlast, hnull, hoff⟩ := (advance_eq_none_iff ht h c).mp hadv
      exact Or.inl ⟨by rw [hadv]; rfl, _, MeetsAt.link hread hlast hnull, hoff⟩
    · refine Or.inr ⟨fun ptr hmeets hoff => ?_, ?_⟩
      · cases hmeets with
        | code => exact absurd ((readOutcome_eq_none_iff h).mpr hoff) (by simp [hread])
        | link _ hlast hnull => exact hadv ((advance_eq_none_iff ht h c).mpr ⟨hlast, hnull, hoff⟩)
      · rcases ha : advance t disk c.1 c.2 with _ | (e | (_ | c'))
        · exact absurd ha hadv
        · obtain ⟨msg, rfl⟩ := advance_eq_error ht h c ha
          exact Or.inl ⟨msg, rfl⟩
        · exact Or.inr ⟨_, rfl⟩
        · exact ⟨_, rfl⟩

include hsize

/-- A slot from which the loop ends: its pass meets no pointer that runs off the device, and the
loop ends from the next slot, too. -/
theorem loop_ends_next {c : Cursor} {buffer : List UInt8} (hin : BeforeLast disk c.1 c.2)
    (hends : (Prog.loop (walkPass t disk) (walkAt t disk c.1 c.2 buffer)).Ends) :
    (∀ ptr, MeetsAt t disk c ptr → ¬ RunsOffDevice t disk ptr) ∧
      ∀ c', nextSlot t disk c = some c' →
        ∃ buffer', (Prog.loop (walkPass t disk) (walkAt t disk c'.1 c'.2 buffer')).Ends := by
  have hpass := walkPass_comesTo (t := t) h hsize hin buffer
  rcases pass_cases ht h c buffer with ⟨hnone, _⟩ | ⟨hmeets, hnext⟩
  · exact absurd hnone (hpass.ends_iff.mp hends.of_loop)
  · refine ⟨hmeets, fun c' hc' => ?_⟩
    rw [hc'] at hnext
    obtain ⟨buffer', hout⟩ := hnext
    obtain ⟨r, hr⟩ := hends
    exact ⟨buffer', r, (Prog.gives_loop_next ((hpass _).mpr hout)).mp hr⟩

/-- A loop that ends comes by every slot of its path, and ends from there, too. -/
theorem loop_ends_at {c₀ : Cursor} {buffer₀ : List UInt8} (hin : BeforeLast disk c₀.1 c₀.2)
    (hends : (Prog.loop (walkPass t disk) (walkAt t disk c₀.1 c₀.2 buffer₀)).Ends) {n : Nat}
    {c : Cursor} (hc : orbit (nextSlot t disk) c₀ n = some c) :
    BeforeLast disk c.1 c.2 ∧
      ∃ buffer, (Prog.loop (walkPass t disk) (walkAt t disk c.1 c.2 buffer)).Ends := by
  refine Orbit.orbit_inv (fun c => BeforeLast disk c.1 c.2 ∧
    ∃ buffer, (Prog.loop (walkPass t disk) (walkAt t disk c.1 c.2 buffer)).Ends)
    ⟨hin, buffer₀, hends⟩ ?_ hc
  rintro b c' ⟨hb, buffer, hbends⟩ hnext
  exact ⟨nextSlot_beforeLast h hsize hb hnext, (loop_ends_next ht h hsize hb hbends).2 c' hnext⟩

/-- A loop that ends has a path that stops. -/
theorem stops_of_loop_ends {c₀ : Cursor} {buffer : List UInt8} (hin : BeforeLast disk c₀.1 c₀.2)
    (hends : (Prog.loop (walkPass t disk) (walkAt t disk c₀.1 c₀.2 buffer)).Ends) :
    Stops (nextSlot t disk) c₀ := by
  by_contra hns
  -- a path that never stops keeps every pass that ends going
  refine Prog.not_loop_ends_of_inv (fun w => ∃ n c buffer,
    orbit (nextSlot t disk) c₀ n = some c ∧ w = walkAt t disk c.1 c.2 buffer) ?_
    ⟨0, c₀, buffer, rfl, rfl⟩ hends
  rintro w p ⟨n, c, buffer, hc, rfl⟩ hp
  have hc' : orbit (nextSlot t disk) c₀ (n + 1) ≠ none := fun hn => hns ⟨_, hn⟩
  rw [Orbit.orbit, hc, Option.bind_some] at hc'
  obtain ⟨c', hc'⟩ := Option.ne_none_iff_exists'.mp hc'
  have hbefore := Orbit.orbit_inv (fun c : Cursor => BeforeLast disk c.1 c.2) hin
    (fun b c hb hnext => nextSlot_beforeLast h hsize hb hnext) hc
  have hout := (walkPass_comesTo (t := t) h hsize hbefore buffer p).mp hp
  rcases pass_cases ht h c buffer with ⟨hnone, _⟩ | ⟨_, hnext⟩
  · exact absurd (hnone.symm.trans hout) (by simp)
  · rw [hc'] at hnext
    obtain ⟨buffer', hgo⟩ := hnext
    exact ⟨_, Option.some.inj (hout.symm.trans hgo), n + 1, c', buffer',
      by rw [Orbit.orbit, hc, Option.bind_some, hc'], rfl⟩

/-- A loop whose path stops, and meets no pointer that runs off the device, comes to an end. -/
theorem loop_comes : ∀ (n : Nat) {c : Cursor}, BeforeLast disk c.1 c.2 →
    orbit (nextSlot t disk) c n = none →
    (∀ m c', orbit (nextSlot t disk) c m = some c' →
      ∀ ptr, MeetsAt t disk c' ptr → ¬ RunsOffDevice t disk ptr) →
    ∀ buffer, Comes (Prog.loop (walkPass t disk) (walkAt t disk c.1 c.2 buffer))
  | 0, _, _, hstop, _, _ => absurd hstop (by simp [Orbit.orbit])
  | n + 1, c, hin, hstop, hoff, buffer => by
    have hpass := walkPass_comesTo (t := t) h hsize hin buffer
    rcases pass_cases ht h c buffer with ⟨_, ptr, hmeets, hptr⟩ | ⟨_, hnext⟩
    · exact absurd hptr (hoff 0 c rfl ptr hmeets)
    · rw [Orbit.orbit_succ'] at hstop
      cases hc : nextSlot t disk c with
      | none =>
        rw [hc] at hnext
        rcases hnext with ⟨msg, hout⟩ | ⟨result, hout⟩
        · exact Or.inr ⟨msg, (Prog.gives_loop_error ((hpass _).mpr hout)).mpr rfl⟩
        · exact Or.inl ⟨result, (Prog.gives_loop_done ((hpass _).mpr hout)).mpr rfl⟩
      | some c' =>
        rw [hc] at hnext hstop
        obtain ⟨buffer', hout⟩ := hnext
        have hrest := loop_comes n (nextSlot_beforeLast h hsize hin hc) hstop
          (fun m c'' hc'' => hoff (m + 1) c'' (by rw [Orbit.orbit_succ', hc]; exact hc'')) buffer'
        have hloop := fun r => Prog.gives_loop_next ((hpass _).mpr hout) (r := r)
        unfold Comes
        simp only [hloop]
        exact hrest

/-- **The loop comes to an end** exactly when its path stops and no pointer it meets runs off the
device. -/
theorem loop_comes_iff {c₀ : Cursor} (hin : BeforeLast disk c₀.1 c₀.2) (buffer : List UInt8) :
    Comes (Prog.loop (walkPass t disk) (walkAt t disk c₀.1 c₀.2 buffer)) ↔
      Stops (nextSlot t disk) c₀ ∧
        ∀ n c, orbit (nextSlot t disk) c₀ n = some c →
          ∀ ptr, MeetsAt t disk c ptr → ¬ RunsOffDevice t disk ptr := by
  constructor
  · intro hcomes
    have hends := hcomes.ends
    refine ⟨stops_of_loop_ends ht h hsize hin hends, fun n c hc => ?_⟩
    obtain ⟨hb, buffer', hbends⟩ := loop_ends_at ht h hsize hin hends hc
    exact (loop_ends_next ht h hsize hb hbends).1
  · rintro ⟨⟨n, hstop⟩, hoff⟩
    exact loop_comes ht h hsize n hin hstop hoff buffer

/-- A walk whose path never stops does not come to an end. -/
theorem not_comes_of_orbit {componentPtr : DiskBlockptr} {table : List UInt8}
    (hread : readOutcome t disk componentPtr = some (.ok table))
    (horbit : ∀ n, orbit (nextSlot t disk) (table, 0) n ≠ none) :
    ¬ Comes (copyComponentToMemory t disk componentPtr) := by
  intro hcomes
  obtain ⟨r, hr⟩ := hcomes.ends
  rw [copyComponentToMemory_gives h hsize, loadOutcome_of_unbounded ht, hread] at hr
  rcases hr with ⟨table', htable, hends⟩ | ⟨e, he, _⟩
  · obtain rfl := Except.ok.inj (Option.some.inj htable)
    obtain ⟨n, hstop⟩ := @stops_of_loop_ends t disk ht h hsize (table, 0) []
      (beforeLast_of_read h hsize hread) ⟨r, hends⟩
    exact horbit n hstop
  · exact absurd (Option.some.inj he) (by simp)

end Unbounded

/-! ## Finitely many slots -/

/-- A slot of a table that is a part of the device. -/
def OnDisk (disk : Disk) (c : Cursor) : Prop :=
  BeforeLast disk c.1 c.2 ∧ ∃ pos n, pos ≤ disk.phyBlocks * disk.phyBlockSize ∧
    n ≤ disk.phyBlocks * disk.phyBlockSize ∧ c.1 = disk.dev.slice pos n

theorem onDisk_of_read (h : disk.type.supported = true) (hsize : 512 ≤ disk.phyBlockSize)
    {ptr : DiskBlockptr} {table : List UInt8} (hread : readOutcome t disk ptr = some (.ok table)) :
    OnDisk disk (table, 0) := by
  obtain ⟨_, _, htable, hlast⟩ := readOutcome_eq_ok h hread
  have hon := (range_le_iff disk ptr).mpr hlast
  exact ⟨beforeLast_of_read h hsize hread, _, _, by omega, by omega, htable⟩

theorem onDisk_finite (disk : Disk) : {c | OnDisk disk c}.Finite := by
  have hiic := Set.finite_Iic (disk.phyBlocks * disk.phyBlockSize)
  refine ((hiic.prod (hiic.prod hiic)).image
    fun x => ((disk.dev.slice x.1 x.2.1, x.2.2) : Cursor)).subset ?_
  rintro ⟨table, entry⟩ ⟨hlast, pos, n, hpos, hn, rfl⟩
  refine ⟨(pos, n, entry), ⟨hpos, hn, ?_⟩, rfl⟩
  have hle : slotCount disk (disk.dev.slice pos n) ≤ n := by
    rw [slotCount, Device.slice_length]
    exact Nat.div_le_self _ _
  have hlt : entry + 1 < slotCount disk (disk.dev.slice pos n) := hlast
  show entry ≤ _
  omega

/-- **On a disk only finitely many slots can be reached** from a table that was read. -/
theorem orbit_finite (h : disk.type.supported = true) (hsize : 512 ≤ disk.phyBlockSize)
    {ptr : DiskBlockptr} {table : List UInt8} (hread : readOutcome t disk ptr = some (.ok table)) :
    {c | ∃ n, orbit (nextSlot t disk) (table, 0) n = some c}.Finite := by
  refine (onDisk_finite disk).subset ?_
  rintro c ⟨n, hc⟩
  refine Orbit.orbit_inv (OnDisk disk) (onDisk_of_read h hsize hread) ?_ hc
  rintro b ⟨table', entry'⟩ ⟨hin, pos, n, hpos, hn, hb⟩ hnext
  have hadv := advance_of_nextSlot hnext
  rcases advance_next hadv with ⟨rfl, _, _⟩ | ⟨rfl, ptr', hread'⟩
  · exact ⟨advance_beforeLast h hsize hin hadv, pos, n, hpos, hn, hb⟩
  · exact onDisk_of_read h hsize hread'

/-- **With unbounded integers the walk through a component ends**, with the component or an error
message, exactly when no pointer it meets runs off the device and it comes to no slot twice. -/
theorem copyComponentToMemory_comes_iff (t : Target) (disk : Disk) (componentPtr : DiskBlockptr)
    (hunbounded : t.intLimit = none) (htype : disk.type.supported = true)
    (hsize : 512 ≤ disk.phyBlockSize) :
    Comes (copyComponentToMemory t disk componentPtr) ↔
      (∀ ptr, Meets t disk componentPtr ptr → ¬ RunsOffDevice t disk ptr) ∧
        NoSlotTwice t disk componentPtr := by
  have hgives := fun r => copyComponentToMemory_gives (t := t) htype hsize componentPtr (r := r)
  simp only [loadOutcome_of_unbounded hunbounded] at hgives
  rcases hread : readOutcome t disk componentPtr with _ | (e | table)
  · -- the first segment table cannot be read to its end
    have hoff := (readOutcome_eq_none_iff htype).mp hread
    constructor
    · intro hcomes
      rcases hcomes with ⟨a, ha⟩ | ⟨msg, ha⟩ <;> simp [hgives, hread] at ha
    · rintro ⟨hmeets, _⟩
      exact absurd hoff (hmeets _ Meets.component)
  · obtain ⟨msg, rfl⟩ := readOutcome_errmsg hunbounded htype hread
    refine ⟨fun _ => ⟨fun ptr hptr hoff => ?_, fun table htable => ?_⟩, fun _ => ?_⟩
    · cases hptr with
      | component => exact absurd ((readOutcome_eq_none_iff htype).mpr hoff) (by simp [hread])
      | pass htable => exact absurd (hread.symm.trans htable) (by simp)
    · exact absurd (hread.symm.trans htable) (by simp)
    · exact Or.inr ⟨msg, (hgives _).mpr (Or.inr ⟨_, hread, rfl⟩)⟩
  · have hin := beforeLast_of_read htype hsize hread
    have hloop : Comes (copyComponentToMemory t disk componentPtr) ↔
        Comes (Prog.loop (walkPass t disk) (walkAt t disk table 0 [])) := by
      unfold Comes
      simp [hgives, hread]
    have hiff := @loop_comes_iff _ disk hunbounded htype hsize (table, 0) hin []
    rw [hloop, hiff,
      Orbit.stops_iff_nodup (orbit_finite htype hsize hread), and_comm]
    refine and_congr ⟨fun hoff ptr hptr => ?_, fun hmeets n c hc ptr hptr => ?_⟩
      ⟨fun hnodup table' htable' => ?_, fun hnodup => hnodup table hread⟩
    · cases hptr with
      | component => exact fun h => absurd ((readOutcome_eq_none_iff htype).mpr h) (by simp [hread])
      | pass htable hc hat =>
        cases hread.symm.trans htable
        exact hoff _ _ hc ptr hat
    · exact hmeets ptr (Meets.pass hread hc hptr)
    · cases hread.symm.trans htable'
      exact hnodup

/-- System z with integers without a bound. -/
def unboundedTarget : Target := ⟨.big, .s390, none⟩

/-- A SCSI disk of one block of 512 bytes, filled with pointers to itself. -/
def selfLinkedDisk : Disk :=
  .image .scsi 512 1 ⟨0, 0, 0⟩ .zero (fun pos => if pos % 16 = 8 then 2 else 0)
    blockSize512_pos

/-- The pointer to the block of `selfLinkedDisk`. -/
def selfLink : DiskBlockptr := ⟨⟨0, 0, 0, 0, 0⟩, ⟨0, 512, 0⟩⟩

theorem copyComponentToMemory_comes_iff_selfLinkedDisk :
    Comes (copyComponentToMemory unboundedTarget selfLinkedDisk selfLink) ↔
      (∀ ptr, Meets unboundedTarget selfLinkedDisk selfLink ptr →
        ¬ RunsOffDevice unboundedTarget selfLinkedDisk ptr) ∧
        NoSlotTwice unboundedTarget selfLinkedDisk selfLink :=
  copyComponentToMemory_comes_iff unboundedTarget selfLinkedDisk selfLink rfl rfl (by decide)

theorem selfLinkedDisk_read :
    readOutcome unboundedTarget selfLinkedDisk selfLink =
      some (.ok (selfLinkedDisk.dev.slice 0 512)) :=
  readOutcome_of_reliable rfl (Device.ofContent_reliable _ _) rfl ⟨rfl, by decide⟩ (by decide)

theorem selfLinkedDisk_slot {k : Nat} (hk : k < 32) :
    slot unboundedTarget selfLinkedDisk (selfLinkedDisk.dev.slice 0 512) k = selfLink := by
  have hslot : slot unboundedTarget selfLinkedDisk (selfLinkedDisk.dev.slice 0 512) k =
      readPackedBlockptr unboundedTarget selfLinkedDisk
        (selfLinkedDisk.dev.slice (0 + k * 16) 16) :=
    slot_slice (by show (k + 1) * 16 ≤ 512; omega)
  have hbytes : selfLinkedDisk.dev.slice (0 + k * 16) 16 =
      (List.range 16).map fun i => if i = 8 then 2 else 0 := by
    refine List.map_congr_left fun i hi => ?_
    have hi := List.mem_range.mp hi
    show (if (0 + k * 16 + i) % 16 = 8 then _ else _) = _
    exact if_congr (by omega) rfl rfl
  rw [hslot, hbytes]
  rfl

theorem selfLinkedDisk_next {k : Nat} (hk : k < 31) :
    nextSlot unboundedTarget selfLinkedDisk (selfLinkedDisk.dev.slice 0 512, k) =
      some (selfLinkedDisk.dev.slice 0 512, (k + 1) % 31) := by
  have hcount : slotCount selfLinkedDisk (selfLinkedDisk.dev.slice 0 512) = 32 := by
    rw [slotCount, Device.slice_length]
    rfl
  have hnull : blockptrIsNull unboundedTarget selfLinkedDisk selfLink = false := by decide
  unfold nextSlot advance
  rw [selfLinkedDisk_slot (show k < 32 by omega), selfLinkedDisk_slot (show k + 1 < 32 by omega),
    loadOutcome_of_unbounded rfl, selfLinkedDisk_read, hnull, hcount]
  by_cases hlast : k + 1 = 31
  · simp [hlast, Prog.Outcome.map, selfLinkedDisk_slot, hnull]
  · simp [hlast, Nat.mod_eq_of_lt (show k + 1 < 31 by omega)]

/-- **On a block filled with pointers to itself the walk never ends.** -/
theorem selfLinkedDisk_never_comes :
    ¬ Comes (copyComponentToMemory unboundedTarget selfLinkedDisk selfLink) := by
  have horbit : ∀ n, orbit (nextSlot unboundedTarget selfLinkedDisk)
      (selfLinkedDisk.dev.slice 0 512, 0) n =
        some (selfLinkedDisk.dev.slice 0 512, n % 31) := by
    intro n
    induction n with
    | zero => rfl
    | succ n ih =>
      rw [Orbit.orbit, ih, Option.bind_some, selfLinkedDisk_next (Nat.mod_lt n (by decide)),
        Nat.mod_add_mod]
  exact not_comes_of_orbit rfl rfl (by decide) selfLinkedDisk_read fun n => by
    rw [horbit n]
    simp

end Sysload.Bootmap
