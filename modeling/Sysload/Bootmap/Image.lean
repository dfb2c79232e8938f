import Sysload.Bootmap.Initrd
import Sysload.Loader.Boots

/-!
# What a boot map boots (`bootmap_common.c`)

`boot_bootmap_disk` follows pointers on a disk, from the program table over a component table and
chains of segment tables, into local files and a command line, and calls `kexec` with them. `ObjectsBooted`
says what that call is in terms of the disk: which tables are there, which bytes the components are
made of, and what becomes of these bytes.

Source: `src/core/bootmap_common.c`, `boot_bootmap_disk` and the functions it calls; the definitions
here are not translated from it. Out of scope is what `kexec` makes of the files.

Results:
* `copyComponentToMemory_ok_iff`: the function returns the bytes of the components of a disk, and
  nothing else.
* `readKernelComponent_ok_iff`, `readInitrdComponent_ok_iff`: when the files are written, and what is
  in them.
* **`bootBootmapDisk_boots_iff`**: what is booted is what the boot map describes, exactly.
-/

namespace Sysload.Bootmap

open Memory
open Comp (Pass)

variable (t : Target) (os : Os) (disk : Disk)

/-! ## The bytes of a component -/

/-- The component that this pointer leads to is made of these bytes: the walk through its segment
tables ends, all of the segments on it can be read, and their total length fits into an `int`. -/
def ComponentBytes (ptr : DiskBlockptr) (bytes : List UInt8) : Prop :=
  ∃ table segs, readOutcome t disk ptr = some (.ok table) ∧ Path t disk table 0 segs ∧
    (∀ p ∈ segs, ∃ segment, readOutcome t disk p = some (.ok segment)) ∧
    t.fits ((segs.map (rangeBytes disk)).sum) = true ∧ bytes = segs.flatMap (segmentBytes disk)

variable {t os disk}

theorem segments_length (segs : List DiskBlockptr) :
    (segs.flatMap (segmentBytes disk)).length = (segs.map (rangeBytes disk)).sum := by
  induction segs with
  | nil => rfl
  | cons p segs ih =>
    rw [List.flatMap_cons, List.length_append, ih, List.map_cons, List.sum_cons, segmentBytes,
      Device.slice_length]

/-- What a pass that returns has done. -/
theorem walkPass_gives_ok (h : disk.type.supported = true) (hsize : 512 ≤ disk.phyBlockSize)
    {table : List UInt8} {entry : Nat} (hin : BeforeLast disk table entry) {buffer : List UInt8}
    {p : Pass Walk (List UInt8 × Nat)}
    (hpass : (walkPass t disk (walkAt t disk table entry buffer)).Gives (.ok p)) :
    ∃ next, t.fits (buffer.length + rangeBytes disk (slot t disk table entry)) = true ∧
      (∃ segment, readOutcome t disk (slot t disk table entry) = some (.ok segment)) ∧
      advance t disk table entry = some (.ok next) ∧
      passEnd t disk (buffer ++ segmentBytes disk (slot t disk table entry)) next = p := by
  have hout := (walkPass_comesTo h hsize hin buffer _).mp hpass
  obtain ⟨bytes, hload, hend⟩ := Prog.Outcome.bind_eq_ok.mp hout
  obtain ⟨next, hadvance, hend⟩ := Prog.Outcome.map_eq_ok.mp hend
  obtain ⟨hfits, hread⟩ := loadOutcome_eq_ok.mp hload
  have hbytes : bytes = segmentBytes disk (slot t disk table entry) :=
    (readOutcome_eq_ok h hread).2.2.1
  exact ⟨next, hfits, ⟨bytes, hread⟩, hadvance, hbytes ▸ hend⟩

/-- **A walk that ends was a path**, and has loaded its segments. -/
theorem path_of_loop (h : disk.type.supported = true) (hsize : 512 ≤ disk.phyBlockSize)
    {w : Walk} {r : Except Stop (List UInt8 × Nat)} (hr : (Prog.loop (walkPass t disk) w).Gives r) :
    ∀ table entry buffer bytes n, BeforeLast disk table entry → w = walkAt t disk table entry buffer →
      r = .ok (bytes, n) → ∃ segs, Path t disk table entry segs ∧
        (∀ p ∈ segs, ∃ segment, readOutcome t disk p = some (.ok segment)) ∧
        t.fits bytes.length = true ∧ bytes = buffer ++ segs.flatMap (segmentBytes disk) := by
  refine Prog.loop_induction (motive := fun w r => ∀ table entry buffer bytes n,
    BeforeLast disk table entry → w = walkAt t disk table entry buffer → r = .ok (bytes, n) →
      ∃ segs, Path t disk table entry segs ∧
        (∀ p ∈ segs, ∃ segment, readOutcome t disk p = some (.ok segment)) ∧
        t.fits bytes.length = true ∧ bytes = buffer ++ segs.flatMap (segmentBytes disk)) ?_ ?_ ?_ hr
  · rintro w a hdone table entry buffer bytes n hin rfl heq
    cases heq
    obtain ⟨next, hfits, hread, hadvance, hend⟩ := walkPass_gives_ok h hsize hin hdone
    cases next with
    | none =>
      cases hend
      refine ⟨_, Path.last hadvance, fun p hp => List.mem_singleton.mp hp ▸ hread, ?_, by simp⟩
      rwa [List.length_append, segmentBytes, Device.slice_length]
    | some next => cases hend
  · exact fun w e _ table entry buffer bytes n _ _ heq => by cases heq
  · rintro w w' r hnext ih table entry buffer bytes n hin rfl heq
    obtain ⟨next, _, hread, hadvance, hend⟩ := walkPass_gives_ok h hsize hin hnext
    cases next with
    | none => cases hend
    | some next =>
      cases hend
      obtain ⟨segs, hpath, hreads, hfits, hbytes⟩ := ih next.1 next.2 _ bytes n
        (advance_beforeLast h hsize hin hadvance) rfl heq
      refine ⟨_, Path.next hadvance hpath, ?_, hfits, ?_⟩
      · rintro p (_ | ⟨_, hp⟩)
        · exact hread
        · exact hreads p hp
      · rw [hbytes, List.flatMap_cons, List.append_assoc]

/-- **What the function returns** are the bytes of a component of the disk. -/
theorem copyComponentToMemory_ok_iff (h : disk.type.supported = true)
    (hsize : 512 ≤ disk.phyBlockSize) {ptr : DiskBlockptr} {bytes : List UInt8} {n : Nat} :
    (copyComponentToMemory t disk ptr).Gives (.ok (bytes, n)) ↔
      ComponentBytes t disk ptr bytes ∧ n = bytes.length := by
  constructor
  · intro hcopy
    refine ⟨?_, copyComponentToMemory_size h hsize hcopy⟩
    obtain ⟨table, hload, hloop⟩ | ⟨e, _, hbad⟩ := (copyComponentToMemory_gives h hsize ptr).mp hcopy
    · have hread := (loadOutcome_eq_ok.mp hload).2
      obtain ⟨segs, hpath, hreads, hfits, rfl⟩ := path_of_loop h hsize hloop table 0 [] bytes n
        (beforeLast_of_read h hsize hread) rfl rfl
      rw [List.nil_append, segments_length] at hfits
      exact ⟨table, segs, hread, hpath, hreads, hfits, rfl⟩
    · cases hbad
  · rintro ⟨⟨table, segs, hread, hpath, hreads, hfits, rfl⟩, rfl⟩
    have hloop := path_comesTo h hsize hpath (beforeLast_of_read h hsize hread) hreads []
    unfold assembled at hloop
    rw [List.length_nil, Nat.zero_add, if_pos hfits, List.nil_append, ← segments_length] at hloop
    exact (copyComponentToMemory_gives h hsize ptr).mpr
      (Or.inl ⟨table, loadOutcome_of_read h hread, (hloop _).mpr rfl⟩)

/-- **A path is a chain of segment tables**, whose first pointers were passed before. -/
theorem Path.chain (h : disk.type.supported = true) (hsize : 512 ≤ disk.phyBlockSize)
    {table : List UInt8} {entry : Nat} {segs : List DiskBlockptr}
    (hpath : Path t disk table entry segs) (hin : BeforeLast disk table entry) {ptr : DiskBlockptr}
    (hread : readOutcome t disk ptr = some (.ok table))
    (hcode : ∀ k < entry + 1, blockptrIsNull t disk (slot t disk table k) = false) :
    SegmentChain t disk ptr ((List.range entry).map (slot t disk table) ++ segs) := by
  have hrange : ∀ (table : List UInt8) (entry : Nat) (rest : List DiskBlockptr),
      (List.range entry).map (slot t disk table) ++ slot t disk table entry :: rest =
        (List.range (entry + 1)).map (slot t disk table) ++ rest := by
    intro table entry rest
    rw [List.range_succ, List.map_append, List.map_singleton, List.append_assoc,
      List.singleton_append]
  -- the last slot before the link pointer
  have hlink : ∀ {table : List UInt8} {entry : Nat} {ptr : DiskBlockptr} {rest : List DiskBlockptr},
      readOutcome t disk ptr = some (.ok table) →
      (∀ k < entry + 1, blockptrIsNull t disk (slot t disk table k) = false) →
      blockptrIsNull t disk (slot t disk table (entry + 1)) = false →
      entry + 1 = slotCount disk table - 1 →
      SegmentChain t disk (slot t disk table (entry + 1)) rest →
      SegmentChain t disk ptr ((List.range (entry + 1)).map (slot t disk table) ++ rest) := by
    intro table entry ptr rest hread hcode hnull hlast hrest
    rw [hlast] at hrest hnull hcode ⊢
    refine SegmentChain.link hread (fun k hk => ?_) hrest
    rcases Nat.lt_or_ge k (slotCount disk table - 1) with hlt | hge
    · exact hcode k hlt
    · rwa [show k = slotCount disk table - 1 by omega]
  induction hpath generalizing ptr with
  | @last table entry hadv =>
    rw [hrange, List.append_nil]
    unfold advance at hadv
    split at hadv
    · rename_i hnull
      exact SegmentChain.last hread hin hcode hnull
    · rename_i hnull
      split at hadv
      · rename_i hlast
        obtain ⟨table', hload, hif⟩ := Prog.Outcome.map_eq_ok.mp hadv
        split at hif
        · rename_i hempty
          have hread' := (loadOutcome_eq_ok.mp hload).2
          have hin' := beforeLast_of_read h hsize hread'
          have hend := SegmentChain.last hread' (Nat.lt_of_succ_lt hin')
            (fun k hk => absurd hk (Nat.not_lt_zero k)) hempty
          have hchain := hlink hread hcode (Bool.eq_false_of_not_eq_true hnull) hlast hend
          rwa [List.range_zero, List.map_nil, List.append_nil] at hchain
        · cases hif
      · cases hadv
  | @next table table' entry entry' ptrs hadv hpath ih =>
    have hin' := advance_beforeLast h hsize hin hadv
    rw [hrange]
    unfold advance at hadv
    split at hadv
    · cases hadv
    · rename_i hnull
      have hnull := Bool.eq_false_of_not_eq_true hnull
      split at hadv
      · rename_i hlast
        obtain ⟨table₁, hload, hif⟩ := Prog.Outcome.map_eq_ok.mp hadv
        split at hif
        · cases hif
        · rename_i hfirst
          cases hif
          refine hlink hread hcode hnull hlast ?_
          have hchain := ih hin' (loadOutcome_eq_ok.mp hload).2 fun k hk => ?_
          · rwa [List.range_zero, List.map_nil, List.nil_append] at hchain
          · rw [show k = 0 by omega]
            exact Bool.eq_false_of_not_eq_true hfirst
      · cases hadv
        refine ih hin' hread fun k hk => ?_
        rcases Nat.lt_or_ge k (entry + 1) with hlt | hge
        · exact hcode k hlt
        · rwa [show k = entry + 1 by omega]

/-- **A component is a chain of segment tables**, if its first pointer is not null: `do-while` takes
that for a segment without a test. -/
theorem componentBytes_iff_chain (h : disk.type.supported = true) (hsize : 512 ≤ disk.phyBlockSize)
    {ptr : DiskBlockptr} {table bytes : List UInt8}
    (hread : readOutcome t disk ptr = some (.ok table))
    (hfirst : blockptrIsNull t disk (slot t disk table 0) = false) :
    ComponentBytes t disk ptr bytes ↔ ∃ segs, SegmentChain t disk ptr segs ∧
      (∀ p ∈ segs, ∃ segment, readOutcome t disk p = some (.ok segment)) ∧
      t.fits ((segs.map (rangeBytes disk)).sum) = true ∧ bytes = segs.flatMap (segmentBytes disk) := by
  constructor
  · rintro ⟨table', segs, hread', hpath, hreads, hfits, rfl⟩
    obtain rfl := Except.ok.inj (Option.some.inj (hread.symm.trans hread'))
    have hchain := hpath.chain h hsize (beforeLast_of_read h hsize hread) hread fun k hk => by
      rwa [show k = 0 by omega]
    rw [List.range_zero, List.map_nil, List.nil_append] at hchain
    exact ⟨segs, hchain, hreads, hfits, rfl⟩
  · rintro ⟨segs, hchain, hreads, hfits, rfl⟩
    obtain ⟨table', hread', ⟨hnull, _⟩ | ⟨_, hpath⟩⟩ := hchain.path h hsize
    · obtain rfl := Except.ok.inj (Option.some.inj (hread.symm.trans hread'))
      exact absurd (hfirst.symm.trans hnull) (by simp)
    · exact ⟨table', segs, hread', hpath, hreads, hfits, rfl⟩

/-! ## The kernel file -/

/-- The kernel file of a boot map: the header that zipl has removed, and the component. -/
def kernelImage (bytes : List UInt8) : LocalFile :=
  ⟨List.replicate kernelHeaderSize nul ++ chars bytes, none, none⟩

variable (os) in
/-- The kernel file can be written, every integer of its header and what is behind it. -/
structure KernelWritable : Prop where
  creat : os.creat sysloadFilenameKernel = none
  write : ∀ k ≤ kernelHeaderSize / 4, os.write sysloadFilenameKernel (4 * k) = none
  close : os.close sysloadFilenameKernel = none

theorem writeKernelHeader_ok_iff (s : Sys) :
    ∀ (n : Nat) {data : List Char} {s' : Sys},
      (writeKernelHeader os n).Runs (s.put sysloadFilenameKernel (some ⟨data, none, none⟩)) (.ok ())
          s' ↔
        (∀ k < n, os.write sysloadFilenameKernel (data.length + 4 * k) = none) ∧
          s' = s.put sysloadFilenameKernel
            (some ⟨data ++ List.replicate (4 * n) nul, none, none⟩)
  | 0, data, s' => by
    rw [writeKernelHeader, Routine.runs_pure, Nat.mul_zero, List.replicate_zero, List.append_nil]
    exact ⟨fun h => ⟨fun k hk => absurd hk (Nat.not_lt_zero k), h.2.symm⟩, fun h => ⟨rfl, h.2.symm⟩⟩
  | n + 1, data, s' => by
    have hdata : data ++ List.replicate 4 nul ++ List.replicate (4 * n) nul =
        data ++ List.replicate (4 * (n + 1)) nul := by
      rw [List.append_assoc, List.replicate_append_replicate]
      congr 2
      omega
    rw [writeKernelHeader, Routine.runs_bind_ok]
    simp only [writeOrUnlink_ok_iff, Sys.put_fileSize, Sys.put_append]
    constructor
    · rintro ⟨_, _, ⟨hfirst, rfl⟩, hrest⟩
      obtain ⟨hwrite, rfl⟩ := (writeKernelHeader_ok_iff s n).mp hrest
      refine ⟨fun k hk => ?_, by rw [hdata]⟩
      cases k with
      | zero => exact hfirst
      | succ k =>
        have hk := hwrite k (Nat.lt_of_succ_lt_succ hk)
        rwa [List.length_append, List.length_replicate, Nat.add_assoc,
          show 4 + 4 * k = 4 * (k + 1) by omega] at hk
    · rintro ⟨hwrite, rfl⟩
      refine ⟨(), _, ⟨hwrite 0 (Nat.succ_pos n), rfl⟩,
        (writeKernelHeader_ok_iff s n).mpr ⟨fun k hk => ?_, by rw [hdata]⟩⟩
      rw [List.length_append, List.length_replicate, Nat.add_assoc,
        show 4 + 4 * k = 4 * (k + 1) by omega]
      exact hwrite (k + 1) (Nat.succ_lt_succ hk)

/-- **When the kernel file is written**, and what it is. -/
theorem readKernelComponent_ok_iff (h : disk.type.supported = true)
    (hsize : 512 ≤ disk.phyBlockSize) {kernel : DiskBlockptr} {s s' : Sys} :
    (readKernelComponent t os disk kernel).Runs s (.ok ()) s' ↔
      KernelWritable os ∧ ∃ bytes, ComponentBytes t disk kernel bytes ∧
        s' = s.put sysloadFilenameKernel (some (kernelImage bytes)) := by
  have hheader : 4 * (kernelHeaderSize / 4) = kernelHeaderSize := by decide
  have hsucc : ∀ k, k ≤ kernelHeaderSize / 4 ↔ k < kernelHeaderSize / 4 ∨ k = kernelHeaderSize / 4 :=
    fun k => Nat.le_iff_lt_or_eq
  unfold readKernelComponent
  simp only [Routine.runs_bind_ok, creat_ok_iff, Routine.runs_lift, closeOrUnlink_ok_iff]
  constructor
  · rintro ⟨_, _, ⟨hcreat, rfl⟩, _, _, hheaderRun, ⟨bytes, n⟩, _, ⟨hcopy, rfl⟩, _, _, hwriteRun,
      hclose, rfl⟩
    obtain ⟨hwrites, rfl⟩ := (writeKernelHeader_ok_iff s _).mp hheaderRun
    obtain ⟨hwrite, rfl⟩ := writeOrUnlink_ok_iff.mp hwriteRun
    obtain ⟨hbytes, _⟩ := (copyComponentToMemory_ok_iff h hsize).mp hcopy
    rw [List.nil_append, hheader] at hwrite
    rw [Sys.put_fileSize, List.length_replicate] at hwrite
    refine ⟨⟨hcreat, fun k hk => ?_, hclose⟩, bytes, hbytes, ?_⟩
    · rcases (hsucc k).mp hk with hlt | rfl
      · have hk := hwrites k hlt
        rwa [List.length_nil, Nat.zero_add] at hk
      · rwa [hheader]
    · rw [Sys.put_append, List.nil_append, hheader]
      rfl
  · rintro ⟨⟨hcreat, hwrite, hclose⟩, bytes, hbytes, rfl⟩
    refine ⟨(), _, ⟨hcreat, rfl⟩, (), _, (writeKernelHeader_ok_iff s _).mpr ⟨fun k hk => ?_, rfl⟩,
      (bytes, bytes.length), _, ⟨(copyComponentToMemory_ok_iff h hsize).mpr ⟨hbytes, rfl⟩, rfl⟩,
      (), _, writeOrUnlink_ok_iff.mpr ⟨?_, rfl⟩, hclose, ?_⟩
    · rw [List.length_nil, Nat.zero_add]
      exact hwrite k (Nat.le_of_lt hk)
    · rw [Sys.put_fileSize, List.nil_append, List.length_replicate]
      exact hwrite _ (Nat.le_refl _)
    · rw [Sys.put_append, List.nil_append, hheader]
      rfl

/-! ## The initrd file -/

theorem unlinkAndFail_not_ok {α : Type} {path errmsg : String} {s s' : Sys} {a : α} :
    ¬ (unlinkAndFail path errmsg : SysM α).Runs s (.ok a) s' := by
  intro hrun
  obtain ⟨_, _, _, hthrow⟩ := Routine.runs_bind_ok.mp hrun
  exact absurd (Routine.runs_throw.mp hthrow).1 (by simp)

/-- **When the initrd file is written**, and what it is. -/
theorem readInitrdComponent_ok_iff (h : disk.type.supported = true)
    (hsize : 512 ≤ disk.phyBlockSize) {initrd : DiskBlockptr} {initrdLen : Int} {s s' : Sys} :
    (readInitrdComponent t os disk initrd initrdLen).Runs s (.ok ()) s' ↔
      os.creat sysloadFilenameInitrd = none ∧ ∃ bytes, ComponentBytes t disk initrd bytes ∧
        ¬ InitrdFails os bytes.length initrdLen ∧
        s' = s.put sysloadFilenameInitrd
          (some ⟨(chars bytes).take initrdLen.toNat, none, none⟩) := by
  unfold readInitrdComponent InitrdFails
  simp only [Routine.runs_bind_ok, creat_ok_iff, Routine.runs_lift]
  constructor
  · rintro ⟨_, _, ⟨hcreat, rfl⟩, copied, _, ⟨hcopy, rfl⟩, hrest⟩
    cases copied with
    | error errmsg => exact absurd hrest unlinkAndFail_not_ok
    | ok copied =>
      obtain ⟨bytes, n⟩ := copied
      obtain ⟨hbytes, rfl⟩ := (copyComponentToMemory_ok_iff h hsize).mp (attempt_ok.mp hcopy)
      refine ⟨hcreat, bytes, hbytes, ?_⟩
      dsimp only at hrest
      by_cases hlong : (bytes.length : Int) < initrdLen
      · rw [if_pos hlong] at hrest
        obtain ⟨_, _, hfail, _⟩ := Routine.runs_bind_ok.mp hrest
        exact absurd hfail unlinkAndFail_not_ok
      · rw [if_neg hlong] at hrest
        by_cases hneg : initrdLen < 0
        · have hzero : initrdLen.toNat = 0 := Int.toNat_eq_zero.mpr (by omega)
          rw [if_pos hneg] at hrest
          by_cases hminus : initrdLen = -1
          · rw [if_neg (not_not.mpr hminus)] at hrest
            obtain ⟨hclose, rfl⟩ := closeOrUnlink_ok_iff.mp hrest
            exact ⟨by simp [hminus, hclose], by rw [hzero, List.take_zero]⟩
          · rw [if_pos hminus] at hrest
            obtain ⟨_, _, hfail, _⟩ := Routine.runs_bind_ok.mp hrest
            exact absurd hfail unlinkAndFail_not_ok
        · rw [if_neg hneg] at hrest
          obtain ⟨_, _, hwriteRun, hcloseRun⟩ := Routine.runs_bind_ok.mp hrest
          obtain ⟨hwrite, rfl⟩ := writeOrUnlink_ok_iff.mp hwriteRun
          obtain ⟨hclose, rfl⟩ := closeOrUnlink_ok_iff.mp hcloseRun
          rw [Sys.put_fileSize, List.length_nil] at hwrite
          exact ⟨by simp [hlong, hneg, hwrite, hclose], by rw [Sys.put_append, List.nil_append]⟩
  · rintro ⟨hcreat, bytes, hbytes, hok, rfl⟩
    simp only [not_or, not_and, not_not] at hok
    obtain ⟨hlong, hminus, hwrite, hclose⟩ := hok
    refine ⟨(), _, ⟨hcreat, rfl⟩, .ok (bytes, bytes.length), _,
      ⟨attempt_ok.mpr ((copyComponentToMemory_ok_iff h hsize).mpr ⟨hbytes, rfl⟩), rfl⟩, ?_⟩
    dsimp only
    rw [if_neg hlong]
    by_cases hneg : initrdLen < 0
    · have hzero : initrdLen.toNat = 0 := Int.toNat_eq_zero.mpr (by omega)
      rw [if_pos hneg, if_neg (not_not.mpr (hminus hneg)), hzero, List.take_zero]
      exact closeOrUnlink_ok_iff.mpr ⟨hclose, rfl⟩
    · rw [if_neg hneg]
      refine Routine.runs_bind_ok.mpr ⟨(), _, writeOrUnlink_ok_iff.mpr ⟨?_, rfl⟩,
        closeOrUnlink_ok_iff.mpr ⟨hclose, ?_⟩⟩
      · rw [Sys.put_fileSize, List.length_nil]
        exact hwrite (by omega)
      · rw [Sys.put_append, List.nil_append]

/-! ## What is booted -/

variable (t os disk)

/-- The initrd file: the first `initrd_len` bytes of the initrd component, if there is one. -/
def InitrdStep (objects : BootObjects) (s : Sys) (initrd : String) (s' : Sys) : Prop :=
  if blockptrIsNull t disk objects.initrd = true then initrd = "" ∧ s' = s
  else initrd = sysloadFilenameInitrd ∧ os.creat sysloadFilenameInitrd = none ∧
    ∃ bytes, ComponentBytes t disk objects.initrd bytes ∧
      ¬ InitrdFails os bytes.length objects.initrdLen ∧
      s' = s.put sysloadFilenameInitrd
        (some ⟨(chars bytes).take objects.initrdLen.toNat, none, none⟩)

/-- The command line of the boot map: the parmfile component up to its first NUL, if there is
one. -/
def MapCmdline (objects : BootObjects) (cmdline : CStr) : Prop :=
  if blockptrIsNull t disk objects.parmfile = true then cmdline = []
  else ∃ bytes, ComponentBytes t disk objects.parmfile bytes ∧ cmdline = cstr (chars bytes).dropLast

/-- The call of `kexec` with these boot objects. -/
inductive ObjectsBooted (boot : CfgBentry) (objects : BootObjects) (s : Sys) : KexecCall → Prop
  | booted {kernel : List UInt8} {initrd : String} {cmdline extraCmdline : CStr} {s₁ s₂ : Sys}
      (writable : KernelWritable os) (kernelBytes : ComponentBytes t disk objects.kernel kernel)
      (initrdStep : InitrdStep t os disk objects
        (s.put sysloadFilenameKernel (some (kernelImage kernel))) initrd s₁)
      (mapCmdline : MapCmdline t disk objects cmdline)
      (configCmdline : CmdlineStep os boot s₁ extraCmdline s₂) :
      ObjectsBooted boot objects s
        ⟨sysloadFilenameKernel, initrd, cmdline ++ [' '] ++ extraCmdline, s.call, s₂.files⟩

/-- A block with a table. -/
def TableBlock (ptr : DiskBlockptr) (block : List UInt8) : Prop :=
  getBlockptrBlockct disk ptr = 0 ∧ readOutcome t disk ptr = some (.ok block) ∧
    peek os.beyond block 0 4 = magic

/-- The components of a program: its entry in the program table points to a component table for
list-directed IPL. -/
inductive ProgramOn (program : Int) : List Component → Prop
  | intro {programBlock block : List UInt8} {table : ComponentTable}
      (range : 0 ≤ program ∧ program < getProgramTableSize disk)
      (programTable : TableBlock t os disk disk.programTablePtr programBlock)
      (notEmpty : blockptrIsNull t disk
        ((decodeProgramTable t os.beyond disk programBlock).getD program.toNat .zero) = false)
      (componentTable : TableBlock t os disk
        ((decodeProgramTable t os.beyond disk programBlock).getD program.toNat .zero) block)
      (decoded : decodeComponentTable t os.beyond disk block = .ok table)
      (ipl : table.opt = componentHeaderIpl) : ProgramOn program table.components

/-- The boot objects of a component table: those that the stage 3 loader before the execute component
names, among the components before that. -/
inductive ObjectsOf (components : List Component) : BootObjects → Prop
  | intro {n : Nat} {stage3 loader : Component} {bytes : List UInt8} {objects : BootObjects}
      (stage3At : Stage3At components n stage3 loader) (notWait : stage3.address ≠ pswDisabledWait)
      (loaderBytes : ComponentBytes t disk loader.segmentPtr bytes)
      (found : lookupBootObjects (components.take (n + 1)) (stage3Params t os bytes) =
        (none, objects)) : ObjectsOf components objects

variable {t os disk}

theorem noKexec_writeKernelHeader : ∀ n, NoKexec (writeKernelHeader os n)
  | 0 => noKexec_pure _
  | n + 1 => (noKexec_writeOrUnlink _ _ _).bind fun _ => noKexec_writeKernelHeader n

theorem noKexec_readKernelComponent (kernel : DiskBlockptr) :
    NoKexec (readKernelComponent t os disk kernel) :=
  (noKexec_creat _ _).bind fun _ => (noKexec_writeKernelHeader _).bind fun _ =>
    (noKexec_lift _).bind fun _ => (noKexec_writeOrUnlink _ _ _).bind fun _ =>
      noKexec_closeOrUnlink _ _

theorem noKexec_unlinkAndFail {α : Type} (path errmsg : String) :
    NoKexec (unlinkAndFail path errmsg : SysM α) :=
  (noKexec_modify (f := fun s => s.unlink path) fun _ => ⟨rfl, rfl⟩).bind fun _ => noKexec_throw _

theorem noKexec_readInitrdComponent (initrd : DiskBlockptr) (initrdLen : Int) :
    NoKexec (readInitrdComponent t os disk initrd initrdLen) := by
  refine (noKexec_creat _ _).bind fun _ => (noKexec_lift _).bind fun copied => ?_
  cases copied with
  | error errmsg => exact noKexec_unlinkAndFail _ _
  | ok copied =>
    dsimp only
    split
    · exact (noKexec_unlinkAndFail _ _).bind fun _ => by
        split
        · split
          · exact (noKexec_unlinkAndFail _ _).bind fun _ => noKexec_closeOrUnlink _ _
          · exact noKexec_closeOrUnlink _ _
        · exact (noKexec_writeOrUnlink _ _ _).bind fun _ => noKexec_closeOrUnlink _ _
    · split
      · split
        · exact (noKexec_unlinkAndFail _ _).bind fun _ => noKexec_closeOrUnlink _ _
        · exact noKexec_closeOrUnlink _ _
      · exact (noKexec_writeOrUnlink _ _ _).bind fun _ => noKexec_closeOrUnlink _ _

theorem noKexec_prepareConfigCommandLine (boot : CfgBentry) :
    NoKexec (prepareConfigCommandLine os boot) := by
  unfold prepareConfigCommandLine
  split
  · refine (noKexec_compLoad _ _).bind fun loaded => ?_
    rcases loaded with (_ | tmpMsg) | _
    · exact noKexec_throw _
    · exact noKexec_throw _
    · exact noKexec_composeCommandline _ _
  · exact noKexec_pure _

theorem prepareConfigCommandLine_ok_iff {boot : CfgBentry} {s s' : Sys} {cmdline : CStr} :
    (prepareConfigCommandLine os boot).Runs s (.ok cmdline) s' ↔
      CmdlineStep os boot s cmdline s' := by
  unfold prepareConfigCommandLine
  by_cases hparmfile : boot.parmfile = []
  · rw [if_neg (not_not.mpr hparmfile), Routine.runs_pure, CmdlineStep, if_pos hparmfile]
    exact ⟨fun h => ⟨(Except.ok.inj h.1).symm, h.2.symm⟩, fun h => ⟨h.1 ▸ rfl, h.2.symm⟩⟩
  · rw [if_pos hparmfile]
    refine cmdlineStep_iff rfl (fun errmsg s cmdline s' hrun => ?_) hparmfile
    cases errmsg <;> exact absurd (Routine.runs_throw.mp hrun).1 (by simp)

theorem readParmfileComponent_ok_iff (h : disk.type.supported = true)
    (hsize : 512 ≤ disk.phyBlockSize) {parmfile : DiskBlockptr} {cmdline : CStr} :
    (readParmfileComponent t disk parmfile).Gives (.ok cmdline) ↔
      ∃ bytes, ComponentBytes t disk parmfile bytes ∧ cmdline = cstr (chars bytes).dropLast := by
  unfold readParmfileComponent
  rw [Prog.gives_bind_eq_ok]
  constructor
  · rintro ⟨⟨bytes, n⟩, hcopy, hpure⟩
    exact ⟨bytes, ((copyComponentToMemory_ok_iff h hsize).mp hcopy).1,
      (Except.ok.inj (Prog.gives_pure.mp hpure)).symm⟩
  · rintro ⟨bytes, hbytes, rfl⟩
    exact ⟨(bytes, bytes.length), (copyComponentToMemory_ok_iff h hsize).mpr ⟨hbytes, rfl⟩,
      Prog.gives_pure.mpr rfl⟩

/-- What is booted of the boot objects once kernel and initrd are copied. -/
theorem boots_cmdline_iff (h : disk.type.supported = true) (hsize : 512 ≤ disk.phyBlockSize)
    {boot : CfgBentry} {objects : BootObjects} {initrd : String} {s : Sys} {k : KexecCall} :
    Boots (do
      let cmdline ←
        if blockptrIsNull t disk objects.parmfile = false then
          Routine.lift (readParmfileComponent t disk objects.parmfile)
        else pure []
      let extraCmdline ← prepareConfigCommandLine os boot
      kexec os sysloadFilenameKernel initrd (cmdline ++ [' '] ++ extraCmdline) : SysM Unit) s k ↔
      ∃ cmdline extraCmdline s', MapCmdline t disk objects cmdline ∧
        CmdlineStep os boot s extraCmdline s' ∧
        k = ⟨sysloadFilenameKernel, initrd, cmdline ++ [' '] ++ extraCmdline, s'.call, s'.files⟩ := by
  have hrest : ∀ cmdline, Boots (do
      let extraCmdline ← prepareConfigCommandLine os boot
      kexec os sysloadFilenameKernel initrd (cmdline ++ [' '] ++ extraCmdline) : SysM Unit) s k ↔
      ∃ extraCmdline s', CmdlineStep os boot s extraCmdline s' ∧
        k = ⟨sysloadFilenameKernel, initrd, cmdline ++ [' '] ++ extraCmdline, s'.call, s'.files⟩ := by
    intro cmdline
    simp only [boots_bind (noKexec_prepareConfigCommandLine boot), prepareConfigCommandLine_ok_iff,
      boots_kexec]
  unfold MapCmdline
  cases hnull : blockptrIsNull t disk objects.parmfile with
  | true =>
    simp only [Bool.true_eq_false, if_false, pure_bind, hrest, if_true]
    exact ⟨fun ⟨extra, s', hstep, hk⟩ => ⟨[], extra, s', rfl, hstep, hk⟩,
      fun ⟨_, extra, s', hnil, hstep, hk⟩ => ⟨extra, s', hstep, hnil ▸ hk⟩⟩
  | false =>
    simp only [if_true, boots_lift_bind, hrest, readParmfileComponent_ok_iff h hsize,
      Bool.false_eq_true, if_false]
    exact ⟨fun ⟨cmdline, hmap, extra, s', hstep, hk⟩ => ⟨cmdline, extra, s', hmap, hstep, hk⟩,
      fun ⟨cmdline, extra, s', hmap, hstep, hk⟩ => ⟨cmdline, hmap, extra, s', hstep, hk⟩⟩

theorem initrdStep_none {objects : BootObjects} (hnull : blockptrIsNull t disk objects.initrd = true)
    {s s' : Sys} {initrd : String} :
    InitrdStep t os disk objects s initrd s' ↔ initrd = "" ∧ s' = s := by
  rw [InitrdStep, if_pos hnull]

theorem initrdStep_some (h : disk.type.supported = true) (hsize : 512 ≤ disk.phyBlockSize)
    {objects : BootObjects} (hnull : blockptrIsNull t disk objects.initrd = false) {s s' : Sys}
    {initrd : String} :
    InitrdStep t os disk objects s initrd s' ↔ initrd = sysloadFilenameInitrd ∧
      (readInitrdComponent t os disk objects.initrd objects.initrdLen).Runs s (.ok ()) s' := by
  rw [InitrdStep, if_neg (by simp [hnull]), readInitrdComponent_ok_iff h hsize]

/-- **What is booted of the boot objects.** -/
theorem bootObjects_boots_iff (h : disk.type.supported = true) (hsize : 512 ≤ disk.phyBlockSize)
    {boot : CfgBentry} {objects : BootObjects} {s : Sys} {k : KexecCall} :
    Boots (bootObjects t os disk boot objects) s k ↔ ObjectsBooted t os disk boot objects s k := by
  unfold bootObjects
  rw [boots_bind (noKexec_readKernelComponent _)]
  simp only [readKernelComponent_ok_iff h hsize]
  cases hnull : blockptrIsNull t disk objects.initrd with
  | true =>
    simp only [Bool.true_eq_false, if_false]
    constructor
    · rintro ⟨_, s₁, ⟨hwritable, kernel, hkernel, rfl⟩, hboots⟩
      obtain ⟨cmdline, extra, s₂, hmap, hstep, rfl⟩ := (boots_cmdline_iff h hsize).mp hboots
      rw [hstep.call]
      exact .booted hwritable hkernel ((initrdStep_none hnull).mpr ⟨rfl, rfl⟩) hmap hstep
    · rintro ⟨hwritable, hkernel, hinitrd, hmap, hstep⟩
      obtain ⟨rfl, rfl⟩ := (initrdStep_none hnull).mp hinitrd
      exact ⟨(), _, ⟨hwritable, _, hkernel, rfl⟩, (boots_cmdline_iff h hsize).mpr
        ⟨_, _, _, hmap, hstep, by rw [hstep.call]; rfl⟩⟩
  | false =>
    simp only [if_true, boots_bind (noKexec_readInitrdComponent _ _)]
    constructor
    · rintro ⟨_, s₁, ⟨hwritable, kernel, hkernel, rfl⟩, _, s₂, hread, hboots⟩
      obtain ⟨cmdline, extra, s₃, hmap, hstep, rfl⟩ := (boots_cmdline_iff h hsize).mp hboots
      have hinitrd := (initrdStep_some h hsize hnull).mpr ⟨rfl, hread⟩
      obtain ⟨_, _, _, _, rfl⟩ := (readInitrdComponent_ok_iff h hsize).mp hread
      rw [hstep.call]
      exact .booted hwritable hkernel hinitrd hmap hstep
    · rintro ⟨hwritable, hkernel, hinitrd, hmap, hstep⟩
      obtain ⟨rfl, hread⟩ := (initrdStep_some h hsize hnull).mp hinitrd
      refine ⟨(), _, ⟨hwritable, _, hkernel, rfl⟩, (), _, hread, (boots_cmdline_iff h hsize).mpr
        ⟨_, _, _, hmap, hstep, ?_⟩⟩
      obtain ⟨_, _, _, _, rfl⟩ := (readInitrdComponent_ok_iff h hsize).mp hread
      rw [hstep.call]
      rfl

/-! ## What is found -/

theorem gives_ok_unless {α β : Type} {c : Prop} [Decidable c] {e : Stop} {f : β → Prog Stop α}
    {x : Prog Stop α} {a : α} :
    (if c then throw e >>= f else x).Gives (.ok a) ↔ ¬ c ∧ x.Gives (.ok a) := by
  by_cases hc : c
  · rw [if_pos hc, Prog.gives_bind_eq_ok]
    exact ⟨fun ⟨_, hthrow, _⟩ => absurd (Prog.gives_throw.mp hthrow) (by simp),
      fun hx => absurd hc hx.1⟩
  · rw [if_neg hc]
    exact ⟨fun hx => ⟨hc, hx⟩, fun hx => hx.2⟩

theorem programComponents_ok_iff (h : disk.type.supported = true) {program : Int}
    {components : List Component} :
    (programComponents t os disk program).Gives (.ok components) ↔
      ProgramOn t os disk program components := by
  unfold programComponents
  simp only [gives_ok_unless, Prog.gives_bind_eq_ok, getProgramTable_gives_ok t os.beyond h,
    getComponentTable_gives_ok t os.beyond h, Prog.gives_pure, ne_eq, not_not,
    Bool.not_eq_true, Except.ok.injEq]
  constructor
  · rintro ⟨hrange, _, ⟨programBlock, hct, hread, hmagic, rfl⟩, hnull, table,
      ⟨block, hct', hread', hmagic', hdecoded⟩, _, hipl, rfl⟩
    exact .intro (by omega) ⟨hct, hread, hmagic⟩ hnull ⟨hct', hread', hmagic'⟩ hdecoded hipl
  · rintro ⟨hrange, ⟨hct, hread, hmagic⟩, hnull, ⟨hct', hread', hmagic'⟩, hdecoded, hipl⟩
    refine ⟨by omega, _, ⟨_, hct, hread, hmagic, rfl⟩, hnull, _, ⟨_, hct', hread', hmagic', hdecoded⟩,
      ?_, hipl, rfl⟩
    rw [hipl]
    decide

/-- The zero pointer leads to no component. -/
theorem not_componentBytes_zero (h : disk.type.supported = true) (bytes : List UInt8) :
    ¬ ComponentBytes t disk .zero bytes := by
  rintro ⟨table, _, hread, _⟩
  have hcheck := (readOutcome_eq_ok h hread).1
  rw [checkBlockptr_zero h] at hcheck
  cases hcheck

/-- **What the identification finds**, if it does not fail. -/
theorem identifyBootObjects_ok_iff (h : disk.type.supported = true)
    (hsize : 512 ≤ disk.phyBlockSize) {components : List Component} {objects : BootObjects} :
    (identifyBootObjects t os disk components).Gives (.ok (none, objects)) ↔
      ObjectsOf t os disk components objects := by
  constructor
  · intro hgives
    by_cases hat : ∃ n stage3 loader, Stage3At components n stage3 loader
    · obtain ⟨n, stage3, loader, hat⟩ := hat
      rw [identifyBootObjects_at hat] at hgives
      by_cases hwait : stage3.address = pswDisabledWait
      · rw [if_pos hwait] at hgives
        exact absurd (Prog.gives_pure.mp hgives) (by simp)
      · rw [if_neg hwait, Prog.gives_bind_eq_ok] at hgives
        obtain ⟨errmsg | ⟨bytes, size⟩, hcopy, hfound⟩ := hgives
        · exact absurd (Prog.gives_pure.mp hfound) (by simp)
        · have hbytes := (copyComponentToMemory_ok_iff h hsize).mp (attempt_ok.mp hcopy)
          exact .intro hat hwait hbytes.1 (Except.ok.inj (Prog.gives_pure.mp hfound))
    · rw [identifyBootObjects_none fun n stage3 loader hs => hat ⟨n, stage3, loader, hs⟩] at hgives
      exact absurd (Prog.gives_pure.mp hgives) (by simp)
  · rintro ⟨hat, hwait, hbytes, hfound⟩
    rw [identifyBootObjects_at hat, if_neg hwait, Prog.gives_bind_eq_ok]
    exact ⟨.ok (_, _), attempt_ok.mpr ((copyComponentToMemory_ok_iff h hsize).mpr ⟨hbytes, rfl⟩),
      Prog.gives_pure.mpr (congrArg _ hfound)⟩

/-- **What `boot_bootmap_disk` boots is what the boot map describes**: the components of the program's
component table, the boot objects that its stage 3 loader names, and their bytes. -/
theorem bootBootmapDisk_boots_iff (h : disk.type.supported = true) (hsize : 512 ≤ disk.phyBlockSize)
    {boot : CfgBentry} {program : Int} {s : Sys} {k : KexecCall} :
    Boots (bootBootmapDisk t os disk boot program) s k ↔
      ∃ components objects, ProgramOn t os disk program components ∧
        ObjectsOf t os disk components objects ∧ ObjectsBooted t os disk boot objects s k := by
  unfold bootBootmapDisk
  simp only [boots_lift_bind, bootObjects_boots_iff h hsize, programComponents_ok_iff h]
  constructor
  · rintro ⟨components, hprogram, ⟨result, objects⟩, hidentify, hbooted⟩
    rcases result with _ | errmsg
    · exact ⟨components, objects, hprogram, (identifyBootObjects_ok_iff h hsize).mp hidentify, hbooted⟩
    · rcases identifyBootObjects_gives hidentify with ⟨hbad, _⟩ | ⟨rfl, _⟩
      · cases hbad
      · obtain ⟨_, hkernel, _, _, _⟩ := hbooted
        exact absurd hkernel (not_componentBytes_zero h _)
  · rintro ⟨components, objects, hprogram, hobjects, hbooted⟩
    exact ⟨components, hprogram, (none, objects), (identifyBootObjects_ok_iff h hsize).mpr hobjects,
      hbooted⟩

end Sysload.Bootmap
