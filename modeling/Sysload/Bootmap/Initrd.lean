import Sysload.Bootmap.Assembly
import Sysload.Bootmap.Boot

/-!
# The length of the initrd (`bootmap_common.c`)

The stage 3 loader says how long the initrd is, in an unsigned integer of 64 bits.
`identify_boot_objects` stores it in an `int`, `read_initrd_component` compares that with the size of
the component and passes it to `write` as the count.

Source: `src/core/bootmap_common.c`, `identify_boot_objects` and `read_initrd_component`.

Results:
* `readInitrdComponent_fails`, `readInitrdComponent_writes`: what comes of any `int`.
* **`readInitrdComponent_honours_iff`**: exactly when the file is what the header says.
-/

namespace Sysload.Bootmap

open Comp (Pass)

variable {t : Target} {os : Os} {disk : Disk}

/-! ## The component -/

/-- A pass that ends goes on from what it has loaded, or is done with it. -/
theorem walkPass_ends (h : disk.type.supported = true) (hsize : 512 ≤ disk.phyBlockSize)
    {table : List UInt8} {entry : Nat} (hin : BeforeLast disk table entry) {loaded : List UInt8}
    {p : Pass Walk (List UInt8 × Nat)}
    (hpass : (walkPass t disk (walkAt t disk table entry loaded)).Gives (.ok p)) :
    ∃ buffer next, advance t disk table entry = some (.ok next) ∧ passEnd t disk buffer next = p := by
  have hout := (walkPass_comesTo h hsize hin loaded _).mp hpass
  obtain ⟨bytes, _, hend⟩ := Prog.Outcome.bind_eq_ok.mp hout
  obtain ⟨next, hadvance, hend⟩ := Prog.Outcome.map_eq_ok.mp hend
  exact ⟨_, next, hadvance, hend⟩

/-- A component is as long as its size says. -/
theorem copyComponentToMemory_size (h : disk.type.supported = true)
    (hsize : 512 ≤ disk.phyBlockSize) {ptr : DiskBlockptr} {buffer : List UInt8} {size : Nat}
    (hcopy : (copyComponentToMemory t disk ptr).Gives (.ok (buffer, size))) :
    size = buffer.length := by
  obtain ⟨table, hload, hloop⟩ | ⟨e, _, hbad⟩ :=
    (copyComponentToMemory_gives h hsize ptr).mp hcopy
  · have hin : BeforeLast disk table 0 := beforeLast_of_read h hsize (loadOutcome_eq_ok.mp hload).2
    suffices H : ∀ w r, (Prog.loop (walkPass t disk) w).Gives r →
        (∃ table entry loaded, BeforeLast disk table entry ∧ w = walkAt t disk table entry loaded) →
        ∀ b n, r = .ok (b, n) → n = b.length from
      H _ _ hloop ⟨table, 0, [], hin, rfl⟩ buffer size rfl
    intro w r hr
    refine Prog.loop_induction (motive := fun w r => (∃ table entry loaded,
      BeforeLast disk table entry ∧ w = walkAt t disk table entry loaded) →
      ∀ b n, r = .ok (b, n) → n = b.length) ?_ ?_ ?_ hr
    · rintro w a hdone ⟨table, entry, loaded, hin, rfl⟩ b n heq
      cases heq
      obtain ⟨bytes, next, _, hend⟩ := walkPass_ends h hsize hin hdone
      cases next with
      | none =>
        cases hend
        rfl
      | some next => cases hend
    · exact fun w e _ _ b n heq => by cases heq
    · rintro w w' r hnext ih ⟨table, entry, loaded, hin, rfl⟩
      obtain ⟨bytes, next, hadvance, hend⟩ := walkPass_ends h hsize hin hnext
      cases next with
      | none => cases hend
      | some next =>
        cases hend
        exact ih ⟨next.1, next.2, _, advance_beforeLast h hsize hin hadvance, rfl⟩
  · cases hbad

/-! ## What `read_initrd_component` comes to -/

/-- With this `int` as the length the file is not written. -/
def InitrdFails (os : Os) (size : Nat) (initrdLen : Int) : Prop :=
  (size : Int) < initrdLen ∨ initrdLen < 0 ∧ initrdLen ≠ -1 ∨
    0 ≤ initrdLen ∧ os.write sysloadFilenameInitrd 0 ≠ none ∨ os.close sysloadFilenameInitrd ≠ none

section Run

variable {initrd : DiskBlockptr} {buffer : List UInt8} {size : Nat}

/-- An action that ends in an error message and without the initrd file. -/
def LeavesNone {α : Type} (x : SysM α) (s : Sys) : Prop :=
  ∃ msg s', x.Runs s (.error (.errmsg msg)) s' ∧ s'.files sysloadFilenameInitrd = none

theorem LeavesNone.bind {α β : Type} {x : SysM α} {s : Sys} (h : LeavesNone x s) (f : α → SysM β) :
    LeavesNone (x >>= f) s := by
  obtain ⟨msg, s', hx, hnone⟩ := h
  exact ⟨msg, s', Routine.runs_bind.mpr (Or.inr ⟨_, hx, rfl⟩), hnone⟩

theorem LeavesNone.of_bind {α β : Type} {x : SysM α} {f : α → SysM β} {s s₁ : Sys} {a : α}
    (hx : x.Runs s (.ok a) s₁) (h : LeavesNone (f a) s₁) : LeavesNone (x >>= f) s := by
  obtain ⟨msg, s', hf, hnone⟩ := h
  exact ⟨msg, s', Routine.runs_bind.mpr (Or.inl ⟨a, s₁, hx, hf⟩), hnone⟩

theorem leavesNone_unlinkAndFail {α : Type} (errmsg : String) (s : Sys) :
    LeavesNone (unlinkAndFail sysloadFilenameInitrd errmsg : SysM α) s :=
  ⟨errmsg, s.unlink sysloadFilenameInitrd,
    Routine.runs_modify_bind.mpr (Routine.runs_throw.mpr ⟨rfl, rfl⟩),
    by rw [Sys.unlink, Sys.put_files, if_pos rfl]⟩

theorem leavesNone_writeOrUnlink {data : List Char} {errmsg : String → String} {s : Sys}
    (h : os.write sysloadFilenameInitrd (s.fileSize sysloadFilenameInitrd) ≠ none) :
    LeavesNone (writeOrUnlink os sysloadFilenameInitrd data errmsg) s := by
  obtain ⟨e, he⟩ := Option.ne_none_iff_exists'.mp h
  refine LeavesNone.of_bind (Routine.runs_get.mpr ⟨rfl, rfl⟩) ?_
  rw [he]
  exact leavesNone_unlinkAndFail _ s

theorem leavesNone_closeOrUnlink {errmsg : String → String} {s : Sys}
    (h : os.close sysloadFilenameInitrd ≠ none) :
    LeavesNone (closeOrUnlink os sysloadFilenameInitrd errmsg) s := by
  obtain ⟨e, he⟩ := Option.ne_none_iff_exists'.mp h
  unfold closeOrUnlink
  rw [he]
  exact leavesNone_unlinkAndFail _ s

theorem writeOrUnlink_ok {path : String} {data : List Char} {errmsg : String → String} {s : Sys}
    (h : os.write path (s.fileSize path) = none) :
    (writeOrUnlink os path data errmsg).Runs s (.ok ()) (s.append path data) := by
  unfold writeOrUnlink
  refine Routine.runs_bind.mpr (Or.inl ⟨s, s, Routine.runs_get.mpr ⟨rfl, rfl⟩, ?_⟩)
  rw [h]
  exact Routine.runs_modify.mpr ⟨rfl, rfl⟩

theorem closeOrUnlink_ok {path : String} {errmsg : String → String} {s : Sys}
    (h : os.close path = none) : (closeOrUnlink os path errmsg).Runs s (.ok ()) s := by
  unfold closeOrUnlink
  rw [h]
  exact Routine.runs_pure.mpr ⟨rfl, rfl⟩

/-- The new file. -/
def newInitrd (s : Sys) : Sys := s.put sysloadFilenameInitrd (some ⟨[], none, none⟩)

theorem newInitrd_fileSize (s : Sys) : (newInitrd s).fileSize sysloadFilenameInitrd = 0 := by
  unfold Sys.fileSize newInitrd
  rw [Sys.put_files, if_pos rfl]
  rfl

/-- Without a new file everything stays as it was. -/
theorem readInitrdComponent_creat {e : String} (hcreat : os.creat sysloadFilenameInitrd = some e)
    (initrdLen : Int) (s : Sys) :
    (readInitrdComponent t os disk initrd initrdLen).Runs s
      (.error (.errmsg ("Error writing initrd file - " ++ e))) s := by
  refine Routine.runs_bind.mpr (Or.inr ⟨_, ?_, rfl⟩)
  unfold creat
  rw [hcreat]
  exact Routine.runs_throw.mpr ⟨rfl, rfl⟩

theorem creat_ok {path : String} {errmsg : String → String} (h : os.creat path = none) (s : Sys) :
    (creat os path errmsg).Runs s (.ok ()) (s.put path (some ⟨[], none, none⟩)) := by
  unfold creat
  rw [h]
  exact Routine.runs_modify.mpr ⟨rfl, rfl⟩

/-- **What fails leaves no file.** -/
theorem readInitrdComponent_fails (hcreat : os.creat sysloadFilenameInitrd = none)
    (hcopy : (copyComponentToMemory t disk initrd).Gives (.ok (buffer, size))) {initrdLen : Int}
    (hfails : InitrdFails os size initrdLen) (s : Sys) :
    LeavesNone (readInitrdComponent t os disk initrd initrdLen) s := by
  have hlift : (Routine.lift (attempt (copyComponentToMemory t disk initrd)) : SysM _).Runs
      (newInitrd s) (.ok (.ok (buffer, size))) (newInitrd s) :=
    Routine.runs_lift.mpr ⟨attempt_ok.mpr hcopy, rfl⟩
  refine LeavesNone.of_bind (creat_ok hcreat s) (LeavesNone.of_bind hlift ?_)
  dsimp only
  by_cases hlong : (size : Int) < initrdLen
  · rw [if_pos hlong]
    exact (leavesNone_unlinkAndFail _ _).bind _
  · rw [if_neg hlong]
    by_cases hneg : initrdLen < 0
    · rw [if_pos hneg]
      by_cases hminus : initrdLen = -1
      · have hclose : os.close sysloadFilenameInitrd ≠ none := by
          rcases hfails with h | h | h | h
          · exact absurd h hlong
          · exact absurd hminus h.2
          · omega
          · exact h
        rw [if_neg (not_not.mpr hminus)]
        exact leavesNone_closeOrUnlink hclose
      · rw [if_pos hminus]
        exact (leavesNone_unlinkAndFail _ _).bind _
    · rw [if_neg hneg]
      by_cases hwrite : os.write sysloadFilenameInitrd 0 = none
      · have hclose : os.close sysloadFilenameInitrd ≠ none := by
          rcases hfails with h | h | h | h
          · exact absurd h hlong
          · exact absurd h.1 hneg
          · exact absurd hwrite h.2
          · exact h
        have hsize := newInitrd_fileSize s
        exact LeavesNone.of_bind (writeOrUnlink_ok (by rw [hsize]; exact hwrite))
          (leavesNone_closeOrUnlink hclose)
      · have hsize := newInitrd_fileSize s
        exact (leavesNone_writeOrUnlink (by rw [hsize]; exact hwrite)).bind _

/-- **What does not fail writes the file**; with the length -1 it stays empty. -/
theorem readInitrdComponent_writes (hcreat : os.creat sysloadFilenameInitrd = none)
    (hcopy : (copyComponentToMemory t disk initrd).Gives (.ok (buffer, size))) {initrdLen : Int}
    (hok : ¬ InitrdFails os size initrdLen) (s : Sys) :
    ∃ s', (readInitrdComponent t os disk initrd initrdLen).Runs s (.ok ()) s' ∧
      s'.files sysloadFilenameInitrd =
        some ⟨(chars buffer).take initrdLen.toNat, none, none⟩ := by
  unfold InitrdFails at hok
  simp only [not_or, not_and, not_not] at hok
  obtain ⟨hlong, hminus, hwrite, hclose⟩ := hok
  have hlift : (Routine.lift (attempt (copyComponentToMemory t disk initrd)) : SysM _).Runs
      (newInitrd s) (.ok (.ok (buffer, size))) (newInitrd s) :=
    Routine.runs_lift.mpr ⟨attempt_ok.mpr hcopy, rfl⟩
  by_cases hneg : initrdLen < 0
  · refine ⟨newInitrd s, Routine.runs_bind.mpr (Or.inl ⟨_, _, creat_ok hcreat s,
      Routine.runs_bind.mpr (Or.inl ⟨_, _, hlift, ?_⟩)⟩), ?_⟩
    · dsimp only
      rw [if_neg hlong, if_pos hneg, if_neg (not_not.mpr (hminus hneg))]
      exact closeOrUnlink_ok hclose
    · have hzero : initrdLen.toNat = 0 := Int.toNat_eq_zero.mpr (by omega)
      rw [newInitrd, Sys.put_files, if_pos rfl, hzero, List.take_zero]
  · refine ⟨(newInitrd s).append sysloadFilenameInitrd ((chars buffer).take initrdLen.toNat),
      Routine.runs_bind.mpr (Or.inl ⟨_, _, creat_ok hcreat s,
        Routine.runs_bind.mpr (Or.inl ⟨_, _, hlift, ?_⟩)⟩), ?_⟩
    · dsimp only
      rw [if_neg hlong, if_neg hneg]
      have hsize := newInitrd_fileSize s
      exact Routine.runs_bind.mpr (Or.inl ⟨_, _,
        writeOrUnlink_ok (by rw [hsize]; exact hwrite (by omega)), closeOrUnlink_ok hclose⟩)
    · rw [Sys.append, Sys.put_files, if_pos rfl, newInitrd, Sys.put_files, if_pos rfl]
      rfl

end Run

/-! ## The length in the header -/

theorem toInt32_toNat_le (len : Nat) : (toInt32 len).toNat ≤ len := by
  unfold toInt32
  split <;> omega

theorem toInt32_eq_of_toNat {len : Nat} (h : (toInt32 len).toNat = len) : toInt32 len = len := by
  by_cases hneg : toInt32 len < 0
  · have hzero : len = 0 := by omega
    subst hzero
    rfl
  · omega

/-- The initrd file is what the header says: on success it is the first `initrd_len` bytes of the
component, and a length that exceeds the component is an error that leaves no file. -/
def Honoured (t : Target) (os : Os) (disk : Disk) (initrd : DiskBlockptr) (initrdLen : Int)
    (len : Nat) (buffer : List UInt8) (s : Sys) : Prop :=
  ∃ r s', (readInitrdComponent t os disk initrd initrdLen).Runs s r s' ∧
    (r = .ok () → ∃ file, s'.files sysloadFilenameInitrd = some file ∧
      file.data = (chars buffer).take len) ∧
    (buffer.length < len →
      (∃ msg, r = .error (.errmsg msg)) ∧ s'.files sysloadFilenameInitrd = none)

/-- The length survives its way through an `int`, or nothing is written with what became of it. -/
def LengthKept (os : Os) (len size : Nat) (s : Sys) : Prop :=
  if os.creat sysloadFilenameInitrd = none then
    toInt32 len = len ∨ InitrdFails os size (toInt32 len)
  else size < len → s.files sysloadFilenameInitrd = none

/-- **When the length of the initrd is honoured**, for a component that can be copied. -/
theorem readInitrdComponent_honours_iff (t : Target) (os : Os) (disk : Disk)
    (htype : disk.type.supported = true) (hsize : 512 ≤ disk.phyBlockSize)
    {components : List Component} {stage3 : ZiplStage3Params} {initrd : Component}
    {objects : BootObjects} {buffer : List UInt8} {size : Nat}
    (hobjects : lookupBootObjects components stage3 = (none, objects))
    (hinitrd : lookupComponent components stage3.initrdAddr = some initrd)
    (hcopy : (copyComponentToMemory t disk objects.initrd).Gives (.ok (buffer, size))) (s : Sys) :
    Honoured t os disk objects.initrd objects.initrdLen stage3.initrdLen buffer s ↔
      LengthKept os stage3.initrdLen size s := by
  have hlen : objects.initrdLen = toInt32 stage3.initrdLen := by
    unfold lookupBootObjects at hobjects
    rw [hinitrd] at hobjects
    split at hobjects
    · cases hobjects
    · cases hobjects
      rfl
  obtain rfl := copyComponentToMemory_size htype hsize hcopy
  rw [hlen]
  generalize stage3.initrdLen = len
  unfold LengthKept
  by_cases hcreat : os.creat sysloadFilenameInitrd = none
  · rw [if_pos hcreat]
    by_cases hfails : InitrdFails os buffer.length (toInt32 len)
    · -- the error comes without a file, whatever the length was
      obtain ⟨msg, s', hrun, hnone⟩ :=
        readInitrdComponent_fails hcreat hcopy hfails s
      exact ⟨fun _ => Or.inr hfails,
        fun _ => ⟨_, s', hrun, fun h => (by cases h), fun _ => ⟨⟨msg, rfl⟩, hnone⟩⟩⟩
    · obtain ⟨s', hrun, hfile⟩ := readInitrdComponent_writes hcreat hcopy hfails s
      constructor
      · rintro ⟨r, s'', hrun', hdata, herror⟩
        obtain ⟨rfl, rfl⟩ := hrun.unique hrun'
        refine Or.inl ?_
        have hle : len ≤ buffer.length := by
          by_contra hlong
          obtain ⟨⟨msg, hbad⟩, _⟩ := herror (Nat.lt_of_not_le hlong)
          cases hbad
        obtain ⟨file, hfile', hdata⟩ := hdata rfl
        rw [hfile] at hfile'
        cases hfile'
        -- the two prefixes are as long as they say
        have hlength := congrArg List.length hdata
        have hint := toInt32_toNat_le len
        simp only [List.length_take, chars, List.length_map] at hlength
        exact toInt32_eq_of_toNat (by omega)
      · rintro (hkept | hbad)
        · have hle : len ≤ buffer.length := by
            by_contra hlong
            exact hfails (Or.inl (by omega))
          refine ⟨_, s', hrun, fun _ => ⟨_, hfile, ?_⟩, fun hlong => by omega⟩
          rw [hkept]
          rfl
        · exact absurd hbad hfails
  · rw [if_neg hcreat]
    obtain ⟨e, he⟩ := Option.ne_none_iff_exists'.mp hcreat
    have hrun := @readInitrdComponent_creat t os disk objects.initrd e he (toInt32 len) s
    constructor
    · rintro ⟨r, s', hrun', _, herror⟩
      obtain ⟨rfl, rfl⟩ := hrun.unique hrun'
      exact fun hlong => (herror hlong).2
    · exact fun hnone => ⟨_, s, hrun, fun h => (by cases h), fun hlong => ⟨⟨_, rfl⟩, hnone hlong⟩⟩

/-- The initrd component of a boot map: 256 MiB on `segmentDisk 1`. -/
def segmentComponent : Component := ⟨segmentDiskPtr, 0x00, 0⟩

theorem segmentComponent_copy : ∃ buffer,
    (copyComponentToMemory s390x (segmentDisk 1) segmentComponent.segmentPtr).Gives
      (.ok (buffer, 2 ^ 28)) := by
  have hcomes := (segmentDisk_chain (n := 1) (by decide)).comesTo rfl (by decide) (by simp)
    (fun p hp => List.mem_singleton.mp hp ▸ segmentDisk_slot_read 1)
  have hsum : ((List.replicate 1 segmentDiskSlot).map (rangeBytes (segmentDisk 1))).sum =
      2 ^ 28 := by
    rw [List.map_replicate, segmentDisk_rangeBytes, List.sum_replicate]
    decide
  unfold assembled at hcomes
  rw [hsum, List.length_nil, Nat.zero_add, if_pos (by decide)] at hcomes
  exact ⟨_, (hcomes _).mpr rfl⟩

theorem readInitrdComponent_honours_iff_segmentDisk : ∃ buffer,
    Honoured s390x .willing (segmentDisk 1) segmentDiskPtr 3 3 buffer .boot ↔
      LengthKept .willing 3 (2 ^ 28) .boot := by
  obtain ⟨buffer, hcopy⟩ := segmentComponent_copy
  exact ⟨buffer, @readInitrdComponent_honours_iff s390x .willing (segmentDisk 1) rfl (by decide)
    [segmentComponent] ⟨0, 0, 3, 0⟩ segmentComponent _ buffer _ rfl rfl hcopy .boot⟩

/-- **A length of 2 ^ 32 is taken for 0**: the boot goes on with an empty initrd. -/
theorem hugeLength_truncated : ∃ buffer,
    (copyComponentToMemory s390x (segmentDisk 1) segmentDiskPtr).Gives (.ok (buffer, 2 ^ 28)) ∧
      (lookupBootObjects [segmentComponent] ⟨0, 0, 2 ^ 32, 0⟩).2.initrdLen = 0 ∧
      ¬ Honoured s390x .willing (segmentDisk 1) segmentDiskPtr 0 (2 ^ 32) buffer .boot := by
  obtain ⟨buffer, hcopy⟩ := segmentComponent_copy
  have hsize := copyComponentToMemory_size rfl (by decide) hcopy
  refine ⟨buffer, hcopy, rfl, ?_⟩
  rintro ⟨r, s', hrun, _, herror⟩
  have hok : ¬ InitrdFails .willing (2 ^ 28) 0 := by
    unfold InitrdFails
    simp [Os.willing]
  obtain ⟨s'', hrun', _⟩ := readInitrdComponent_writes rfl hcopy hok .boot
  obtain ⟨rfl, _⟩ := hrun.unique hrun'
  obtain ⟨⟨msg, hbad⟩, _⟩ := herror (by omega)
  cases hbad

end Sysload.Bootmap
