import Sysload.Lib.Run
import Sysload.Config
import Mathlib.Data.Bool.Basic
import Mathlib.Logic.Function.Basic

/-!
# The loader module for FCP disks (`cl_zfcp`)

The script sets an FCP channel online, adds the WWPN and the LUN, mounts a file system of the disk
and copies a file from it. `cleanup` undoes this again: it looks at what is there, not at what the
script has set up.

A run is given by what its URI is split into, which may be any texts, and by what happens to each of
its commands: a write, `mount`, `umount` and `cp` take effect or fail. The functions below are the
rest of the script from a line on.

Source: `src/comploader/cl_zfcp`. Out of scope are the split of the URI with `expr`, and the waiting
times.

Results:
* `cleanup_eq_iff`: when `cleanup` restores the state from before the run.
* `restores_iff`: when a run does.
* **`clZfcp_restores_iff`**: sequences of runs.
-/

namespace Sysload.ClZfcp

/-! ## Devices -/

/-- A mounted file system. -/
structure Mount where
  point : CStr
  device : CStr
  deriving DecidableEq, Repr

/-- The channels that are online, the WWPNs and the LUNs that are configured, and what is mounted, the
last one first. -/
structure Devices where
  online : CStr → Bool
  port : CStr × CStr → Bool
  unit : CStr × CStr × CStr → Bool
  mounts : List Mount

/-- A channel is online or not. -/
def Devices.setOnline (s : Devices) (busId : CStr) (b : Bool) : Devices :=
  { s with online := Function.update s.online busId b }

/-- A WWPN is configured or not. -/
def Devices.setPort (s : Devices) (key : CStr × CStr) (b : Bool) : Devices :=
  { s with port := Function.update s.port key b }

/-- A LUN is configured or not. -/
def Devices.setUnit (s : Devices) (key : CStr × CStr × CStr) (b : Bool) : Devices :=
  { s with unit := Function.update s.unit key b }

/-- A file system is mounted. -/
def Devices.mount (s : Devices) (m : Mount) : Devices := { s with mounts := m :: s.mounts }

/-- The file system that was mounted last at this place is unmounted. -/
def Devices.umount (s : Devices) (point : CStr) : Devices :=
  { s with mounts := s.mounts.eraseP fun m => m.point = point }

/-- An entry of `/sys/bus/scsi/devices`: its attributes, what the link `block*` in it points to, if it
is a link, and whether its `delete` can be written. -/
structure ScsiDevice where
  name : CStr
  hbaId : CStr
  wwpn : CStr
  fcpLun : CStr
  block : Option CStr
  deletable : Bool
  deriving DecidableEq, Repr

/-! ## Runs of the script -/

/-- The parts of a URI that is accepted. -/
structure ZfcpUri where
  busId : CStr
  wwpn : CStr
  lun : CStr
  partition : CStr
  fs : CStr
  path : CStr
  deriving DecidableEq, Repr

/-- The key of a WWPN. -/
def ZfcpUri.portKey (u : ZfcpUri) : CStr × CStr := (u.busId, u.wwpn)

/-- The key of a LUN. -/
def ZfcpUri.unitKey (u : ZfcpUri) : CStr × CStr × CStr := (u.busId, u.wwpn, u.lun)

/-- A run: the parts of its URI, if it is accepted, the number of the process, and what happens.
`channel`: the channel is a device. `portFailed`, `unitFailed`: what is read from `failed`, when it is
there, is not 0. `scsi` is what is found when the devices have settled. The commands take effect or
fail; those of `cleanup` come last. -/
structure ClRun where
  uri : Option ZfcpUri
  pid : CStr
  channel : Bool
  setOnline : Bool
  portAdd : Bool
  portFailed : Bool
  unitAdd : Bool
  unitFailed : Bool
  scsi : List ScsiDevice
  isBlock : CStr → Bool
  mount : Option CStr → CStr → Bool
  readable : CStr → Bool
  cp : Bool
  umount : Bool
  unitRemove : Bool
  portRemove : Bool
  setOffline : Bool

/-- What a run comes to: the devices, the exit status, and the SCSI device that is deleted. -/
structure ClResult where
  devices : Devices
  status : Nat
  deleted : Option CStr

section Script

variable (r : ClRun) (u : ZfcpUri)

/-- `$MOUNT_DIRECTORY/$$`. -/
def mountPoint : CStr := "/var/sysload/".toList ++ r.pid

/-- `cleanup`, and the exit behind it. `scsiDev` is `$SCSI_DEV`. -/
def cleanup (scsiDev : Option ScsiDevice) (status : Nat) (s : Devices) : ClResult :=
  let s := if r.umount then s.umount (mountPoint r) else s
  let deleted := (scsiDev.filter (·.deletable)).map (·.name)
  let s := if s.unit u.unitKey && r.unitRemove then s.setUnit u.unitKey false else s
  let s := if s.port u.portKey && r.portRemove then s.setPort u.portKey false else s
  let s := if s.online u.busId && r.setOffline then s.setOnline u.busId false else s
  ⟨s, status, deleted⟩

/-- From the copy on. -/
def copyFile (scsiDev : ScsiDevice) (s : Devices) : ClResult :=
  if r.cp = false then cleanup r u (some scsiDev) 1 s else cleanup r u (some scsiDev) 0 s

/-- From the mount on. -/
def mountSource (scsiDev : ScsiDevice) (dev : CStr) (s : Devices) : ClResult :=
  if r.mount (if u.fs = [] then none else some u.fs) dev = false then
    cleanup r u (some scsiDev) 1 s
  else
    let s := s.mount ⟨mountPoint r, dev⟩
    -- this exit is not preceded by cleanup
    if r.readable (mountPoint r ++ '/' :: u.path) = false then ⟨s, 1, none⟩
    else copyFile r u scsiDev s

/-- The SCSI device is the disk of the URI. -/
def isDisk (d : ScsiDevice) : Bool := d.hbaId = u.busId ∧ d.wwpn = u.wwpn ∧ d.fcpLun = u.lun

/-- The block device of a SCSI device: `/dev/$( basename … )$PARTITION`. -/
def blockDev (block : CStr) : CStr :=
  "/dev/".toList ++ block ++ if u.partition = ['0'] then [] else u.partition

/-- From the search for the SCSI device on. -/
def findDisk (s : Devices) : ClResult :=
  match r.scsi.find? (isDisk u) with
  | none =>
    -- the loop has left SCSI_DEV at its last device
    cleanup r u r.scsi.getLast? 1 s
  | some d =>
    match d.block with
    | none => cleanup r u (some d) 1 s
    | some block =>
      if r.isBlock (blockDev u block) = false then cleanup r u (some d) 1 s
      else mountSource r u d (blockDev u block) s

/-- From the LUN on. -/
def addLun (s : Devices) : ClResult :=
  if s.unit u.unitKey = false then
    -- without the directory of the WWPN there is no unit_add
    let s := if s.port u.portKey && r.unitAdd then s.setUnit u.unitKey true else s
    -- a test of a file that is not there fails, and is taken for false
    if s.unit u.unitKey && r.unitFailed then cleanup r u none 1 s else findDisk r u s
  else findDisk r u s

/-- From the WWPN on. -/
def addWwpn (s : Devices) : ClResult :=
  if s.port u.portKey = false then
    let s := if r.portAdd then s.setPort u.portKey true else s
    if s.port u.portKey && r.portFailed then cleanup r u none 1 s else addLun r u s
  else addLun r u s

/-- From the channel on. -/
def setChannelOnline (s : Devices) : ClResult :=
  if r.channel = false then ⟨s, 1, none⟩
  else if s.online u.busId = false then
    let s := if r.setOnline then s.setOnline u.busId true else s
    if s.online u.busId = false then ⟨s, 1, none⟩ else addWwpn r u s
  else addWwpn r u s

/-- `cl_zfcp`. -/
def clZfcp (s : Devices) : ClResult :=
  match r.uri with
  | none => ⟨s, 1, none⟩
  | some u => setChannelOnline r u s

end Script

/-- The devices, after one run more. Every run exits. -/
def step (s : Devices) (r : ClRun) : Option Devices := some (clZfcp r s).devices

/-! ## Restoring the devices -/

/-- The run leaves the devices as it found them. -/
def Restores (s : Devices) (r : ClRun) : Prop := (clZfcp r s).devices = s

section Conditions

variable (r : ClRun) (u : ZfcpUri) (s : Devices)

/-- The channel is online, or it is set online. -/
def GetsOnline : Prop := r.channel = true ∧ (s.online u.busId = true ∨ r.setOnline = true)

/-- The WWPN is there after `port_add`. -/
def HasPort : Prop := s.port u.portKey = true ∨ r.portAdd = true

/-- No WWPN is added that is failed. -/
def PortPasses : Prop := s.port u.portKey = false → r.portAdd = true → r.portFailed = false

/-- No LUN is added that is failed. -/
def UnitPasses : Prop :=
  s.unit u.unitKey = false → HasPort r u s → r.unitAdd = true → r.unitFailed = false

/-- The block device is found, and its file system is mounted. -/
def MountsDisk : Prop := ∃ d block, r.scsi.find? (isDisk u) = some d ∧ d.block = some block ∧
  r.isBlock (blockDev u block) = true ∧
  r.mount (if u.fs = [] then none else some u.fs) (blockDev u block) = true

/-- A file system is mounted in the run. -/
def Mounts : Prop := PortPasses r u s ∧ UnitPasses r u s ∧ MountsDisk r u

/-- What was there before is not taken away: the writes that would do so fail. -/
def KeepsOthers : Prop := (s.online u.busId = true → r.setOffline = false) ∧
  (s.port u.portKey = true → r.portRemove = false) ∧
  (s.unit u.unitKey = true → r.unitRemove = false)

/-- Nothing is unmounted: `umount` fails, or nothing is mounted there. -/
def KeepsMounts : Prop := r.umount = true → ∀ m ∈ s.mounts, m.point ≠ mountPoint r

/-- What is undone succeeds, where the run has set it up. -/
def UndoSucceeds (s : Devices) (r : ClRun) : Prop := ∀ u ∈ r.uri,
  (s.online u.busId = false → r.setOffline = true) ∧
  (s.port u.portKey = false → r.portRemove = true) ∧
  (s.unit u.unitKey = false → r.unitRemove = true) ∧ (Mounts r u s → r.umount = true)

/-- A run that comes past the channel takes nothing away that was there before; if it mounts a file
system then the file is there, and otherwise nothing is unmounted. -/
def LeavesOthers (s : Devices) (r : ClRun) : Prop := ∀ u ∈ r.uri, GetsOnline r u s →
  KeepsOthers r u s ∧ (Mounts r u s → r.readable (mountPoint r ++ '/' :: u.path) = true) ∧
  (¬ Mounts r u s → KeepsMounts r s)

end Conditions

/-! ## The state during a run -/

/-- The state with these values for the devices of a URI. -/
def Devices.set (s : Devices) (u : ZfcpUri) (online port unit : Bool) (mounts : List Mount) :
    Devices where
  online := Function.update s.online u.busId online
  port := Function.update s.port u.portKey port
  unit := Function.update s.unit u.unitKey unit
  mounts := mounts

section Set

variable {s : Devices} {u : ZfcpUri} {online port unit b : Bool} {mounts : List Mount}

@[simp] theorem Devices.set_online : (s.set u online port unit mounts).online u.busId = online :=
  Function.update_self ..

@[simp] theorem Devices.set_port : (s.set u online port unit mounts).port u.portKey = port :=
  Function.update_self ..

@[simp] theorem Devices.set_unit : (s.set u online port unit mounts).unit u.unitKey = unit :=
  Function.update_self ..

@[simp] theorem Devices.set_setOnline : (s.set u online port unit mounts).setOnline u.busId b =
    s.set u b port unit mounts := by
  simp [Devices.set, Devices.setOnline]

@[simp] theorem Devices.set_setPort : (s.set u online port unit mounts).setPort u.portKey b =
    s.set u online b unit mounts := by
  simp [Devices.set, Devices.setPort]

@[simp] theorem Devices.set_setUnit : (s.set u online port unit mounts).setUnit u.unitKey b =
    s.set u online port b mounts := by
  simp [Devices.set, Devices.setUnit]

@[simp] theorem Devices.set_mount {m : Mount} : (s.set u online port unit mounts).mount m =
    s.set u online port unit (m :: mounts) := rfl

@[simp] theorem Devices.set_umount {point : CStr} :
    (s.set u online port unit mounts).umount point =
      s.set u online port unit (mounts.eraseP fun m => m.point = point) := rfl

section Ite

variable {c : Prop} [Decidable c] {b' : Bool} {mounts' : List Mount}

theorem Devices.ite_online : (if c then s.set u b port unit mounts else s.set u b' port unit mounts) =
    s.set u (if c then b else b') port unit mounts :=
  (apply_ite (fun x => s.set u x port unit mounts) c b b').symm

theorem Devices.ite_port :
    (if c then s.set u online b unit mounts else s.set u online b' unit mounts) =
      s.set u online (if c then b else b') unit mounts :=
  (apply_ite (fun x => s.set u online x unit mounts) c b b').symm

theorem Devices.ite_unit :
    (if c then s.set u online port b mounts else s.set u online port b' mounts) =
      s.set u online port (if c then b else b') mounts :=
  (apply_ite (fun x => s.set u online port x mounts) c b b').symm

theorem Devices.ite_mounts :
    (if c then s.set u online port unit mounts else s.set u online port unit mounts') =
      s.set u online port unit (if c then mounts else mounts') :=
  (apply_ite (s.set u online port unit) c mounts mounts').symm

end Ite

theorem Devices.set_eq_self_iff : s.set u online port unit mounts = s ↔
    online = s.online u.busId ∧ port = s.port u.portKey ∧ unit = s.unit u.unitKey ∧
      mounts = s.mounts := by
  obtain ⟨o, p, q, m⟩ := s
  simp [Devices.set]

theorem Devices.set_self (s : Devices) (u : ZfcpUri) :
    s.set u (s.online u.busId) (s.port u.portKey) (s.unit u.unitKey) s.mounts = s :=
  Devices.set_eq_self_iff.mpr ⟨rfl, rfl, rfl, rfl⟩

end Set

/-! ## The end of a run -/

/-- A setting that was only ever switched on is as before once it is switched off again, unless it
was on before and is switched off. -/
theorem switchedOff_eq_iff {before now off : Bool} (hgrown : before = true → now = true)
    (hundo : before = false → off = true) :
    (if now && off then false else now) = before ↔ (before = true → off = false) := by
  cases before with
  | false => simp [hundo rfl]
  | true =>
    rw [hgrown rfl]
    cases off <;> simp

section Cleanup

variable {r : ClRun} {u : ZfcpUri} {s : Devices} {online port unit : Bool} {mounts : List Mount}

theorem cleanup_set (scsiDev : Option ScsiDevice) (status : Nat) :
    (cleanup r u scsiDev status (s.set u online port unit mounts)).devices =
      s.set u (if online && r.setOffline then false else online)
        (if port && r.portRemove then false else port)
        (if unit && r.unitRemove then false else unit)
        (if r.umount then mounts.eraseP (fun m => m.point = mountPoint r) else mounts) := by
  unfold cleanup
  simp only [Devices.set_umount, Devices.ite_mounts, Devices.set_unit, Devices.set_setUnit,
    Devices.ite_unit, Devices.set_port, Devices.set_setPort, Devices.ite_port, Devices.set_online,
    Devices.set_setOnline, Devices.ite_online]

/-- What was switched on, up to a line of the script. -/
structure Grown (s : Devices) (u : ZfcpUri) (online port unit : Bool) : Prop where
  online : s.online u.busId = true → online = true
  port : s.port u.portKey = true → port = true
  unit : s.unit u.unitKey = true → unit = true

variable (hr : r.uri = some u) (hundo : UndoSucceeds s r) (hgrown : Grown s u online port unit)
include hr hundo hgrown

/-- **When `cleanup` restores the state from before the run.** -/
theorem cleanup_eq_iff (scsiDev : Option ScsiDevice) (status : Nat) :
    (cleanup r u scsiDev status (s.set u online port unit mounts)).devices = s ↔
      KeepsOthers r u s ∧
        (if r.umount then mounts.eraseP (fun m => m.point = mountPoint r) else mounts) =
          s.mounts := by
  obtain ⟨honline, hport, hunit, -⟩ := hundo u hr
  rw [cleanup_set, Devices.set_eq_self_iff, switchedOff_eq_iff hgrown.online honline,
    switchedOff_eq_iff hgrown.port hport, switchedOff_eq_iff hgrown.unit hunit, KeepsOthers]
  tauto

/-- Before the mount. -/
theorem cleanup_eq_iff_unmounted (scsiDev : Option ScsiDevice) (status : Nat) :
    (cleanup r u scsiDev status (s.set u online port unit s.mounts)).devices = s ↔
      KeepsOthers r u s ∧ KeepsMounts r s := by
  rw [cleanup_eq_iff hr hundo hgrown, KeepsMounts]
  refine and_congr_right fun _ => ?_
  cases r.umount with
  | false => simp
  | true => simp [List.eraseP_eq_self_iff]

/-- Behind the mount. -/
theorem cleanup_eq_iff_mounted (hmounts : Mounts r u s) (dev : CStr) (scsiDev : Option ScsiDevice)
    (status : Nat) :
    (cleanup r u scsiDev status
      (s.set u online port unit (⟨mountPoint r, dev⟩ :: s.mounts))).devices = s ↔
      KeepsOthers r u s := by
  obtain ⟨-, -, -, humount⟩ := hundo u hr
  have hlast : (⟨mountPoint r, dev⟩ :: s.mounts).eraseP (fun m => m.point = mountPoint r) =
      s.mounts := List.eraseP_cons_of_pos (decide_eq_true rfl)
  rw [cleanup_eq_iff hr hundo hgrown, humount hmounts, if_pos rfl, hlast]
  exact and_iff_left rfl

/-! ## The rest of a run -/

/-- What has to hold for the rest of a run, if it is known whether it mounts. -/
def Leaves (r : ClRun) (u : ZfcpUri) (s : Devices) (mounts : Prop) : Prop :=
  KeepsOthers r u s ∧ (mounts → r.readable (mountPoint r ++ '/' :: u.path) = true) ∧
    (¬ mounts → KeepsMounts r s)

omit hr hundo hgrown in
theorem leaves_of_not {M : Prop} (hM : ¬ M) :
    Leaves r u s M ↔ KeepsOthers r u s ∧ KeepsMounts r s := by
  unfold Leaves
  tauto

theorem copyFile_eq_iff (hmounts : Mounts r u s) (scsiDev : ScsiDevice) (dev : CStr) :
    (copyFile r u scsiDev
      (s.set u online port unit (⟨mountPoint r, dev⟩ :: s.mounts))).devices = s ↔
      KeepsOthers r u s := by
  unfold copyFile
  split
  · exact cleanup_eq_iff_mounted hr hundo hgrown hmounts dev _ _
  · exact cleanup_eq_iff_mounted hr hundo hgrown hmounts dev _ _

theorem mountSource_eq_iff {scsiDev : ScsiDevice} {dev : CStr}
    (hmounts : Mounts r u s ↔ r.mount (if u.fs = [] then none else some u.fs) dev = true) :
    (mountSource r u scsiDev dev (s.set u online port unit s.mounts)).devices = s ↔
      Leaves r u s (Mounts r u s) := by
  unfold mountSource
  by_cases hmount : r.mount (if u.fs = [] then none else some u.fs) dev = false
  · rw [if_pos hmount, cleanup_eq_iff_unmounted hr hundo hgrown]
    refine (leaves_of_not fun h => ?_).symm
    rw [hmounts.mp h] at hmount
    cases hmount
  · have hyes := hmounts.mpr (Bool.eq_true_of_not_eq_false hmount)
    have hleaves : Leaves r u s (Mounts r u s) ↔
        KeepsOthers r u s ∧ r.readable (mountPoint r ++ '/' :: u.path) = true := by
      unfold Leaves
      tauto
    rw [if_neg hmount, hleaves]
    dsimp only
    by_cases hreadable : r.readable (mountPoint r ++ '/' :: u.path) = false
    · -- the file system is left mounted
      rw [if_pos hreadable, Devices.set_mount, Devices.set_eq_self_iff, hreadable]
      refine iff_of_false (fun h => ?_) (by simp)
      exact List.cons_ne_self _ _ h.2.2.2
    · rw [if_neg hreadable, Devices.set_mount, copyFile_eq_iff hr hundo hgrown hyes]
      exact (and_iff_left (Bool.eq_true_of_not_eq_false hreadable)).symm

theorem findDisk_eq_iff (hmounts : Mounts r u s ↔ MountsDisk r u) :
    (findDisk r u (s.set u online port unit s.mounts)).devices = s ↔
      Leaves r u s (Mounts r u s) := by
  unfold findDisk
  cases hfind : r.scsi.find? (isDisk u) with
  | none =>
    refine (cleanup_eq_iff_unmounted hr hundo hgrown _ _).trans (leaves_of_not fun h => ?_).symm
    obtain ⟨d, block, hd, -⟩ := hmounts.mp h
    rw [hfind] at hd
    cases hd
  | some d =>
    dsimp only
    cases hblock : d.block with
    | none =>
      refine (cleanup_eq_iff_unmounted hr hundo hgrown _ _).trans (leaves_of_not fun h => ?_).symm
      obtain ⟨d', block, hd, hblock', -⟩ := hmounts.mp h
      obtain rfl := Option.some.inj (hfind.symm.trans hd)
      rw [hblock] at hblock'
      cases hblock'
    | some block =>
      have hdisk : MountsDisk r u ↔ r.isBlock (blockDev u block) = true ∧
          r.mount (if u.fs = [] then none else some u.fs) (blockDev u block) = true := by
        constructor
        · rintro ⟨d', block', hd, hblock', h⟩
          obtain rfl := Option.some.inj (hfind.symm.trans hd)
          obtain rfl := Option.some.inj (hblock.symm.trans hblock')
          exact h
        · exact fun h => ⟨d, block, hfind, hblock, h⟩
      dsimp only
      by_cases hb : r.isBlock (blockDev u block) = false
      · rw [if_pos hb]
        refine (cleanup_eq_iff_unmounted hr hundo hgrown _ _).trans (leaves_of_not fun h => ?_).symm
        rw [(hdisk.mp (hmounts.mp h)).1] at hb
        cases hb
      · rw [if_neg hb]
        refine mountSource_eq_iff hr hundo hgrown (hmounts.trans (hdisk.trans ?_))
        exact and_iff_right (Bool.eq_true_of_not_eq_false hb)

omit hgrown in
theorem addLun_eq_iff {online port : Bool} (honline : s.online u.busId = true → online = true)
    (hport : port = true ↔ HasPort r u s) (hpasses : PortPasses r u s) :
    (addLun r u (s.set u online port (s.unit u.unitKey) s.mounts)).devices = s ↔
      Leaves r u s (Mounts r u s) := by
  have hgrown : ∀ unit, (s.unit u.unitKey = true → unit = true) → Grown s u online port unit :=
    fun unit h => ⟨honline, fun h => hport.mpr (.inl h), h⟩
  unfold addLun
  rw [Devices.set_unit]
  by_cases hunit : s.unit u.unitKey = false
  · rw [if_pos hunit, Devices.set_port, Devices.set_setUnit, Devices.ite_unit]
    dsimp only
    rw [Devices.set_unit, hunit]
    by_cases hadd : (port && r.unitAdd) = true
    · obtain ⟨hport', hadd'⟩ := Bool.and_eq_true_iff.mp hadd
      rw [if_pos hadd, Bool.true_and]
      by_cases hfailed : r.unitFailed = true
      · rw [if_pos hfailed]
        refine (cleanup_eq_iff_unmounted hr hundo (hgrown _ fun _ => rfl) _ _).trans
          (leaves_of_not fun h => ?_).symm
        rw [h.2.1 hunit (hport.mp hport') hadd'] at hfailed
        cases hfailed
      · rw [if_neg hfailed]
        refine findDisk_eq_iff hr hundo (hgrown _ fun _ => rfl) ⟨fun h => h.2.2, fun h => ?_⟩
        exact ⟨hpasses, fun _ _ _ => Bool.eq_false_of_not_eq_true hfailed, h⟩
    · rw [if_neg hadd, Bool.false_and, if_neg (by decide)]
      refine findDisk_eq_iff hr hundo (hgrown _ fun h => ?_) ?_
      · rw [hunit] at h
        exact h
      · refine ⟨fun h => h.2.2, fun h => ⟨hpasses, fun _ hport' hadd' => absurd ?_ hadd, h⟩⟩
        exact Bool.and_eq_true_iff.mpr ⟨hport.mpr hport', hadd'⟩
  · rw [if_neg hunit]
    refine findDisk_eq_iff hr hundo (hgrown _ id) ?_
    exact ⟨fun h => h.2.2, fun h => ⟨hpasses, fun h' => absurd h' hunit, h⟩⟩

omit hgrown in
theorem addWwpn_eq_iff {online : Bool} (honline : s.online u.busId = true → online = true) :
    (addWwpn r u (s.set u online (s.port u.portKey) (s.unit u.unitKey) s.mounts)).devices = s ↔
      Leaves r u s (Mounts r u s) := by
  unfold addWwpn
  rw [Devices.set_port]
  by_cases hport : s.port u.portKey = false
  · rw [if_pos hport, Devices.set_setPort, Devices.ite_port]
    dsimp only
    rw [Devices.set_port, hport]
    by_cases hadd : r.portAdd = true
    · rw [if_pos hadd, Bool.true_and]
      by_cases hfailed : r.portFailed = true
      · rw [if_pos hfailed]
        have hgrown : Grown s u online true (s.unit u.unitKey) := ⟨honline, fun _ => rfl, id⟩
        refine (cleanup_eq_iff_unmounted hr hundo hgrown _ _).trans (leaves_of_not fun h => ?_).symm
        rw [h.1 hport hadd] at hfailed
        cases hfailed
      · rw [if_neg hfailed]
        exact addLun_eq_iff hr hundo honline (iff_of_true rfl (.inr hadd))
          fun _ _ => Bool.eq_false_of_not_eq_true hfailed
    · rw [if_neg hadd, Bool.false_and, if_neg (by decide)]
      refine addLun_eq_iff hr hundo honline (iff_of_false (by decide) ?_) fun _ h => absurd h hadd
      rintro (h | h)
      · rw [hport] at h
        cases h
      · exact hadd h
  · rw [if_neg hport]
    have hport' := Bool.eq_true_of_not_eq_false hport
    exact addLun_eq_iff hr hundo honline (iff_of_true hport' (.inl hport')) fun h => absurd h hport

omit hgrown in
theorem setChannelOnline_eq_iff : (setChannelOnline r u s).devices = s ↔
    (GetsOnline r u s → Leaves r u s (Mounts r u s)) := by
  unfold setChannelOnline GetsOnline
  by_cases hchannel : r.channel = false
  · rw [if_pos hchannel, hchannel]
    exact iff_of_true rfl fun h => by cases h.1
  rw [if_neg hchannel]
  have hchannel' := Bool.eq_true_of_not_eq_false hchannel
  by_cases honline : s.online u.busId = false
  · rw [if_pos honline]
    by_cases hset : r.setOnline = true
    · have hstate : s.setOnline u.busId true =
          s.set u true (s.port u.portKey) (s.unit u.unitKey) s.mounts := by
        rw [← @Devices.set_setOnline s u (s.online u.busId), Devices.set_self]
      rw [if_pos hset, hstate]
      dsimp only
      rw [Devices.set_online, if_neg (by decide), addWwpn_eq_iff hr hundo fun _ => rfl]
      exact ⟨fun h _ => h, fun h => h ⟨hchannel', .inr hset⟩⟩
    · rw [if_neg hset]
      dsimp only
      rw [if_pos honline, honline]
      exact iff_of_true rfl fun h => absurd h (by simp [hset])
  · have hstate := @addWwpn_eq_iff r u s hr hundo (s.online u.busId) id
    rw [Devices.set_self] at hstate
    rw [if_neg honline, hstate]
    exact ⟨fun h _ => h, fun h => h ⟨hchannel', .inl (Bool.eq_true_of_not_eq_false honline)⟩⟩

end Cleanup

/-- **When a run leaves the devices as it found them.** -/
theorem restores_iff {s : Devices} {r : ClRun} (hundo : UndoSucceeds s r) :
    Restores s r ↔ LeavesOthers s r := by
  unfold Restores clZfcp LeavesOthers
  cases hr : r.uri with
  | none => exact iff_of_true rfl nofun
  | some u =>
    refine (setChannelOnline_eq_iff hr hundo).trans ?_
    constructor
    · rintro h _ ⟨⟩
      exact h
    · exact fun h => h u rfl

/-- **The devices are left as they were found, if and only if every run leaves alone what it has not
set up**: in a sequence of runs each one leaves the devices as it found them exactly if each one meets
the condition in the state that it finds; and then they are at last what they were at first. -/
theorem clZfcp_restores_iff (s : Devices) (runs : List ClRun)
    (hundo : Along step UndoSucceeds s runs) :
    (Along step Restores s runs ↔ Along step LeavesOthers s runs) ∧
      (Along step LeavesOthers s runs → run step s runs = some s) := by
  refine ⟨Along.congr (fun _ _ => restores_iff) hundo, fun hleaves => run_eq_self ?_⟩
  refine (Along.congr (fun s r hundo => ?_) hundo).mpr hleaves
  exact Option.some_inj.trans (restores_iff hundo)

/-- Nothing is online. -/
def allOff : Devices := ⟨fun _ => false, fun _ => false, fun _ => false, []⟩

/-- The SCSI device behind a LUN. -/
def scsiDisk : ScsiDevice where
  name := "0:0:0:0".toList
  hbaId := "0.0.04ae".toList
  wwpn := "0x500507630e01fca2".toList
  fcpLun := "0x4010404500000000".toList
  block := some "sda".toList
  deletable := true

/-- A run in which everything succeeds. -/
def smoothRun : ClRun where
  uri := some ⟨"0.0.04ae".toList, "0x500507630e01fca2".toList, "0x4010404500000000".toList, ['1'], [],
    "/boot/initrd".toList⟩
  pid := "4711".toList
  channel := true
  setOnline := true
  portAdd := true
  portFailed := false
  unitAdd := true
  unitFailed := false
  scsi := [scsiDisk]
  isBlock _ := true
  mount _ _ := true
  readable _ := true
  cp := true
  umount := true
  unitRemove := true
  portRemove := true
  setOffline := true

/-- The file cannot be copied. -/
def uncopiedRun : ClRun := { smoothRun with cp := false }

/-- The file is not there. -/
def fileless : ClRun := { smoothRun with readable := fun _ => false }

/-- The channel is in use. -/
def channelInUse : Devices :=
  { allOff with online := fun busId => busId = "0.0.04ae".toList }

theorem clZfcp_restores_iff_uncopiedRun :
    run step allOff [smoothRun, uncopiedRun] = some allOff := by
  have hundo : ∀ cp, UndoSucceeds allOff { smoothRun with cp := cp } :=
    fun _ _ _ => ⟨fun _ => rfl, fun _ => rfl, fun _ => rfl, fun _ => rfl⟩
  have hleaves : ∀ cp, LeavesOthers allOff { smoothRun with cp := cp } :=
    fun _ _ _ _ => ⟨⟨nofun, nofun, nofun⟩, fun _ => rfl, fun _ _ => nofun⟩
  have hstep : step allOff smoothRun = some allOff :=
    congrArg some ((restores_iff (hundo true)).mpr (hleaves true))
  have hlast : ∀ {P : Devices → ClRun → Prop}, P allOff uncopiedRun →
      Along step P allOff [uncopiedRun] := fun h => ⟨h, fun _ _ => trivial⟩
  exact (clZfcp_restores_iff allOff [smoothRun, uncopiedRun]
    (.cons (hundo true) hstep (hlast (hundo false)))).2
    (.cons (hleaves true) hstep (hlast (hleaves false)))

/-- **What a run leaves behind**: if the file is not there then everything is left as it was set up;
and a channel that was in use is set offline. -/
theorem clZfcp_leftovers :
    (UndoSucceeds allOff fileless ∧ ¬ Restores allOff fileless ∧
      (clZfcp fileless allOff).devices.online "0.0.04ae".toList = true ∧
      (clZfcp fileless allOff).devices.mounts =
        [⟨"/var/sysload/4711".toList, "/dev/sda1".toList⟩]) ∧
    UndoSucceeds channelInUse smoothRun ∧ ¬ Restores channelInUse smoothRun ∧
      (clZfcp smoothRun channelInUse).devices.online "0.0.04ae".toList = false := by
  have hmounts : (clZfcp fileless allOff).devices.mounts =
      [⟨"/var/sysload/4711".toList, "/dev/sda1".toList⟩] := rfl
  have honline : (clZfcp smoothRun channelInUse).devices.online "0.0.04ae".toList = false := rfl
  refine ⟨⟨fun _ _ => ⟨fun _ => rfl, fun _ => rfl, fun _ => rfl, fun _ => rfl⟩, fun h => ?_, rfl,
    hmounts⟩, fun _ _ => ⟨fun _ => rfl, fun _ => rfl, fun _ => rfl, fun _ => rfl⟩, fun h => ?_,
    honline⟩
  · rw [show (clZfcp fileless allOff).devices = allOff from h] at hmounts
    cases hmounts
  · rw [show (clZfcp smoothRun channelInUse).devices = channelInUse from h] at honline
    cases honline

end Sysload.ClZfcp
