import Sysload.Bootmap.Open
import Sysload.Bootmap.ReadFile
import Sysload.Lib.Recorder
import Sysload.Loader.BootmapUri

/-!
# Setting devices online for a boot map boot (`bootmap_dasd.c`, `bootmap_fcp.c`)

A boot map boot sets a channel device online, makes a device node, opens the disk and boots from it.
When the boot fails the two functions close the disk, set the device offline and delete the node;
when an earlier step fails they return at once.

What they do to the machine is recorded (`DevEvent`). Everything they see of it is a `DevOs`, which
answers by what has been done before.

Source: `src/core/bootmap_dasd.c`, `set_dasd_online`, `set_dasd_offline` and
`action_bootmap_boot_dasd`; `src/core/bootmap_fcp.c`, `find_scsi_device`, `set_fcp_disk_online`,
`delete_scsi_device`, `set_fcp_disk_offline` and `action_bootmap_boot_zfcp`. Out of scope are the
waiting times and the debug output.

Results:
* `setOnline_eq_ok_iff`: when a device is set online, by the answers of the machine.
* `detach_outcome`: what is done to the machine behind the boot.
* `bootFrom_refines`: the model in which a device is attached in one step.
* **`actionBootmapBoot_released_iff`**: when a device that was set online is released.
-/

namespace Sysload.Online

open Bootmap (Disk DiskFile bootBootmapDisk chars diskOpen)
open Memory (malloc overlay)
open Recorder

/-! ## The machine -/

/-- `SYS_PATH_DASD`. -/
def sysPathDasd : CStr := "/sys/bus/ccw/devices".toList

/-- `SYS_PATH_FCP`. -/
def sysPathFcp : CStr := "/sys/bus/ccw/drivers/zfcp".toList

/-- `SYS_PATH_SCSI`. -/
def sysPathScsi : CStr := "/sys/bus/scsi/devices".toList

/-- `BLOCKDEV_PATH`. -/
def blockdevPath : CStr := "/dev".toList

/-- What is done to the machine: data is written to an attribute, which may fail, a file is removed,
a device node is made, which may fail, and a disk is closed. -/
inductive DevEvent where
  | echo (path data : CStr) (written : Bool)
  | unlink (path : CStr)
  | mknod (path : CStr) (major minor : Int) (made : Bool)
  | close
  deriving DecidableEq, Repr

/-- The answers of the machine, by what has been done before. An attribute is known by the file that
is written and the one that is read; `scsiDevices` are the entries of the directory with the SCSI
devices, if it can be opened. -/
structure DevOs where
  access : List DevEvent → CStr → Bool
  attr : List DevEvent → CStr → Option CStr → Attribute
  glob : List DevEvent → CStr → List CStr
  openFile : List DevEvent → CStr → Except String Fd
  scsiDevices : List DevEvent → Option (List CStr)
  mknod : List DevEvent → CStr → Option String
  openDisk : List DevEvent → CStr → Except String DiskFile

/-- A part of the functions, which may end with an error message. -/
abbrev DevM (α : Type) := Recorder DevEvent Stop α

/-- Return an error message. -/
def fail {α : Type} (errmsg : String) : DevM α := throw (.errmsg errmsg)

section Functions

variable (os : DevOs)

/-- `echo_and_test`. -/
def echoTo (path data : CStr) (test : Option CStr) : DevM Int := do
  let attr := os.attr (← get) path test
  record (.echo path data (echoData attr (some path) (some data)))
  liftM (echoAndTest attr (some path) (some data) test (malloc 32))

/-- The number at the beginning of a text, as `%i` reads it, and what is behind it. -/
def scanNumber (text : CStr) : Option (Int × CStr) :=
  (scanAnyBase text).map fun n =>
    let (base, digits) := scanBase (scanSign (text.dropWhile isSpaceChar)).2
    (n, digits.dropWhile (isDigitOf base))

/-- The numbers that `sscanf` reads with `%i:%i:…`. -/
def scanNumbers : Nat → CStr → List Int
  | 0, _ => []
  | n + 1, text =>
    match scanNumber text with
    | none => []
    | some (x, ':' :: rest) => x :: scanNumbers n rest
    | some (x, _) => [x]

/-- `cfg_glob_filename`. -/
def cfgGlobFilename (paths : List CStr) (bufferSize : Nat) : Option CStr :=
  match paths with
  | [] => none
  | path :: _ => if bufferSize < path.length + 1 then none else some path

/-- A file has this content. -/
def fileIs (h : List DevEvent) (path value : CStr) : Except Stop Bool := do
  let (len, buffer) ← readFile (os.openFile h path).toOption (malloc 20) 20
  pure (len ≠ -1 && cstr (chars buffer) = value)

/-- The loop of `find_scsi_device`. -/
def findScsiDeviceIn (h : List DevEvent) (busid wwpn lun : CStr) :
    List CStr → Except Stop (Option (List Int))
  | [] => .ok none
  | name :: names => do
    if name = ['.'] ∨ name = ['.', '.'] then findScsiDeviceIn h busid wwpn lun names
    else if !(← fileIs os h (sysPathScsi ++ '/' :: (name ++ "/hba_id".toList)) busid) then
      findScsiDeviceIn h busid wwpn lun names
    else if !(← fileIs os h (sysPathScsi ++ '/' :: (name ++ "/wwpn".toList)) wwpn) then
      findScsiDeviceIn h busid wwpn lun names
    else if !(← fileIs os h (sysPathScsi ++ '/' :: (name ++ "/fcp_lun".toList)) lun) then
      findScsiDeviceIn h busid wwpn lun names
    else if (scanNumbers 4 name).length = 4 then .ok (some (scanNumbers 4 name))
    else findScsiDeviceIn h busid wwpn lun names

/-- `find_scsi_device`: host, channel, SCSI ID and SCSI LUN. -/
def findScsiDevice (h : List DevEvent) (busid wwpn lun : CStr) : Except Stop (Option (List Int)) :=
  match os.scsiDevices h with
  | none => .ok none
  | some names => findScsiDeviceIn os h busid wwpn lun names

/-- The directory of a SCSI device, `%s/%i:%i:%i:%i`. -/
def scsiPath (numbers : List Int) : CStr :=
  sysPathScsi ++ '/' :: List.intercalate [':'] (numbers.map printInt)

/-- The device node is made. -/
def makeNode (name : String) (dev : CStr) (major minor : Int) : DevM CStr := do
  record (.unlink dev)
  match os.mknod (← get) dev with
  | some e => do
    record (.mknod dev major minor false)
    fail ("Error creating device node for " ++ name ++ " - " ++ e)
  | none => do
    record (.mknod dev major minor true)
    pure dev

/-- The last part of `set_dasd_online` and `set_fcp_disk_online`: a device node, by the numbers in the
`dev` attribute of the block device. -/
def createNode (noLink name : String) (pattern dev : CStr) : DevM CStr := do
  match cfgGlobFilename (os.glob (← get) pattern) 50 with
  | none => fail noLink
  | some block =>
    match os.openFile (← get) block with
    | .error e => fail ("Error getting device node information for " ++ name ++ " - " ++ e)
    | .ok fd =>
      let r ← liftM (cfgRead fd 15 (malloc 16) 0 0)
      match scanNumbers 2 (cstr (chars r.buf)) with
      | [major, minor] => makeNode os name dev major minor
      | _ => fail ("Error getting device node information for " ++ name)

/-- The directory of a channel device. -/
def syspath : BootDevice → CStr
  | .dasd busid => sysPathDasd ++ '/' :: busid
  | .fcp busid _ _ => sysPathFcp ++ '/' :: busid

/-- The attribute `online` of a channel device. -/
def onlineAttr (device : BootDevice) : CStr := syspath device ++ "/online".toList

/-- The device node of a disk. -/
def devNode : BootDevice → CStr
  | .dasd busid => blockdevPath ++ "/b".toList ++ busid
  | .fcp busid wwpn lun => blockdevPath ++ "/b".toList ++ busid ++ ':' :: (wwpn ++ ':' :: lun)

/-- The first part of `set_dasd_online` and `set_fcp_disk_online`, and what follows it. -/
def switchOnline (device : BootDevice) (noDevice notOnline : String) (rest : DevM CStr) :
    DevM CStr := do
  if os.access (← get) (syspath device) = false then fail noDevice
  else
    let r ← echoTo os (onlineAttr device) ['1'] (some (onlineAttr device))
    if r ≠ 1 then fail notOnline else rest

/-- `set_dasd_online`. -/
def setDasdOnline (busid : CStr) : DevM CStr :=
  let name := "DASD '" ++ String.ofList busid ++ "'"
  switchOnline os (.dasd busid) ("Error setting " ++ name ++ " online - no such channel device")
    ("Error setting " ++ name ++ " online")
    (createNode os ("Error setting " ++ name ++ " online - could not get block:* sysfs link") name
      (syspath (.dasd busid) ++ "/block:*/dev".toList) (devNode (.dasd busid)))

/-- A WWPN or a LUN is configured, unless it is there. -/
def configure (path add number : CStr) (errmsg : String) : DevM Unit := do
  if os.access (← get) path = false then
    let r ← echoTo os add number (some (path ++ "/failed".toList))
    if r ≠ 0 then fail errmsg else pure ()
  else pure ()

/-- The last part of `set_fcp_disk_online`, which looks for the SCSI device. -/
def createScsiNode (busid wwpn lun : CStr) : DevM CStr := do
  let name := "FCP disk " ++ String.ofList (busid ++ ':' :: (wwpn ++ ':' :: lun))
  let noNode := "Error getting device node information for " ++ name
  let found ← liftM (findScsiDevice os (← get) busid wwpn lun)
  match found with
  | none => fail noNode
  | some numbers =>
    createNode os (noNode ++ " - could not get block:* sysfs link") name
      (scsiPath numbers ++ "/block:*/dev".toList) (devNode (.fcp busid wwpn lun))

/-- `set_fcp_disk_online`. -/
def setFcpDiskOnline (busid wwpn lun : CStr) : DevM CStr :=
  let channel := "FCP channel '" ++ String.ofList busid ++ "'"
  let port := "WWPN '" ++ String.ofList wwpn ++ "'"
  let path := syspath (.fcp busid wwpn lun)
  switchOnline os (.fcp busid wwpn lun)
    ("Error setting " ++ channel ++ " online - no such channel device")
    ("Error setting " ++ channel ++ " online") do
    configure os (path ++ '/' :: wwpn) (path ++ "/port_add".toList) wwpn
      ("Error configuring " ++ port ++ " on " ++ channel)
    configure os (path ++ '/' :: (wwpn ++ '/' :: lun)) (path ++ '/' :: (wwpn ++ "/unit_add".toList))
      lun ("Error configuring LUN '" ++ String.ofList lun ++ "' on " ++ port ++ " on " ++ channel)
    createScsiNode os busid wwpn lun

/-- `set_dasd_offline`. -/
def setDasdOffline (busid : CStr) : DevM Unit := do
  let _ ← echoTo os (onlineAttr (.dasd busid)) ['0'] none
  record (.unlink (devNode (.dasd busid)))

/-- `delete_scsi_device`. -/
def deleteScsiDevice (busid wwpn lun : CStr) : DevM Int := do
  let found ← liftM (findScsiDevice os (← get) busid wwpn lun)
  match found with
  | none => pure (-1)
  | some numbers => echoTo os (scsiPath numbers ++ "/delete".toList) ['1'] none

/-- `set_fcp_disk_offline`. -/
def setFcpDiskOffline (busid wwpn lun : CStr) : DevM Bool := do
  let path := syspath (.fcp busid wwpn lun)
  let _ ← deleteScsiDevice os busid wwpn lun
  let _ ← echoTo os (path ++ '/' :: (wwpn ++ "/unit_remove".toList)) lun none
  let _ ← echoTo os (path ++ "/port_remove".toList) wwpn none
  let _ ← echoTo os (onlineAttr (.fcp busid wwpn lun)) ['0'] none
  record (.unlink (devNode (.fcp busid wwpn lun)))
  pure (os.access (← get) (path ++ '/' :: (wwpn ++ '/' :: lun)))

/-- `set_dasd_online` or `set_fcp_disk_online`. -/
def setOnline : BootDevice → DevM CStr
  | .dasd busid => setDasdOnline os busid
  | .fcp busid wwpn lun => setFcpDiskOnline os busid wwpn lun

/-- `set_dasd_offline` or `set_fcp_disk_offline`. -/
def setOffline : BootDevice → DevM Unit
  | .dasd busid => setDasdOffline os busid
  | .fcp busid wwpn lun => do
    let _ ← setFcpDiskOffline os busid wwpn lun

end Functions

/-! ## The boot -/

/-- What the boot functions do: to the system of the loader, and to the machine. -/
abbrev BootM (α : Type) := Routine (Sys × List DevEvent) Stop α

/-- A step on the devices. -/
def onDevices {α : Type} (x : DevM α) : BootM α :=
  ExceptT.mk fun s => pure ((x.outcome s.2).1, s.1, (x.outcome s.2).2)

/-- A step on the system of the loader. -/
def onSystem {α : Type} (x : SysM α) : BootM α :=
  ExceptT.mk fun s => StateT.run (ExceptT.run x) s.1 >>= fun p => pure (p.1, p.2, s.2)

/-- What a function returns: its error message, if there is one. -/
def returned : Except Stop Unit → Except Stop (Option String)
  | .ok _ => .ok none
  | .error (.errmsg errmsg) => .ok (some errmsg)
  | .error e => .error e

/-- A function is called for its error message. -/
def errmsgOf (x : BootM Unit) : BootM (Option String) :=
  ExceptT.mk fun s => StateT.run (ExceptT.run x) s >>= fun p => pure (returned p.1, p.2)

section Actions

variable (t : Target) (os : Os) (devs : DevOs) (boot : CfgBentry)

/-- A device is set online and opened. -/
def attach (device : BootDevice) : BootM Disk := do
  let dev ← onDevices (setOnline devs device)
  let (_, h) ← get
  Routine.lift (diskOpen t (devs.openDisk h dev))

/-- The part behind the boot: `disk_close`, and `set_dasd_offline` or `set_fcp_disk_offline`. -/
def detach (device : BootDevice) : DevM Unit := do
  record .close
  setOffline devs device

/-- The boot from an attached disk. -/
def bootAttached (device : BootDevice) (program : Int) (disk : Disk) : BootM Unit := do
  let errmsg ← errmsgOf (onSystem (bootBootmapDisk t os disk boot program))
  onDevices (detach devs device)
  match errmsg with
  | none => pure ()
  | some errmsg => throw (.errmsg errmsg)

/-- What the two functions do with the device that they read. -/
def bootFrom (invalid : String) (fields : Option (BootDevice × Int)) : BootM Unit :=
  match fields with
  | none => throw (.errmsg invalid)
  | some (device, program) => do
    let disk ← attach t devs device
    bootAttached t os devs boot device program disk

/-- `action_bootmap_boot_dasd`. -/
def actionBootmapBootDasd : BootM Unit :=
  bootFrom t os devs boot "Error - invalid 'dasd' boot map URI." (dasdFields boot.bootmap)

/-- `action_bootmap_boot_zfcp`. -/
def actionBootmapBootZfcp : BootM Unit :=
  bootFrom t os devs boot "Error - invalid 'zfcp' boot map URI." (zfcpFields boot.bootmap)

end Actions

/-! ## Released devices -/

/-- The function has returned. -/
def Returned : Except Stop Unit → Prop
  | .ok _ => True
  | .error (.errmsg _) => True
  | .error _ => False

/-- The attribute `online` of the channel device with this directory. -/
def onlineOf (channel : CStr) : CStr := channel ++ "/online".toList

/-- A channel device that was set online has been requested offline since, and every device node that
was made since has been removed. -/
def Released (trace : List DevEvent) : Prop :=
  ∀ channel pre post, trace = pre ++ .echo (onlineOf channel) ['1'] true :: post →
    (∃ written, .echo (onlineOf channel) ['0'] written ∈ post) ∧
    ∀ mid path major minor rest, post = mid ++ .mknod path major minor true :: rest →
      .unlink path ∈ rest

/-! ## What the machine has to answer -/

section Answers

variable (os : DevOs)

/-- Data is written to an attribute, and then the number in another one is `n`. -/
def Answers (h : List DevEvent) (path data test : CStr) (n : Int) : Prop :=
  echoData (os.attr h path (some test)) (some path) (some data) = true ∧
    testFile (os.attr h path (some test)) (some test) (malloc 32) = .ok n

/-- The device is there, and it accepts to be set online. -/
def Written (device : BootDevice) : Prop :=
  os.access [] (syspath device) = true ∧
    echoData (os.attr [] (onlineAttr device) (some (onlineAttr device))) (some (onlineAttr device))
      (some ['1']) = true

/-- The `dev` attribute of the block device is found, it can be read and has two numbers, and the node
can be made. -/
def NodeMade (pattern dev : CStr) (h h' : List DevEvent) : Prop :=
  ∃ block fd r major minor, (os.glob h pattern).head? = some block ∧ block.length < 50 ∧
    os.openFile h block = .ok fd ∧ cfgRead fd 15 (malloc 16) 0 0 = .ok r ∧
    scanNumbers 2 (cstr (chars r.buf)) = [major, minor] ∧
    os.mknod (h ++ [.unlink dev]) dev = none ∧
    h' = h ++ [.unlink dev, .mknod dev major minor true]

/-- A WWPN or a LUN is there, or it is added. -/
def Configured (path add number : CStr) (h h' : List DevEvent) : Prop :=
  (os.access h path = true ∧ h' = h) ∨
    (os.access h path = false ∧ Answers os h add number (path ++ "/failed".toList) 0 ∧
      h' = h ++ [.echo add number true])

/-- What follows the setting online has nothing in its way. -/
def Ready : BootDevice → List DevEvent → List DevEvent → Prop
  | .dasd busid, h, h' =>
    NodeMade os (syspath (.dasd busid) ++ "/block:*/dev".toList) (devNode (.dasd busid)) h h'
  | .fcp busid wwpn lun, h, h' =>
    let path := syspath (.fcp busid wwpn lun)
    ∃ h₁ h₂ numbers, Configured os (path ++ '/' :: wwpn) (path ++ "/port_add".toList) wwpn h h₁ ∧
      Configured os (path ++ '/' :: (wwpn ++ '/' :: lun))
        (path ++ '/' :: (wwpn ++ "/unit_add".toList)) lun h₁ h₂ ∧
      findScsiDevice os h₂ busid wwpn lun = .ok (some numbers) ∧
      NodeMade os (scsiPath numbers ++ "/block:*/dev".toList) (devNode (.fcp busid wwpn lun)) h₂ h'

/-- The device accepts to be set online, it is online then, and everything up to the opening of the
disk succeeds. -/
def Attaches (t : Target) (device : BootDevice) (h : List DevEvent) (disk : Disk) : Prop :=
  Answers os [] (onlineAttr device) ['1'] (onlineAttr device) 1 ∧
    os.access [] (syspath device) = true ∧
    Ready os device [.echo (onlineAttr device) ['1'] true] h ∧
    (diskOpen t (os.openDisk h (devNode device))).Gives (.ok disk)

end Answers

/-! ## Setting a device online -/

section Online

variable {os : DevOs} {h h' : List DevEvent}

theorem echoTo_outcome (path data : CStr) (test : Option CStr) (h : List DevEvent) :
    (echoTo os path data test).outcome h =
      (echoAndTest (os.attr h path test) (some path) (some data) test (malloc 32),
        h ++ [.echo path data (echoData (os.attr h path test) (some path) (some data))]) := rfl

theorem echoAndTest_eq_ok_iff {attr : Attribute} {echo data test : Option CStr} {buf : List UInt8}
    {n : Int} (hn : n ≠ -1) : echoAndTest attr echo data test buf = .ok n ↔
      echoData attr echo data = true ∧ testFile attr test buf = .ok n := by
  unfold echoAndTest
  by_cases hecho : echoData attr echo data = true
  · rw [if_pos hecho]
    exact (and_iff_right hecho).symm
  · rw [if_neg hecho]
    exact iff_of_false (fun h => hn (Except.ok.inj h).symm) fun h => hecho h.1

/-- A part that goes on only if the right number is read. -/
theorem echoTo_then_eq_ok_iff {α : Type} {path data test : CStr} {n : Int} (hn : n ≠ -1)
    {errmsg : String} {rest : DevM α} {a : α} :
    (echoTo os path data (some test) >>= fun r => if r ≠ n then fail errmsg else rest).outcome h =
        (.ok a, h') ↔
      Answers os h path data test n ∧ rest.outcome (h ++ [.echo path data true]) = (.ok a, h') := by
  rw [outcome_bind_eq_ok]
  simp only [echoTo_outcome, Prod.mk.injEq]
  constructor
  · rintro ⟨r, h₁, ⟨hr, rfl⟩, hrest⟩
    by_cases hne : r ≠ n
    · rw [if_pos hne] at hrest
      cases hrest
    · obtain rfl := not_not.mp hne
      obtain ⟨hecho, htest⟩ := (echoAndTest_eq_ok_iff hn).mp hr
      rw [if_neg hne, hecho] at hrest
      exact ⟨⟨hecho, htest⟩, hrest⟩
  · rintro ⟨⟨hecho, htest⟩, hrest⟩
    refine ⟨n, _, ⟨(echoAndTest_eq_ok_iff hn).mpr ⟨hecho, htest⟩, rfl⟩, ?_⟩
    rw [if_neg (not_not.mpr rfl), hecho]
    exact hrest

theorem cfgGlobFilename_eq_some_iff {paths : List CStr} {n : Nat} {block : CStr} :
    cfgGlobFilename paths n = some block ↔ paths.head? = some block ∧ block.length < n := by
  cases paths with
  | nil => exact iff_of_false (by simp [cfgGlobFilename]) (by simp)
  | cons path paths =>
    rw [List.head?_cons, Option.some.injEq]
    show (if n < path.length + 1 then none else some path) = some block ↔ _
    by_cases hlong : n < path.length + 1
    · rw [if_pos hlong]
      refine iff_of_false (by simp) ?_
      rintro ⟨rfl, hlt⟩
      omega
    · rw [if_neg hlong, Option.some.injEq]
      refine ⟨?_, And.left⟩
      rintro rfl
      exact ⟨rfl, by omega⟩

theorem makeNode_eq_ok_iff {name : String} {dev d : CStr} {major minor : Int} :
    (makeNode os name dev major minor).outcome h = (.ok d, h') ↔
      d = dev ∧ os.mknod (h ++ [.unlink dev]) dev = none ∧
        h' = h ++ [.unlink dev, .mknod dev major minor true] := by
  unfold makeNode
  rw [outcome_record_bind, outcome_get_bind]
  cases hmknod : os.mknod (h ++ [.unlink dev]) dev with
  | some e => exact iff_of_false (fun hok => by cases hok) (by simp)
  | none =>
    simp only [outcome_record_bind, outcome_pure, Prod.mk.injEq, Except.ok.injEq, true_and,
      List.append_assoc, List.cons_append, List.nil_append]
    exact and_congr eq_comm eq_comm

theorem createNode_eq_ok_iff {noLink name : String} {pattern dev d : CStr} :
    (createNode os noLink name pattern dev).outcome h = (.ok d, h') ↔
      d = dev ∧ NodeMade os pattern dev h h' := by
  unfold createNode NodeMade
  rw [outcome_get_bind]
  constructor
  · intro hok
    cases hglob : cfgGlobFilename (os.glob h pattern) 50 with
    | none =>
      rw [hglob] at hok
      cases hok
    | some block =>
      simp only [hglob, outcome_get_bind] at hok
      cases hopen : os.openFile h block with
      | error e =>
        rw [hopen] at hok
        cases hok
      | ok fd =>
        rw [hopen] at hok
        obtain ⟨r, h₁, hr, hok⟩ := outcome_bind_eq_ok.mp hok
        obtain ⟨hread, rfl⟩ := Prod.mk.inj hr
        split at hok
        · rename_i major minor hnumbers
          obtain ⟨rfl, hmknod, rfl⟩ := makeNode_eq_ok_iff.mp hok
          obtain ⟨hhead, hlength⟩ := cfgGlobFilename_eq_some_iff.mp hglob
          exact ⟨rfl, block, fd, r, major, minor, hhead, hlength, hopen, hread, hnumbers, hmknod, rfl⟩
        · cases hok
  · rintro ⟨rfl, block, fd, r, major, minor, hhead, hlength, hopen, hread, hnumbers, hmknod, rfl⟩
    simp only [cfgGlobFilename_eq_some_iff.mpr ⟨hhead, hlength⟩, outcome_get_bind, hopen]
    rw [hread, outcome_bind_of_ok (outcome_lift _ h), hnumbers]
    exact makeNode_eq_ok_iff.mpr ⟨rfl, hmknod, rfl⟩

theorem configure_eq_ok_iff {path add number : CStr} {errmsg : String} {u : Unit} :
    (configure os path add number errmsg).outcome h = (.ok u, h') ↔
      Configured os path add number h h' := by
  unfold configure Configured
  rw [outcome_get_bind]
  by_cases haccess : os.access h path = false
  · rw [if_pos haccess, echoTo_then_eq_ok_iff (by decide), haccess]
    simp [eq_comm]
  · rw [if_neg haccess, Bool.eq_true_of_not_eq_false haccess]
    simp [eq_comm]

theorem createScsiNode_eq_ok_iff {busid wwpn lun d : CStr} :
    (createScsiNode os busid wwpn lun).outcome h = (.ok d, h') ↔
      d = devNode (.fcp busid wwpn lun) ∧ ∃ numbers,
        findScsiDevice os h busid wwpn lun = .ok (some numbers) ∧
        NodeMade os (scsiPath numbers ++ "/block:*/dev".toList) (devNode (.fcp busid wwpn lun)) h
          h' := by
  unfold createScsiNode
  rw [outcome_get_bind]
  constructor
  · intro hok
    obtain ⟨found, h₁, hr, hok⟩ := outcome_bind_eq_ok.mp hok
    obtain ⟨hfound, rfl⟩ := Prod.mk.inj hr
    cases found with
    | none => cases hok
    | some numbers =>
      obtain ⟨rfl, hnode⟩ := createNode_eq_ok_iff.mp hok
      exact ⟨rfl, numbers, hfound, hnode⟩
  · rintro ⟨rfl, numbers, hfound, hnode⟩
    rw [hfound, outcome_bind_of_ok (outcome_lift _ h)]
    exact createNode_eq_ok_iff.mpr ⟨rfl, hnode⟩

theorem switchOnline_eq_ok_iff {device : BootDevice} {noDevice notOnline : String} {rest : DevM CStr}
    {d : CStr} : (switchOnline os device noDevice notOnline rest).outcome [] = (.ok d, h') ↔
      os.access [] (syspath device) = true ∧
        Answers os [] (onlineAttr device) ['1'] (onlineAttr device) 1 ∧
        rest.outcome [.echo (onlineAttr device) ['1'] true] = (.ok d, h') := by
  unfold switchOnline
  rw [outcome_get_bind]
  by_cases haccess : os.access [] (syspath device) = false
  · rw [if_pos haccess, haccess]
    exact iff_of_false (fun hok => by cases hok) (by simp)
  · rw [if_neg haccess, Bool.eq_true_of_not_eq_false haccess,
      echoTo_then_eq_ok_iff (by decide)]
    exact (and_iff_right rfl).symm

/-- **When a device is set online**, with its node. -/
theorem setOnline_eq_ok_iff {device : BootDevice} {dev : CStr} :
    (setOnline os device).outcome [] = (.ok dev, h) ↔
      dev = devNode device ∧ os.access [] (syspath device) = true ∧
        Answers os [] (onlineAttr device) ['1'] (onlineAttr device) 1 ∧
        Ready os device [.echo (onlineAttr device) ['1'] true] h := by
  cases device with
  | dasd busid =>
    show (switchOnline os _ _ _ _).outcome [] = (.ok dev, h) ↔ _
    rw [switchOnline_eq_ok_iff, createNode_eq_ok_iff]
    unfold Ready
    tauto
  | fcp busid wwpn lun =>
    show (switchOnline os _ _ _ _).outcome [] = (.ok dev, h) ↔ _
    rw [switchOnline_eq_ok_iff, outcome_bind_eq_ok]
    simp only [outcome_bind_eq_ok, configure_eq_ok_iff, createScsiNode_eq_ok_iff]
    unfold Ready
    constructor
    · rintro ⟨haccess, honline, ⟨⟩, h₁, hport, ⟨⟩, h₂, hunit, rfl, numbers, hfound, hnode⟩
      exact ⟨rfl, haccess, honline, h₁, h₂, numbers, hport, hunit, hfound, hnode⟩
    · rintro ⟨rfl, haccess, honline, h₁, h₂, numbers, hport, hunit, hfound, hnode⟩
      exact ⟨haccess, honline, (), h₁, hport, (), h₂, hunit, rfl, numbers, hfound, hnode⟩

end Online

/-! ## What is done on the way -/

/-- What is done besides: no `online` attribute is written, and no node is made but that of the
device. -/
def Aside (device : BootDevice) : DevEvent → Prop
  | .echo path _ _ => ∀ channel, path ≠ onlineOf channel
  | .mknod path _ _ _ => path = devNode device
  | .unlink _ | .close => True

theorem ne_onlineOf {p path : CStr} (suffix : String) (hlength : suffix.toList.length = 7)
    (hne : suffix.toList ≠ "/online".toList) (hpath : path = p ++ suffix.toList) (channel : CStr) :
    path ≠ onlineOf channel := by
  rintro rfl
  exact hne (List.append_inj' hpath.symm hlength).2

section Events

variable {os : DevOs} {device : BootDevice}

theorem emits_echoTo {P : DevEvent → Prop} {path data : CStr} (test : Option CStr)
    (hP : ∀ written, P (.echo path data written)) : Emits P (echoTo os path data test) :=
  Emits.get_bind fun _ => (emits_record (hP _)).bind fun _ => emits_lift _

theorem emits_makeNode {name : String} {major minor : Int} :
    Emits (Aside device) (makeNode os name (devNode device) major minor) := by
  refine (emits_record trivial).bind fun _ => Emits.get_bind fun h => ?_
  cases os.mknod h (devNode device) with
  | some e =>
    have hdev : Aside device (.mknod (devNode device) major minor false) := rfl
    exact (emits_record hdev).bind fun _ => emits_throw _
  | none =>
    have hdev : Aside device (.mknod (devNode device) major minor true) := rfl
    exact (emits_record hdev).bind fun _ => emits_pure _

theorem emits_createNode {noLink name : String} {pattern : CStr} :
    Emits (Aside device) (createNode os noLink name pattern (devNode device)) := by
  refine Emits.get_bind fun h => ?_
  cases cfgGlobFilename (os.glob h pattern) 50 with
  | none => exact emits_throw _
  | some block =>
    refine Emits.get_bind fun h => ?_
    cases os.openFile h block with
    | error e => exact emits_throw _
    | ok fd =>
      refine (emits_lift _).bind fun r => ?_
      split
      · exact emits_makeNode
      · exact emits_throw _

theorem emits_configure {path add number : CStr} {errmsg : String}
    (hadd : ∀ channel, add ≠ onlineOf channel) :
    Emits (Aside device) (configure os path add number errmsg) := by
  refine Emits.get_bind fun h => ?_
  split
  · refine (emits_echoTo _ fun _ => hadd).bind fun r => ?_
    split
    · exact emits_throw _
    · exact emits_pure _
  · exact emits_pure _

theorem emits_createScsiNode {busid wwpn lun : CStr} :
    Emits (Aside (.fcp busid wwpn lun)) (createScsiNode os busid wwpn lun) := by
  refine Emits.get_bind fun h => (emits_lift _).bind fun found => ?_
  cases found with
  | none => exact emits_throw _
  | some numbers => exact emits_createNode

/-- What follows the setting online is besides. -/
theorem setOnline_eq (os : DevOs) (device : BootDevice) : ∃ noDevice notOnline rest,
    setOnline os device = switchOnline os device noDevice notOnline rest ∧
      Emits (Aside device) rest := by
  cases device with
  | dasd busid => exact ⟨_, _, _, rfl, emits_createNode⟩
  | fcp busid wwpn lun =>
    refine ⟨_, _, _, rfl, (emits_configure ?_).bind fun _ => (emits_configure ?_).bind fun _ =>
      emits_createScsiNode⟩
    · refine ne_onlineOf "ort_add" rfl (by decide) 
        (p := syspath (.fcp busid wwpn lun) ++ "/p".toList) ?_
      rw [List.append_assoc]
      rfl
    · refine ne_onlineOf "nit_add" rfl (by decide) 
        (p := syspath (.fcp busid wwpn lun) ++ '/' :: (wwpn ++ "/u".toList)) ?_
      rw [List.append_assoc, List.cons_append, List.append_assoc]
      rfl

/-- A device that accepts to be set online has been set online, whatever comes after. -/
theorem setOnline_of_written (h : Written os device) : ∃ l,
    ((setOnline os device).outcome []).2 = .echo (onlineAttr device) ['1'] true :: l ∧
      ∀ e ∈ l, Aside device e := by
  obtain ⟨noDevice, notOnline, rest, heq, hrest⟩ := setOnline_eq os device
  obtain ⟨haccess, hecho⟩ := h
  rw [heq, switchOnline, outcome_get_bind, haccess, if_neg (by decide), outcome_bind, echoTo_outcome,
    hecho]
  cases echoAndTest _ _ _ _ _ with
  | error e => exact ⟨[], rfl, List.forall_mem_nil _⟩
  | ok r =>
    dsimp only
    split
    · exact ⟨[], rfl, List.forall_mem_nil _⟩
    · obtain ⟨l, hl, hP⟩ := hrest [.echo (onlineAttr device) ['1'] true]
      exact ⟨l, hl, hP⟩

/-- Another device has not. -/
theorem setOnline_of_not_written (h : ¬ Written os device) : ∃ errmsg l,
    (setOnline os device).outcome [] = (.error (.errmsg errmsg), l) ∧
      ∀ e ∈ l, e = .echo (onlineAttr device) ['1'] false := by
  obtain ⟨noDevice, notOnline, rest, heq, -⟩ := setOnline_eq os device
  rw [heq, switchOnline, outcome_get_bind]
  by_cases haccess : os.access [] (syspath device) = false
  · rw [if_pos haccess]
    exact ⟨_, [], rfl, List.forall_mem_nil _⟩
  · have hecho := Bool.eq_false_of_not_eq_true fun hecho =>
      h ⟨Bool.eq_true_of_not_eq_false haccess, hecho⟩
    rw [if_neg haccess, outcome_bind, echoTo_outcome, echoAndTest, hecho]
    exact ⟨_, _, rfl, List.forall_mem_singleton.mpr rfl⟩

/-! ## Setting a device offline -/

theorem fileIs_returns (h : List DevEvent) (path value : CStr) :
    ∃ b, fileIs os h path value = .ok b := by
  obtain ⟨⟨len, buffer⟩, hr⟩ := readFile_returns (os.openFile h path).toOption
    (show 1 < 20 by decide) (show 20 ≤ (malloc 20).length by decide)
  unfold fileIs
  rw [hr]
  exact ⟨_, rfl⟩

theorem findScsiDevice_returns (h : List DevEvent) (busid wwpn lun : CStr) :
    ∃ found, findScsiDevice os h busid wwpn lun = .ok found := by
  unfold findScsiDevice
  cases os.scsiDevices h with
  | none => exact ⟨_, rfl⟩
  | some names =>
    induction names with
    | nil => exact ⟨_, rfl⟩
    | cons name names ih =>
      obtain ⟨hba, hhba⟩ :=
        @fileIs_returns os h (sysPathScsi ++ '/' :: (name ++ "/hba_id".toList)) busid
      obtain ⟨port, hport⟩ :=
        @fileIs_returns os h (sysPathScsi ++ '/' :: (name ++ "/wwpn".toList)) wwpn
      obtain ⟨unit, hunit⟩ :=
        @fileIs_returns os h (sysPathScsi ++ '/' :: (name ++ "/fcp_lun".toList)) lun
      dsimp only at ih ⊢
      unfold findScsiDeviceIn
      rw [hhba, hport, hunit]
      split
      · exact ih
      · cases hba with
        | false => exact ih
        | true =>
          cases port with
          | false => exact ih
          | true =>
            cases unit with
            | false => exact ih
            | true =>
              show ∃ found, (if (scanNumbers 4 name).length = 4 then _ else _) = Except.ok found
              split
              · exact ⟨_, rfl⟩
              · exact ih

/-- Without a test, data is written or not. -/
theorem echoTo_none_outcome (os : DevOs) (path data : CStr) (h : List DevEvent) : ∃ r written,
    (echoTo os path data none).outcome h = (.ok r, h ++ [.echo path data written]) := by
  rw [echoTo_outcome, echoAndTest]
  split
  · exact ⟨0, _, rfl⟩
  · exact ⟨-1, _, rfl⟩

theorem succeeds_echoTo {path data : CStr} (hpath : ∀ channel, path ≠ onlineOf channel) :
    Succeeds (Aside device) (echoTo os path data none) := by
  intro h
  obtain ⟨r, written, hr⟩ := echoTo_none_outcome os path data h
  exact ⟨r, _, hr, List.forall_mem_singleton.mpr hpath⟩

theorem succeeds_deleteScsiDevice {busid wwpn lun : CStr} :
    Succeeds (Aside device) (deleteScsiDevice os busid wwpn lun) := by
  refine Succeeds.get_bind fun h => ?_
  obtain ⟨found, hfound⟩ := @findScsiDevice_returns os h busid wwpn lun
  rw [hfound]
  cases found with
  | none => exact succeeds_pure _
  | some numbers => exact succeeds_echoTo (ne_onlineOf "/delete" rfl (by decide) rfl)

theorem setFcpDiskOffline_outcome (os : DevOs) (busid wwpn lun : CStr) (h : List DevEvent) :
    ∃ b l written, (setFcpDiskOffline os busid wwpn lun).outcome h = (.ok b, h ++ (l ++
      [.echo (onlineAttr (.fcp busid wwpn lun)) ['0'] written,
        .unlink (devNode (.fcp busid wwpn lun))])) ∧ ∀ e ∈ l, Aside (.fcp busid wwpn lun) e := by
  let path := syspath (.fcp busid wwpn lun)
  have hunit : ∀ channel, path ++ '/' :: (wwpn ++ "/unit_remove".toList) ≠ onlineOf channel := by
    refine ne_onlineOf "_remove" rfl (by decide) (p := path ++ '/' :: (wwpn ++ "/unit".toList)) ?_
    rw [List.append_assoc, List.cons_append, List.append_assoc]
    rfl
  have hport : ∀ channel, path ++ "/port_remove".toList ≠ onlineOf channel := by
    refine ne_onlineOf "_remove" rfl (by decide) (p := path ++ "/port".toList) ?_
    rw [List.append_assoc]
    rfl
  unfold setFcpDiskOffline
  obtain ⟨_, l₁, h₁, hl₁⟩ := (@succeeds_deleteScsiDevice os (.fcp busid wwpn lun) busid wwpn
    lun).bind_outcome _ h
  rw [h₁]
  obtain ⟨_, l₂, h₂, hl₂⟩ := (@succeeds_echoTo os (.fcp busid wwpn lun) _ lun hunit).bind_outcome _
    (h ++ l₁)
  rw [h₂]
  obtain ⟨_, l₃, h₃, hl₃⟩ := (@succeeds_echoTo os (.fcp busid wwpn lun) _ wwpn hport).bind_outcome _
    (h ++ l₁ ++ l₂)
  rw [h₃]
  obtain ⟨_, written, hoff⟩ := echoTo_none_outcome os (onlineAttr (.fcp busid wwpn lun)) ['0']
    (h ++ l₁ ++ l₂ ++ l₃)
  rw [outcome_bind_of_ok hoff, outcome_record_bind, outcome_get_bind, outcome_pure]
  refine ⟨_, l₁ ++ (l₂ ++ l₃), written, congrArg (Prod.mk _) ?_, List.forall_mem_append.mpr
    ⟨hl₁, List.forall_mem_append.mpr ⟨hl₂, hl₃⟩⟩⟩
  simp only [List.append_assoc, List.cons_append, List.nil_append]

/-- **The device is detached**: it is requested offline, and its node is removed. -/
theorem detach_outcome (os : DevOs) (device : BootDevice) (h : List DevEvent) : ∃ l written,
    (detach os device).outcome h = (.ok (), h ++ (l ++
      [.echo (onlineAttr device) ['0'] written, .unlink (devNode device)])) ∧
      ∀ e ∈ l, Aside device e := by
  have hclose : Aside device .close := trivial
  unfold detach
  cases device with
  | dasd busid =>
    obtain ⟨r, written, hoff⟩ :=
      echoTo_none_outcome os (onlineAttr (.dasd busid)) ['0'] (h ++ [.close])
    refine ⟨[.close], written, ?_, List.forall_mem_singleton.mpr hclose⟩
    show (setDasdOffline os busid).outcome (h ++ [.close]) = _
    rw [setDasdOffline, outcome_bind_of_ok hoff, outcome_record, List.append_assoc,
      List.append_assoc]
    rfl
  | fcp busid wwpn lun =>
    obtain ⟨b, l, written, hoff, hl⟩ := setFcpDiskOffline_outcome os busid wwpn lun (h ++ [.close])
    refine ⟨.close :: l, written, ?_, List.forall_mem_cons.mpr ⟨hclose, hl⟩⟩
    show (setFcpDiskOffline os busid wwpn lun >>= fun _ => pure ()).outcome (h ++ [.close]) = _
    rw [outcome_bind_of_ok hoff, outcome_pure, List.append_assoc]
    rfl

end Events

/-! ## The rules for the boot -/

theorem runs_onDevices {α : Type} {x : DevM α} {s s' : Sys} {h h' : List DevEvent}
    {r : Except Stop α} : (onDevices x).Runs (s, h) r (s', h') ↔ x.outcome h = (r, h') ∧ s = s' := by
  unfold Routine.Runs onDevices
  show (pure ((x.outcome h).1, s, (x.outcome h).2) : Comp _).Returns (r, s', h') ↔ _
  rw [Comp.returns_pure, Prod.mk.injEq, Prod.mk.injEq, Prod.ext_iff]
  tauto

theorem runs_onSystem {α : Type} {x : SysM α} {s s' : Sys} {h h' : List DevEvent}
    {r : Except Stop α} : (onSystem x).Runs (s, h) r (s', h') ↔ x.Runs s r s' ∧ h = h' := by
  unfold Routine.Runs onSystem
  show (StateT.run (ExceptT.run x) s >>= fun p => pure (p.1, p.2, h)).Returns (r, s', h') ↔ _
  rw [Comp.returns_bind]
  simp only [Comp.returns_pure, Prod.mk.injEq]
  constructor
  · rintro ⟨⟨r₁, s₁⟩, hx, rfl, rfl, rfl⟩
    exact ⟨hx, rfl⟩
  · rintro ⟨hx, rfl⟩
    exact ⟨(r, s'), hx, rfl, rfl, rfl⟩

theorem runs_errmsgOf {x : BootM Unit} {s s' : Sys × List DevEvent}
    {r : Except Stop (Option String)} :
    (errmsgOf x).Runs s r s' ↔ ∃ p, x.Runs s p s' ∧ returned p = r := by
  unfold Routine.Runs errmsgOf
  show (StateT.run (ExceptT.run x) s >>= fun p => pure (returned p.1, p.2)).Returns (r, s') ↔ _
  rw [Comp.returns_bind]
  simp only [Comp.returns_pure, Prod.mk.injEq]
  constructor
  · rintro ⟨⟨p, s₁⟩, hx, hp, rfl⟩
    exact ⟨p, hx, hp⟩
  · rintro ⟨p, hx, hp⟩
    exact ⟨(p, s'), hx, hp, rfl⟩

/-! ## Releasing the device -/

theorem released_of_quiet {trace : List DevEvent}
    (h : ∀ e ∈ trace, ∀ channel, e ≠ .echo (onlineOf channel) ['1'] true) : Released trace := by
  rintro channel pre post rfl
  exact absurd rfl (h _ (List.mem_append_right _ List.mem_cons_self) channel)

section Traces

variable {device : BootDevice} {l : List DevEvent} (hl : ∀ e ∈ l, Aside device e)
include hl

/-- A device that is set online, and nothing more, is not released. -/
theorem not_released : ¬ Released (.echo (onlineAttr device) ['1'] true :: l) := by
  intro hreleased
  obtain ⟨⟨written, hoff⟩, -⟩ := hreleased (syspath device) [] l rfl
  exact hl _ hoff (syspath device) rfl

/-- A device that is detached in the end is released. -/
theorem released_detached (written : Bool) : Released (.echo (onlineAttr device) ['1'] true ::
    (l ++ [.echo (onlineAttr device) ['0'] written, .unlink (devNode device)])) := by
  intro channel pre post htrace
  cases pre with
  | nil =>
    obtain ⟨hon, rfl⟩ := List.cons_eq_cons.mp htrace
    have hattr : onlineAttr device = onlineOf channel := (DevEvent.echo.inj hon).1
    refine ⟨⟨written, by simp [hattr]⟩, fun mid path major minor rest hpost => ?_⟩
    rcases List.append_eq_append_iff.mp hpost with ⟨x, -, htail⟩ | ⟨x, rfl, hrest⟩
    · -- no node is made at the end
      have hmem : DevEvent.mknod path major minor true ∈
          [.echo (onlineAttr device) ['0'] written, .unlink (devNode device)] :=
        htail ▸ List.mem_append_right _ List.mem_cons_self
      simp at hmem
    · cases x with
      | nil => simp at hrest
      | cons e x =>
        obtain ⟨rfl, rfl⟩ := List.cons_eq_cons.mp hrest
        obtain rfl : path = devNode device := hl _ (List.mem_append_right _ List.mem_cons_self)
        simp
  | cons e pre =>
    obtain ⟨-, htail⟩ := List.cons_eq_cons.mp htrace
    have hmem : DevEvent.echo (onlineOf channel) ['1'] true ∈
        l ++ [.echo (onlineAttr device) ['0'] written, .unlink (devNode device)] :=
      htail ▸ List.mem_append_right _ List.mem_cons_self
    rcases List.mem_append.mp hmem with hmem | hmem
    · exact absurd rfl (hl _ hmem channel)
    · simp at hmem

end Traces

section Boot

variable {t : Target} {os : Os} {devs : DevOs} {boot : CfgBentry} {device : BootDevice}
  {s s' : Sys} {h : List DevEvent}

theorem attach_ok_iff {disk : Disk} : (attach t devs device).Runs (s, []) (.ok disk) (s', h) ↔
    s = s' ∧ Attaches devs t device h disk := by
  unfold attach Attaches
  rw [Routine.runs_bind_ok]
  constructor
  · rintro ⟨dev, ⟨s₁, h₁⟩, hon, hopen⟩
    obtain ⟨houtcome, rfl⟩ := runs_onDevices.mp hon
    obtain ⟨rfl, haccess, honline, hready⟩ := setOnline_eq_ok_iff.mp houtcome
    rw [Routine.runs_get_bind] at hopen
    obtain ⟨hdisk, heq⟩ := Routine.runs_lift.mp hopen
    obtain ⟨rfl, rfl⟩ := Prod.mk.inj heq
    exact ⟨rfl, honline, haccess, hready, hdisk⟩
  · rintro ⟨rfl, honline, haccess, hready, hopen⟩
    refine ⟨devNode device, (s, h), runs_onDevices.mpr
      ⟨setOnline_eq_ok_iff.mpr ⟨rfl, haccess, honline, hready⟩, rfl⟩, ?_⟩
    rw [Routine.runs_get_bind]
    exact Routine.runs_lift.mpr ⟨hopen, rfl⟩

/-- An attempt to attach a device leaves what setting it online left. -/
theorem attach_trace {r : Except Stop Disk} (hrun : (attach t devs device).Runs (s, []) r (s', h)) :
    h = ((setOnline devs device).outcome []).2 := by
  unfold attach at hrun
  rcases Routine.runs_bind.mp hrun with ⟨dev, ⟨s₁, h₁⟩, hon, hopen⟩ | ⟨e, hon, -⟩
  · obtain ⟨houtcome, -⟩ := runs_onDevices.mp hon
    rw [Routine.runs_get_bind] at hopen
    obtain ⟨-, heq⟩ := Routine.runs_lift.mp hopen
    rw [houtcome, ← (Prod.mk.inj heq).2]
  · obtain ⟨houtcome, -⟩ := runs_onDevices.mp hon
    rw [houtcome]

theorem written_of_attaches {disk : Disk} (h : Attaches devs t device h disk) :
    Written devs device := ⟨h.2.1, h.1.1⟩

theorem released_iff_of_attach_error {e : Stop}
    (hrun : (attach t devs device).Runs (s, []) (.error e) (s', h)) :
    Released h ↔ (Written devs device → ∃ h disk, Attaches devs t device h disk) := by
  have htrace := attach_trace hrun
  by_cases hwritten : Written devs device
  · obtain ⟨l, hl, haside⟩ := setOnline_of_written hwritten
    rw [htrace, hl]
    refine iff_of_false (not_released haside) fun hattaches => ?_
    obtain ⟨h₁, disk, hattaches⟩ := hattaches hwritten
    obtain ⟨hr, -⟩ := hrun.unique (attach_ok_iff.mpr ⟨rfl, hattaches⟩)
    cases hr
  · obtain ⟨errmsg, l, hl, hoff⟩ := setOnline_of_not_written hwritten
    rw [htrace, hl]
    refine iff_of_true (released_of_quiet fun e he channel => ?_) fun h => absurd h hwritten
    rw [hoff e he]
    simp

/-- What is caught is no error message. -/
theorem returned_eq_error {r : Except Stop Unit} {e : Stop} (h : returned r = .error e) :
    r = .error e ∧ ∀ errmsg, e ≠ .errmsg errmsg := by
  cases r with
  | ok _ => cases h
  | error e' =>
    cases e' with
    | errmsg _ => cases h
    | _ =>
      obtain rfl := Except.error.inj h
      exact ⟨rfl, by simp⟩

/-- **The boot from an attached disk** comes to what the boot comes to, and detaches the device. -/
theorem bootAttached_runs {program : Int} {disk : Disk} {r : Except Stop Unit}
    {trace : List DevEvent} (hr : Returned r)
    (hrun : (bootAttached t os devs boot device program disk).Runs (s, h) r (s', trace)) :
    (bootBootmapDisk t os disk boot program).Runs s r s' ∧
      trace = ((detach devs device).outcome h).2 := by
  unfold bootAttached at hrun
  rcases Routine.runs_bind.mp hrun with ⟨errmsg, ⟨s₁, h₁⟩, hboot, hrest⟩ | ⟨e, hboot, rfl⟩
  · obtain ⟨p, hsystem, hp⟩ := runs_errmsgOf.mp hboot
    obtain ⟨hend, rfl⟩ := runs_onSystem.mp hsystem
    obtain ⟨l, written, hdetach, -⟩ := detach_outcome devs device h
    have hoff : (onDevices (detach devs device)).Runs (s₁, h) (.ok ()) (s₁, _) :=
      runs_onDevices.mpr ⟨hdetach, rfl⟩
    rw [Routine.runs_bind_of_ok hoff] at hrest
    rw [hdetach]
    cases p with
    | ok _ =>
      obtain rfl := Except.ok.inj hp
      obtain ⟨rfl, heq⟩ := Routine.runs_pure.mp hrest
      obtain ⟨rfl, rfl⟩ := Prod.mk.inj heq
      exact ⟨hend, rfl⟩
    | error e =>
      cases e with
      | errmsg errmsg' =>
        obtain rfl := Except.ok.inj hp
        obtain ⟨rfl, heq⟩ := Routine.runs_throw.mp hrest
        obtain ⟨rfl, rfl⟩ := Prod.mk.inj heq
        exact ⟨hend, rfl⟩
      | _ => cases hp
  · obtain ⟨p, -, hp⟩ := runs_errmsgOf.mp hboot
    obtain ⟨-, hne⟩ := returned_eq_error hp
    cases e with
    | errmsg errmsg => exact absurd rfl (hne errmsg)
    | _ => exact hr.elim

/-- **When the device is released.** -/
theorem bootFrom_released_iff {invalid : String} {fields : Option (BootDevice × Int)}
    {r : Except Stop Unit} {trace : List DevEvent} (hr : Returned r)
    (hrun : (bootFrom t os devs boot invalid fields).Runs (s, []) r (s', trace)) :
    Released trace ↔ ∀ device program, fields = some (device, program) → Written devs device →
      ∃ h disk, Attaches devs t device h disk := by
  unfold bootFrom at hrun
  cases fields with
  | none =>
    obtain ⟨-, heq⟩ := Routine.runs_throw.mp hrun
    obtain ⟨-, rfl⟩ := Prod.mk.inj heq
    exact iff_of_true (released_of_quiet (List.forall_mem_nil _)) nofun
  | some x =>
    obtain ⟨device, program⟩ := x
    have hfields : (∀ device' program', some (device, program) = some (device', program') →
        Written devs device' → ∃ h disk, Attaches devs t device' h disk) ↔
        (Written devs device → ∃ h disk, Attaches devs t device h disk) := by
      refine ⟨fun h => h device program rfl, ?_⟩
      rintro h _ _ ⟨⟩
      exact h
    rw [hfields]
    rcases Routine.runs_bind.mp hrun with ⟨disk, ⟨s₁, h₁⟩, hattach, hboot⟩ | ⟨e, hattach, -⟩
    · obtain ⟨rfl, hattaches⟩ := attach_ok_iff.mp hattach
      obtain ⟨-, htrace⟩ := bootAttached_runs hr hboot
      obtain ⟨l, hl, haside⟩ := setOnline_of_written (written_of_attaches hattaches)
      obtain ⟨l', written, hdetach, haside'⟩ := detach_outcome devs device h₁
      have hall := List.forall_mem_append.mpr ⟨haside, haside'⟩
      rw [htrace, hdetach, attach_trace hattach, hl, List.cons_append, ← List.append_assoc]
      exact iff_of_true (released_detached hall written) fun _ => ⟨h₁, disk, hattaches⟩
    · exact released_iff_of_attach_error hattach

end Boot

/-- **The model of the loader**, where a device is attached in one step, has the same end. -/
theorem bootFrom_refines {t : Target} {os : Os} {devs : DevOs} {boot : CfgBentry} {s s' : Sys}
    (hattach : ∀ device, ∃ h,
      (attach t devs device).Runs (s, []) ((os.attach device).mapError .errmsg) (s, h))
    {invalid : String} {fields : Option (BootDevice × Int)} {r : Except Stop Unit}
    {trace : List DevEvent} (hr : Returned r)
    (hrun : (bootFrom t os devs boot invalid fields).Runs (s, []) r (s', trace)) :
    (bootFields t os boot invalid fields).Runs s r s' := by
  unfold bootFrom at hrun
  unfold bootFields
  cases fields with
  | none =>
    obtain ⟨rfl, heq⟩ := Routine.runs_throw.mp hrun
    exact Routine.runs_throw.mpr ⟨rfl, (Prod.mk.inj heq).1⟩
  | some x =>
    obtain ⟨device, program⟩ := x
    obtain ⟨h, hone⟩ := hattach device
    rcases Routine.runs_bind.mp hrun with ⟨disk, ⟨s₁, h₁⟩, hok, hboot⟩ | ⟨e, herror, rfl⟩
    · obtain ⟨hresult, hstate⟩ := hone.unique hok
      obtain ⟨rfl, -⟩ := Prod.mk.inj hstate
      cases hdisk : os.attach device with
      | error errmsg =>
        rw [hdisk] at hresult
        cases hresult
      | ok disk' =>
        rw [hdisk] at hresult
        obtain rfl := Except.ok.inj hresult
        simp only [hdisk]
        exact (bootAttached_runs hr hboot).1
    · obtain ⟨hresult, hstate⟩ := hone.unique herror
      obtain ⟨rfl, -⟩ := Prod.mk.inj hstate
      cases hdisk : os.attach device with
      | error errmsg =>
        rw [hdisk] at hresult
        obtain rfl := Except.error.inj hresult
        simp only [hdisk]
        exact Routine.runs_throw.mpr ⟨rfl, rfl⟩
      | ok disk' =>
        rw [hdisk] at hresult
        cases hresult

/-- **Failed boots release the device, if and only if nothing fails before the boot**: a boot map boot
that returns has requested a channel device that it has set online offline, and removed its node, in
exactly the runs where the device accepts to be set online only if the disk can be opened too. -/
theorem actionBootmapBoot_released_iff (t : Target) (os : Os) (devs : DevOs) (boot : CfgBentry)
    (s : Sys) :
    (∀ r s' trace, (actionBootmapBootDasd t os devs boot).Runs (s, []) r (s', trace) →
      Returned r →
      (Released trace ↔ ∀ device program, dasdFields boot.bootmap = some (device, program) →
        Written devs device → ∃ h disk, Attaches devs t device h disk)) ∧
    ∀ r s' trace, (actionBootmapBootZfcp t os devs boot).Runs (s, []) r (s', trace) →
      Returned r →
      (Released trace ↔ ∀ device program, zfcpFields boot.bootmap = some (device, program) →
        Written devs device → ∃ h disk, Attaches devs t device h disk) :=
  ⟨fun _ _ _ hrun hr => bootFrom_released_iff hr hrun,
    fun _ _ _ hrun hr => bootFrom_released_iff hr hrun⟩

/-- A DASD. -/
def dasdBoot : CfgBentry :=
  { CfgBentry.init with bootmap := "dasd://(0.0.5e89)".toList, action := .bootmapBoot }

theorem dasdFields_dasdBoot :
    dasdFields dasdBoot.bootmap = some (.dasd "0.0.5e89".toList, 0) := by
  refine dasdFields_eq_some_iff.mpr ⟨none, ⟨"0.0.5e89".toList,
    ⟨['0'], ['0'], "5e89".toList, ?_, ?_, ?_, rfl⟩, nofun, rfl, rfl⟩, rfl⟩
  · exact ⟨rfl, List.all_eq_true.mp rfl⟩
  · exact ⟨rfl, List.all_eq_true.mp rfl⟩
  · exact ⟨rfl, List.all_eq_true.mp rfl⟩

/-- The file with the numbers of a device node. -/
def devFile : Fd := ⟨[57, 52, 58, 48, 10], fun _ => some 4⟩

/-- A machine with a DASD that can be set online, and this disk behind its node. -/
def dasdMachine (file : Except String DiskFile) : DevOs where
  access _ _ := true
  attr _ _ _ := ⟨some 1, some atOnce⟩
  glob _ _ := ["/sys/bus/ccw/devices/0.0.5e89/block:dasda/dev".toList]
  openFile _ _ := .ok devFile
  scsiDevices _ := none
  mknod _ _ := none
  openDisk _ _ := file

/-- What is done until the DASD is online and its node is made. -/
def dasdOnline : List DevEvent :=
  [.echo "/sys/bus/ccw/devices/0.0.5e89/online".toList ['1'] true,
    .unlink "/dev/b0.0.5e89".toList, .mknod "/dev/b0.0.5e89".toList 94 0 true]

theorem dasdMachine_setOnline (file : Except String DiskFile) :
    (setOnline (dasdMachine file) (.dasd "0.0.5e89".toList)).outcome [] =
      (.ok "/dev/b0.0.5e89".toList, dasdOnline) := by
  have hreliable : ∀ {stream n}, (⟨stream, fun _ => some n⟩ : Fd).Reliable :=
    fun _ => Option.some_ne_none _
  obtain ⟨calls, hone⟩ := @cfgRead_reliable atOnce hreliable 31 (malloc 32) (by decide) (by decide)
  obtain ⟨calls', hdev⟩ := @cfgRead_reliable devFile hreliable 15 (malloc 16) (by decide) (by decide)
  have hnumber : scanAnyBase ['1', '\n'] = some 1 := by decide +kernel
  have htest : testFile ⟨some 1, some atOnce⟩
      (some (onlineAttr (.dasd "0.0.5e89".toList))) (malloc 32) = .ok 1 := by
    show (cfgRead atOnce 31 (malloc 32) 0 0 >>= _) = _
    rw [hone]
    show Except.ok ((scanAnyBase ['1', '\n']).getD (-1)) = _
    rw [hnumber]
    rfl
  have hnumbers : scanNumbers 2 (cstr (chars (overlay (malloc 16) 0 (devFile.stream.take 15)))) =
      [94, 0] := by decide +kernel
  exact setOnline_eq_ok_iff.mpr ⟨rfl, rfl, ⟨rfl, htest⟩, _, _, _, 94, 0, rfl, by decide, rfl, hdev,
    hnumbers, rfl, rfl⟩

section Tableless

open Bootmap Memory

/-- The first block of an FBA disk: the magic number, the pointer to the program table in block 1, and
the signature at the end. -/
def bootRecord (pos : Nat) : UInt8 :=
  if pos = 510 then 0x55 else if pos = 511 then 0xaa
  else (magic ++ List.replicate 12 0 ++ [0, 0, 0, 1, 2, 0, 0, 0]).getD pos 0

/-- A DASD of two blocks, with a boot record and no program table. -/
def tablelessFile : DiskFile where
  geo := .ok ⟨0, 0, 0⟩
  dasdInfo := some ("FBA ".toList, 0)
  blockSize := .ok 512
  devSize := .ok 2
  dev size := Device.ofContent size bootRecord

/-- The disk, once the boot record is read. -/
def tablelessDisk : Disk :=
  .image .fba 512 2 ⟨0, 0, 0⟩ { DiskBlockptr.zero with linear := ⟨1, 512, 0⟩ } bootRecord
    blockSize512_pos

theorem diskReadScsiMbr_tableless :
    (diskReadScsiMbr s390x { tablelessDisk with programTablePtr := .zero }).Gives
      (.ok tablelessDisk.programTablePtr) := by
  have hread : (diskReadPhyBlocks s390x { tablelessDisk with programTablePtr := .zero } (malloc 512) 0
      { DiskBlockptr.zero with linear := ⟨0, 512, 0⟩ }).Gives
        (.ok (tablelessDisk.dev.slice 0 512)) :=
    (diskReadPhyBlocks_whole s390x rfl _ (malloc_length 512) _).mpr
      (readOutcome_of_reliable rfl (Device.ofContent_reliable _ _) rfl ⟨rfl, by decide⟩ (by decide))
  have hsignature : ¬ ((tablelessDisk.dev.slice 0 512)[510]? ≠ some 0x55 ∨
      (tablelessDisk.dev.slice 0 512)[511]? ≠ some 0xaa) := by decide +kernel
  have hmagic : ¬ (tablelessDisk.dev.slice 0 512).take 4 ≠ magic := by decide +kernel
  have hptr : readPackedBlockptr s390x { tablelessDisk with programTablePtr := .zero }
      ((tablelessDisk.dev.slice 0 512).drop 16) = tablelessDisk.programTablePtr := by decide +kernel
  refine Prog.gives_bind_eq_ok.mpr ⟨_, hread, ?_⟩
  rw [if_neg hsignature, if_neg hmagic, hptr]
  exact Prog.gives_pure.mpr rfl

theorem diskOpen_tableless : (diskOpen s390x (.ok tablelessFile)).Gives (.ok tablelessDisk) := by
  show (diskOpenBootRecord s390x { tablelessDisk with programTablePtr := .zero }).Gives _
  exact Prog.gives_bind_eq_ok.mpr ⟨_, diskReadScsiMbr_tableless, Prog.gives_pure.mpr rfl⟩

theorem bootBootmapDisk_tableless (s : Sys) :
    (bootBootmapDisk s390x Os.willing tablelessDisk dasdBoot 0).Runs s
      (.error (.errmsg "Error - invalid magic number in program table")) s := by
  have hread : (diskReadPhyBlocks s390x tablelessDisk (malloc 512) 0
      { DiskBlockptr.zero with linear := ⟨1, 512, 0⟩ }).Gives
        (.ok (tablelessDisk.dev.slice 512 512)) :=
    (diskReadPhyBlocks_whole s390x rfl _ (malloc_length 512) _).mpr
      (readOutcome_of_reliable rfl (Device.ofContent_reliable _ _) rfl ⟨rfl, by decide⟩ (by decide))
  have hmagic : peek Os.willing.beyond (tablelessDisk.dev.slice 512 512) 0 4 ≠ magic := by
    decide +kernel
  refine Routine.runs_bind.mpr (.inr ⟨_, Routine.runs_lift.mpr ⟨?_, rfl⟩, rfl⟩)
  refine Prog.gives_bind.mpr (.inr ⟨_, ?_, rfl⟩)
  show (diskReadPhyBlocks s390x tablelessDisk (malloc 512) 0
    { DiskBlockptr.zero with linear := ⟨1, 512, 0⟩ } >>= _).Gives _
  rw [Prog.gives_bind_ok hread, if_pos hmagic]
  exact Prog.gives_throw.mpr rfl

/-- **A device that went online is released** when the boot fails behind it. -/
theorem actionBootmapBoot_released_iff_tableless : ∃ trace,
    (actionBootmapBootDasd s390x Os.willing (dasdMachine (.ok tablelessFile)) dasdBoot).Runs
        (Sys.boot, []) (.error (.errmsg "Error - invalid magic number in program table"))
        (Sys.boot, trace) ∧ dasdOnline <+: trace ∧ Released trace := by
  have hattach : ∀ s, (attach s390x (dasdMachine (.ok tablelessFile)) (.dasd "0.0.5e89".toList)).Runs
      (s, []) (.ok tablelessDisk) (s, dasdOnline) := by
    intro s
    unfold attach
    refine (Routine.runs_bind_of_ok (runs_onDevices.mpr ⟨dasdMachine_setOnline _, rfl⟩)).mpr ?_
    rw [Routine.runs_get_bind]
    exact Routine.runs_lift.mpr ⟨diskOpen_tableless, rfl⟩
  obtain ⟨l, written, hdetach, -⟩ :=
    detach_outcome (dasdMachine (.ok tablelessFile)) (.dasd "0.0.5e89".toList) dasdOnline
  have hrun : (bootFrom s390x Os.willing (dasdMachine (.ok tablelessFile)) dasdBoot
      "Error - invalid 'dasd' boot map URI." (dasdFields dasdBoot.bootmap)).Runs (Sys.boot, [])
      (.error (.errmsg "Error - invalid magic number in program table"))
      (Sys.boot, dasdOnline ++ (l ++ [.echo (onlineAttr (.dasd "0.0.5e89".toList)) ['0'] written,
        .unlink (devNode (.dasd "0.0.5e89".toList))])) := by
    unfold bootFrom
    rw [dasdFields_dasdBoot]
    refine (Routine.runs_bind_of_ok (hattach _)).mpr ?_
    unfold bootAttached
    refine (Routine.runs_bind_of_ok (runs_errmsgOf.mpr
      ⟨_, runs_onSystem.mpr ⟨bootBootmapDisk_tableless _, rfl⟩, rfl⟩)).mpr ?_
    refine (Routine.runs_bind_of_ok (runs_onDevices.mpr ⟨hdetach, rfl⟩)).mpr ?_
    exact Routine.runs_throw.mpr ⟨rfl, rfl⟩
  refine ⟨_, hrun, List.prefix_append _ _, ?_⟩
  refine ((actionBootmapBoot_released_iff s390x Os.willing _ dasdBoot Sys.boot).1 _ _ _ hrun
    trivial).mpr ?_
  intro device program hfields _
  obtain ⟨rfl, -⟩ := Prod.mk.inj (Option.some.inj (dasdFields_dasdBoot.symm.trans hfields))
  exact ⟨dasdOnline, tablelessDisk, (attach_ok_iff.mp (hattach Sys.boot)).2⟩

end Tableless

/-- The machine, but the DASD cannot be opened. -/
def unopenable : DevOs := dasdMachine (.error "No such device or address")

/-- **Nothing is released if the disk cannot be opened**: the device is left online, and its node is
left. -/
theorem actionBootmapBootDasd_unopenable :
    (actionBootmapBootDasd s390x Os.willing unopenable dasdBoot).Runs (Sys.boot, [])
      (.error (.errmsg "Error opening disk - No such device or address"))
      (Sys.boot, [.echo "/sys/bus/ccw/devices/0.0.5e89/online".toList ['1'] true,
        .unlink "/dev/b0.0.5e89".toList, .mknod "/dev/b0.0.5e89".toList 94 0 true]) ∧
      ¬ Released [.echo "/sys/bus/ccw/devices/0.0.5e89/online".toList ['1'] true,
        .unlink "/dev/b0.0.5e89".toList, .mknod "/dev/b0.0.5e89".toList 94 0 true] := by
  constructor
  · unfold actionBootmapBootDasd bootFrom
    rw [dasdFields_dasdBoot]
    refine Routine.runs_bind.mpr (.inr ⟨_, ?_, rfl⟩)
    unfold attach
    refine (Routine.runs_bind_of_ok (runs_onDevices.mpr ⟨dasdMachine_setOnline _, rfl⟩)).mpr ?_
    rw [Routine.runs_get_bind]
    exact Routine.runs_lift.mpr ⟨Prog.gives_throw.mpr rfl, rfl⟩
  · refine @not_released (.dasd "0.0.5e89".toList) _ ?_
    simp [Aside, devNode, blockdevPath]

end Sysload.Online
