import Sysload.Bootmap.Walk
import Sysload.Loader.Command

/-!
# Booting from a boot map (`bootmap_common.c`)

`boot_bootmap_disk` reads the program table and the component table, lets `identify_boot_objects`
find kernel, initrd and parmfile by the parameters of the stage 3 loader, copies them to local
files and calls `kexec`. It ignores the return value of `identify_boot_objects`; what stops it
after a failed identification is that the kernel pointer is then zero, and a zero pointer cannot be
read.

Source: `src/core/bootmap_common.c`, `identify_boot_objects`, `read_kernel_component`,
`read_initrd_component`, `read_parmfile_component`, `prepare_config_command_line` and
`boot_bootmap_disk`. Out of scope is the debug output.

Results:
* `identifyBootObjects_gives`: no error and an identified kernel, or an error and zeroed pointers.
* `readKernelComponent_zero`: with a zero kernel pointer the boot ends with an error message.
* **`bootBootmapDisk_identified_iff`**: `kexec` is called only with an identified kernel, and
  without one an error message is returned, exactly when the identification comes to an end.
-/

namespace Sysload.Bootmap

open Memory

variable (t : Target) (os : Os) (disk : Disk)

/-! ## Identification -/

/-- `PSW_ADDRESS_MASK`, applied. -/
def maskPsw (psw : Nat) : Nat := psw % 2 ^ 31

/-- `PSW_DISABLED_WAIT`. -/
def pswDisabledWait : Nat := 0x000a000000000000

/-- `struct zipl_stage3_params`. -/
structure ZiplStage3Params where
  parmAddr : Nat
  initrdAddr : Nat
  initrdLen : Nat
  loadPsw : Nat

/-- The parameters at the beginning of the stage 3 loader. -/
def stage3Params (buffer : List UInt8) : ZiplStage3Params :=
  let params := peek os.beyond buffer 0 32
  { parmAddr := packedField t params 0 8
    initrdAddr := packedField t params 8 8
    initrdLen := packedField t params 16 8
    loadPsw := packedField t params 24 8 }

/-- The conversion of an unsigned integer to `int`. -/
def toInt32 (x : Nat) : Int := if x % 2 ^ 32 < 2 ^ 31 then x % 2 ^ 32 else x % 2 ^ 32 - (2 ^ 32 : Nat)

/-- The output parameters of `identify_boot_objects`. -/
structure BootObjects where
  kernel : DiskBlockptr
  initrd : DiskBlockptr
  initrdLen : Int
  parmfile : DiskBlockptr

/-- The output parameters as `identify_boot_objects` initialises them. -/
def BootObjects.zero : BootObjects := ⟨.zero, .zero, 0, .zero⟩

/-- The first component with this load address. -/
def lookupComponent (components : List Component) (address : Nat) : Option Component :=
  components.find? fun c => c.address == address

/-- The second half of `identify_boot_objects`: kernel, initrd and parmfile are looked up among the
components before the execute component. -/
def lookupBootObjects (components : List Component) (stage3 : ZiplStage3Params) :
    Option String × BootObjects :=
  match lookupComponent components (maskPsw stage3.loadPsw) with
  | none => (some "Error - invalid component table found", .zero)
  | some kernel =>
    let initrd := lookupComponent components stage3.initrdAddr
    let parmfile := lookupComponent components stage3.parmAddr
    (none,
      { kernel := kernel.segmentPtr
        initrd := (initrd.map Component.segmentPtr).getD .zero
        initrdLen := if initrd.isSome then toInt32 stage3.initrdLen else 0
        parmfile := (parmfile.map Component.segmentPtr).getD .zero })

/-- `identify_boot_objects`: its return value and its output parameters. -/
def identifyBootObjects (components : List Component) :
    Prog Stop (Option String × BootObjects) := do
  -- find stage 3 boot loader component
  let compNum := components.findIdx fun c => c.type == componentExecute
  match compNum, components[compNum]?, components[compNum - 1]? with
  | n + 1, some stage3, some loader =>
    if stage3.address = pswDisabledWait then
      pure (some "Error - data segment load is not supported", .zero)
    else
      match ← attempt (copyComponentToMemory t disk loader.segmentPtr) with
      | .error errmsg => pure (some errmsg, .zero)
      | .ok (buffer, _) =>
        pure (lookupBootObjects (components.take (n + 1)) (stage3Params t os buffer))
  | _, _, _ => pure (some "Error - invalid component table found", .zero)

/-! ## Copying the boot objects -/

/-- Bytes as the content of a local file. -/
def chars (bytes : List UInt8) : List Char := bytes.map fun b => Char.ofNat b.toNat

/-- The kernel header, which zipl has removed, written back `n` integers at a time. -/
def writeKernelHeader : Nat → SysM Unit
  | 0 => pure ()
  | n + 1 => do
    writeOrUnlink os sysloadFilenameKernel (List.replicate 4 nul) ("Error writing kernel file - " ++ ·)
    writeKernelHeader n

/-- `KERNEL_HEADER_SIZE`. -/
def kernelHeaderSize : Nat := 65536

/-- `read_kernel_component`. The file stays behind when the component cannot be copied. -/
def readKernelComponent (kernel : DiskBlockptr) : SysM Unit := do
  creat os sysloadFilenameKernel ("Error writing kernel file - " ++ ·)
  writeKernelHeader os (kernelHeaderSize / 4)
  let (buffer, _) ← Routine.lift (copyComponentToMemory t disk kernel)
  writeOrUnlink os sysloadFilenameKernel (chars buffer) ("Error writing kernel file - " ++ ·)
  closeOrUnlink os sysloadFilenameKernel ("Error writing kernel file - " ++ ·)

/-- Remove a file and return an error message. -/
def unlinkAndFail {α : Type} (path errmsg : String) : SysM α := do
  modify fun s => s.unlink path
  throw (.errmsg errmsg)

/-- `read_initrd_component`. A negative length is no valid count for `write`, which returns -1. -/
def readInitrdComponent (initrd : DiskBlockptr) (initrdLen : Int) : SysM Unit := do
  creat os sysloadFilenameInitrd ("Error writing initrd file - " ++ ·)
  match ← Routine.lift (attempt (copyComponentToMemory t disk initrd)) with
  | .error errmsg => unlinkAndFail sysloadFilenameInitrd errmsg
  | .ok (buffer, bufferSize) =>
    if (bufferSize : Int) < initrdLen then
      unlinkAndFail sysloadFilenameInitrd
        "Error writing initrd file - invalid initrd component length"
    if initrdLen < 0 then
      if initrdLen ≠ -1 then
        unlinkAndFail sysloadFilenameInitrd "Error writing initrd file - Invalid argument"
    else
      writeOrUnlink os sysloadFilenameInitrd ((chars buffer).take initrdLen.toNat)
        ("Error writing initrd file - " ++ ·)
    closeOrUnlink os sysloadFilenameInitrd ("Error writing kernel file - " ++ ·)

/-- `read_parmfile_component`: the command line ends at the first NUL, at the last byte at the
latest. -/
def readParmfileComponent (parmfile : DiskBlockptr) : Prog Stop CStr := do
  let (buffer, _) ← copyComponentToMemory t disk parmfile
  pure (cstr (chars buffer).dropLast)

/-- `prepare_config_command_line`. If `comp_load` fails without an error message, the pointer that
is printed was never assigned. -/
def prepareConfigCommandLine (boot : CfgBentry) : SysM CStr :=
  if boot.parmfile ≠ [] then do
    match ← compLoad os sysloadFilenameParmfile (prefixRoot boot.root boot.parmfile) with
    | .error (some tmpMsg) =>
      throw (.errmsg ("Error loading parmfile - " ++ String.ofList tmpMsg))
    | .error none => throw .overrun
    | .ok () => composeCommandline os sysloadFilenameParmfile boot.cmdline
  else pure boot.cmdline

/-! ## Booting -/

/-- `component_header_ipl` and `component_header_dump`. -/
def componentHeaderIpl : Nat := 0x00

def componentHeaderDump : Nat := 0x01

/-- The first half of `boot_bootmap_disk`: the component table of the requested program. -/
def programComponents (program : Int) : Prog Stop (List Component) := do
  if program < 0 ∨ (getProgramTableSize disk : Int) ≤ program then
    throw (.errmsg "Error - program number out of valid range.")
  let programTable ← getProgramTable t os.beyond disk
  let entry := programTable.getD program.toNat .zero
  if blockptrIsNull t disk entry then
    throw (.errmsg s!"Error - program entry {program} is empty.")
  let table ← getComponentTable t os.beyond disk entry
  if table.opt = componentHeaderDump then
    throw (.errmsg "Error - load-with-dump-list-directed IPL is not supported.")
  if table.opt ≠ componentHeaderIpl then
    throw (.errmsg "Error - invalid list directed IPL type.")
  pure table.components

/-- The second half of `boot_bootmap_disk`: the boot objects are copied and booted. -/
def bootObjects (boot : CfgBentry) (objects : BootObjects) : SysM Unit := do
  readKernelComponent t os disk objects.kernel
  if blockptrIsNull t disk objects.initrd = false then
    readInitrdComponent t os disk objects.initrd objects.initrdLen
  let cmdline ←
    if blockptrIsNull t disk objects.parmfile = false then
      Routine.lift (readParmfileComponent t disk objects.parmfile)
    else pure []
  let extraCmdline ← prepareConfigCommandLine os boot
  let initrd := if blockptrIsNull t disk objects.initrd = false then sysloadFilenameInitrd else ""
  kexec os sysloadFilenameKernel initrd (cmdline ++ [' '] ++ extraCmdline)

/-- `boot_bootmap_disk`. -/
def bootBootmapDisk (boot : CfgBentry) (program : Int) : SysM Unit := do
  let components ← Routine.lift (programComponents t os disk program)
  -- the return value of identify_boot_objects is ignored
  let (_, objects) ← Routine.lift (identifyBootObjects t os disk components)
  bootObjects t os disk boot objects

/-! ## When a kernel is identified -/

/-- The first execute component is component `n + 1` of the table, `stage3`, and the stage 3 loader
is the component before it. -/
def Stage3At (components : List Component) (n : Nat) (stage3 loader : Component) : Prop :=
  components.findIdx (fun c => c.type == componentExecute) = n + 1 ∧
    components[n + 1]? = some stage3 ∧ components[n]? = some loader

/-- A kernel is identified: there is an execute component behind at least one other component, the
stage 3 loader can be copied, and a component before the execute component has the address of its
masked PSW. -/
def KernelIdentified (components : List Component) : Prop :=
  ∃ n stage3 loader buffer size, Stage3At components n stage3 loader ∧
    stage3.address ≠ pswDisabledWait ∧
    (copyComponentToMemory t disk loader.segmentPtr).Gives (.ok (buffer, size)) ∧
    ∃ kernel ∈ components.take (n + 1),
      kernel.address = maskPsw (stage3Params t os buffer).loadPsw

/-- The requested program has a component table in which a kernel is identified. -/
def Identified (program : Int) : Prop :=
  ∃ components, (programComponents t os disk program).Gives (.ok components) ∧
    KernelIdentified t os disk components

variable {t os disk}

theorem Stage3At.unique {components : List Component} {n m : Nat}
    {stage3 stage3' loader loader' : Component} (h : Stage3At components n stage3 loader)
    (h' : Stage3At components m stage3' loader') : n = m ∧ stage3 = stage3' ∧ loader = loader' := by
  obtain ⟨hn, hs, hl⟩ := h
  obtain ⟨hm, hs', hl'⟩ := h'
  obtain rfl : n = m := Nat.succ.inj (hn.symm.trans hm)
  exact ⟨rfl, Option.some.inj (hs.symm.trans hs'), Option.some.inj (hl.symm.trans hl')⟩

/-- The kernel is found exactly when a component has its address. -/
theorem lookupBootObjects_ok_iff (components : List Component) (stage3 : ZiplStage3Params) :
    (lookupBootObjects components stage3).1 = none ↔
      ∃ kernel ∈ components, kernel.address = maskPsw stage3.loadPsw := by
  unfold lookupBootObjects lookupComponent
  cases hk : components.find? fun c => c.address == maskPsw stage3.loadPsw with
  | none =>
    have hnone := List.find?_eq_none.mp hk
    simpa using hnone
  | some kernel =>
    have haddr := List.find?_some hk
    exact ⟨fun _ => ⟨kernel, List.mem_of_find?_eq_some hk, by simpa using haddr⟩, fun _ => rfl⟩

theorem lookupBootObjects_error {components : List Component} {stage3 : ZiplStage3Params}
    (h : (lookupBootObjects components stage3).1 ≠ none) :
    (lookupBootObjects components stage3).2 = .zero := by
  unfold lookupBootObjects at h ⊢
  split
  · rfl
  · rename_i hk
    rw [hk] at h
    exact absurd rfl h

/-- The identification in a table with an execute component behind another one. -/
theorem identifyBootObjects_at {components : List Component} {n : Nat} {stage3 loader : Component}
    (h : Stage3At components n stage3 loader) :
    identifyBootObjects t os disk components =
      if stage3.address = pswDisabledWait then
        pure (some "Error - data segment load is not supported", .zero)
      else attempt (copyComponentToMemory t disk loader.segmentPtr) >>= fun
        | .error errmsg => pure (some errmsg, .zero)
        | .ok (buffer, _) =>
          pure (lookupBootObjects (components.take (n + 1)) (stage3Params t os buffer)) := by
  obtain ⟨hn, hstage3, hloader⟩ := h
  unfold identifyBootObjects
  simp only [hn, hstage3, Nat.add_sub_cancel, hloader]

/-- The identification in any other table. -/
theorem identifyBootObjects_none {components : List Component}
    (h : ∀ n stage3 loader, ¬ Stage3At components n stage3 loader) :
    identifyBootObjects t os disk components =
      pure (some "Error - invalid component table found", .zero) := by
  unfold identifyBootObjects
  dsimp only
  split
  · rename_i n stage3 loader hn hstage3 hloader
    rw [hn] at hstage3 hloader
    exact absurd ⟨hn, hstage3, hloader⟩ (h n stage3 loader)
  · rfl

/-- **What the identification returns**: no error and an identified kernel, or an error and zeroed
pointers. -/
theorem identifyBootObjects_gives {components : List Component} {result : Option String}
    {objects : BootObjects}
    (h : (identifyBootObjects t os disk components).Gives (.ok (result, objects))) :
    (result = none ∧ KernelIdentified t os disk components) ∨
      (objects = .zero ∧ ¬ KernelIdentified t os disk components) := by
  by_cases hat : ∃ n stage3 loader, Stage3At components n stage3 loader
  · obtain ⟨n, stage3, loader, hat⟩ := hat
    rw [identifyBootObjects_at hat] at h
    by_cases hwait : stage3.address = pswDisabledWait
    · rw [if_pos hwait, Prog.gives_pure] at h
      cases h
      refine Or.inr ⟨rfl, ?_⟩
      rintro ⟨m, stage3', loader', buffer, size, hat', hnot, _⟩
      obtain ⟨_, rfl, _⟩ := hat.unique hat'
      exact hnot hwait
    · rw [if_neg hwait, Prog.gives_bind_eq_ok] at h
      obtain ⟨errmsg | ⟨buffer, size⟩, hcopy, hr⟩ := h
      · cases Prog.gives_pure.mp hr
        refine Or.inr ⟨rfl, ?_⟩
        rintro ⟨m, stage3', loader', buffer, size, hat', _, hcopy', _⟩
        obtain ⟨_, _, rfl⟩ := hat.unique hat'
        exact absurd ((attempt_errmsg.mp hcopy).unique hcopy') (by simp)
      · have hr := Except.ok.inj (Prog.gives_pure.mp hr)
        have hfound := lookupBootObjects_ok_iff (components.take (n + 1))
          (stage3Params t os buffer)
        rw [hr] at hfound
        by_cases hnone : result = none
        · exact Or.inl ⟨hnone, n, stage3, loader, buffer, size, hat, hwait, attempt_ok.mp hcopy,
            hfound.mp hnone⟩
        · refine Or.inr ⟨?_, ?_⟩
          · have hzero := @lookupBootObjects_error (components.take (n + 1))
              (stage3Params t os buffer) (by rw [hr]; exact hnone)
            rwa [hr] at hzero
          · rintro ⟨m, stage3', loader', buffer', size', hat', _, hcopy', hkernel⟩
            obtain ⟨rfl, _, rfl⟩ := hat.unique hat'
            cases (attempt_ok.mp hcopy).unique hcopy'
            exact hnone (hfound.mpr hkernel)
  · rw [identifyBootObjects_none fun n stage3 loader hs => hat ⟨n, stage3, loader, hs⟩,
      Prog.gives_pure] at h
    cases h
    refine Or.inr ⟨rfl, ?_⟩
    rintro ⟨n, stage3, loader, _, _, hs, _⟩
    exact hat ⟨n, stage3, loader, hs⟩

/-- The identification comes to an end when the copy of the stage 3 loader does. -/
theorem identifyBootObjects_comes_iff (components : List Component) :
    Comes (identifyBootObjects t os disk components) ↔
      ∀ n stage3 loader, Stage3At components n stage3 loader → stage3.address ≠ pswDisabledWait →
        Comes (copyComponentToMemory t disk loader.segmentPtr) := by
  by_cases hat : ∃ n stage3 loader, Stage3At components n stage3 loader
  · obtain ⟨n, stage3, loader, hat⟩ := hat
    rw [identifyBootObjects_at hat]
    constructor
    · intro h m stage3' loader' hat' hwait
      obtain ⟨_, rfl, rfl⟩ := hat.unique hat'
      rw [if_neg hwait, comes_bind, comes_attempt] at h
      exact h.1
    · intro h
      by_cases hwait : stage3.address = pswDisabledWait
      · rw [if_pos hwait]
        exact comes_pure _
      · rw [if_neg hwait, comes_bind, comes_attempt]
        refine ⟨h n stage3 loader hat hwait, ?_⟩
        rintro (errmsg | ⟨buffer, size⟩) _ <;> exact comes_pure _
  · rw [identifyBootObjects_none fun n stage3 loader hs => hat ⟨n, stage3, loader, hs⟩]
    exact ⟨fun _ n stage3 loader hs => absurd ⟨n, stage3, loader, hs⟩ hat, fun _ => comes_pure _⟩

/-! ## Without an identified kernel -/

variable (t os disk)

/-- The entry of the requested program in the program table. -/
def ProgramEntry (program : Int) (entry : DiskBlockptr) : Prop :=
  0 ≤ program ∧ program < getProgramTableSize disk ∧
    ∃ programTable, (getProgramTable t os.beyond disk).Gives (.ok programTable) ∧
      programTable.getD program.toNat .zero = entry ∧ blockptrIsNull t disk entry = false

/-- The identification comes to an end: the reads of the program table and of the component table
do, there is memory for the component table, and the copy of the stage 3 loader comes to an end. -/
structure IdentificationEnds (program : Int) : Prop where
  programTable : 0 ≤ program → program < getProgramTableSize disk →
    getBlockptrBlockct disk disk.programTablePtr = 0 → ReadEnds t disk disk.programTablePtr
  componentTable : ∀ entry, ProgramEntry t os disk program entry →
    getBlockptrBlockct disk entry = 0 → ReadEnds t disk entry
  memory : ∀ entry, ProgramEntry t os disk program entry →
    TableDecoded t os.beyond disk entry → getBlockptrSize disk ≤ disk.phyBlockSize
  stage3 : ∀ components n stage3 loader,
    (programComponents t os disk program).Gives (.ok components) →
    Stage3At components n stage3 loader → stage3.address ≠ pswDisabledWait →
      Comes (copyComponentToMemory t disk loader.segmentPtr)

variable {t os disk}

theorem programComponents_comes_iff (h : disk.type.supported = true) (program : Int) :
    Comes (programComponents t os disk program) ↔
      (0 ≤ program → program < getProgramTableSize disk →
        getBlockptrBlockct disk disk.programTablePtr = 0 →
          ReadEnds t disk disk.programTablePtr) ∧
      ∀ entry, ProgramEntry t os disk program entry →
        (getBlockptrBlockct disk entry = 0 → ReadEnds t disk entry) ∧
        (TableDecoded t os.beyond disk entry → getBlockptrSize disk ≤ disk.phyBlockSize) := by
  unfold programComponents ProgramEntry
  by_cases hrange : 0 ≤ program ∧ program < getProgramTableSize disk
  · obtain ⟨hpos, hlt⟩ := hrange
    have hcond : ¬ (program < 0 ∨ (getProgramTableSize disk : Int) ≤ program) := by omega
    simp only [hcond, if_false, comes_bind, getProgramTable_comes_iff t os.beyond h, hpos, hlt,
      forall_const, true_and]
    refine and_congr_right fun _ => ?_
    constructor
    · rintro hrest entry ⟨table, htable, rfl, hnull⟩
      have hentry := hrest table htable
      simp only [hnull, Bool.false_eq_true, if_false, comes_bind] at hentry
      exact (getComponentTable_comes_iff t os.beyond h _).mp hentry.1
    · intro hentry table htable
      cases hnull : blockptrIsNull t disk (table.getD program.toNat .zero) with
      | true => simp [comes_errmsg]
      | false =>
        simp only [Bool.false_eq_true, if_false, comes_bind]
        refine ⟨(getComponentTable_comes_iff t os.beyond h _).mpr
          (hentry _ ⟨table, htable, rfl, hnull⟩), fun components _ => ?_⟩
        by_cases hdump : components.opt = componentHeaderDump
        · simp [hdump, comes_errmsg]
        · by_cases hipl : components.opt = componentHeaderIpl
          · simp [hipl, comes_pure, componentHeaderIpl, componentHeaderDump]
          · simp [hipl, hdump, comes_errmsg]
  · have hcond : program < 0 ∨ (getProgramTableSize disk : Int) ≤ program := by omega
    simp only [hcond, if_true, comes_bind, comes_errmsg, true_and]
    refine iff_of_true ?_ ⟨fun hpos hlt => absurd ⟨hpos, hlt⟩ hrange, ?_⟩
    · simp
    · rintro entry ⟨hpos, hlt, _⟩
      exact absurd ⟨hpos, hlt⟩ hrange

theorem identificationEnds_iff (h : disk.type.supported = true) (program : Int) :
    IdentificationEnds t os disk program ↔
      Comes (programComponents t os disk program) ∧
        ∀ components, (programComponents t os disk program).Gives (.ok components) →
          Comes (identifyBootObjects t os disk components) := by
  rw [programComponents_comes_iff h]
  simp only [identifyBootObjects_comes_iff]
  constructor
  · rintro ⟨hprogram, hcomponent, hmemory, hstage3⟩
    exact ⟨⟨hprogram, fun entry he => ⟨hcomponent entry he, hmemory entry he⟩⟩,
      fun components hc n stage3 loader => hstage3 components n stage3 loader hc⟩
  · rintro ⟨⟨hprogram, hentry⟩, hstage3⟩
    exact ⟨hprogram, fun entry he => (hentry entry he).1, fun entry he => (hentry entry he).2,
      fun components n stage3 loader hc => hstage3 components hc n stage3 loader⟩

/-- The zero pointer cannot be copied. -/
theorem copyComponentToMemory_zero (h : disk.type.supported = true)
    (hfits : t.fits disk.phyBlockSize = true) :
    ∃ msg, (copyComponentToMemory t disk .zero).Gives (.error (.errmsg msg)) := by
  have hct : getBlockptrBlockct disk .zero = 0 := by
    unfold getBlockptrBlockct
    cases disk.type <;> rfl
  unfold copyComponentToMemory loadSegmentTable diskReadPhyBlocks
  simp [hct, Target.int_of_fits hfits, checkBlockptr_zero h]

theorem quiet_writeKernelHeader : ∀ n, Quiet (writeKernelHeader os n)
  | 0 => quiet_pure _
  | n + 1 => (quiet_writeOrUnlink _ _ _).bind fun _ => quiet_writeKernelHeader n

/-- **With a zero kernel pointer no kernel is copied**: it ends with an error message. -/
theorem readKernelComponent_zero (h : disk.type.supported = true)
    (hfits : t.fits disk.phyBlockSize = true) :
    QuietError (readKernelComponent t os disk .zero) := by
  refine (quiet_creat _ _).bind_error fun _ =>
    (quiet_writeKernelHeader _).bind_error fun _ => QuietError.bind ?_ _
  intro s
  obtain ⟨msg, hmsg⟩ := copyComponentToMemory_zero (t := t) h hfits
  exact ⟨msg, s, Routine.runs_lift.mpr ⟨hmsg, rfl⟩, rfl⟩

theorem bootObjects_zero (h : disk.type.supported = true)
    (hfits : t.fits disk.phyBlockSize = true) (boot : CfgBentry) :
    QuietError (bootObjects t os disk boot .zero) :=
  (readKernelComponent_zero h hfits).bind _

/-- **`kexec` is called only with an identified kernel.** -/
theorem identified_of_kexec (h : disk.type.supported = true)
    (hfits : t.fits disk.phyBlockSize = true) {boot : CfgBentry} {program : Int} {s s' : Sys}
    {r : Except Stop Unit} (hrun : (bootBootmapDisk t os disk boot program).Runs s r s')
    (hkexec : s'.kexecs ≠ s.kexecs) : Identified t os disk program := by
  rcases Routine.runs_bind.mp hrun with ⟨components, s₁, hlift, hrest⟩ | ⟨e, hlift, _⟩
  · obtain ⟨hc, rfl⟩ := Routine.runs_lift.mp hlift
    rcases Routine.runs_bind.mp hrest with ⟨⟨result, objects⟩, s₁, hlift', hboot⟩ | ⟨e, hlift', _⟩
    · obtain ⟨hi, rfl⟩ := Routine.runs_lift.mp hlift'
      rcases identifyBootObjects_gives hi with ⟨_, hkernel⟩ | ⟨rfl, _⟩
      · exact ⟨components, hc, hkernel⟩
      · obtain ⟨msg, s₂, hquiet, hk⟩ := @bootObjects_zero t os disk h hfits boot s
        obtain ⟨_, rfl⟩ := hboot.unique hquiet
        exact absurd hk hkexec
    · obtain ⟨_, rfl⟩ := Routine.runs_lift.mp hlift'
      exact absurd rfl hkexec
  · obtain ⟨_, rfl⟩ := Routine.runs_lift.mp hlift
    exact absurd rfl hkexec

/-- **Without an identified kernel an error message is returned**, if the identification comes to
an end. -/
theorem bootBootmapDisk_errmsg (h : disk.type.supported = true)
    (hfits : t.fits disk.phyBlockSize = true) {boot : CfgBentry} {program : Int}
    (hends : IdentificationEnds t os disk program) (hnot : ¬ Identified t os disk program) :
    QuietError (bootBootmapDisk t os disk boot program) := by
  obtain ⟨hcomes, hidentify⟩ := (identificationEnds_iff h program).mp hends
  intro s
  unfold bootBootmapDisk
  rcases hcomes with ⟨components, hc⟩ | ⟨msg, hm⟩
  · rcases hidentify components hc with ⟨⟨result, objects⟩, hi⟩ | ⟨msg, hm⟩
    · rcases identifyBootObjects_gives hi with ⟨_, hkernel⟩ | ⟨rfl, _⟩
      · exact absurd ⟨components, hc, hkernel⟩ hnot
      · obtain ⟨msg, s', hboot, hk⟩ := @bootObjects_zero t os disk h hfits boot s
        exact ⟨msg, s', Routine.runs_bind.mpr (Or.inl ⟨_, s, Routine.runs_lift.mpr ⟨hc, rfl⟩,
          Routine.runs_bind.mpr (Or.inl ⟨_, s, Routine.runs_lift.mpr ⟨hi, rfl⟩, hboot⟩)⟩), hk⟩
    · exact ⟨msg, s, Routine.runs_bind.mpr (Or.inl ⟨_, s, Routine.runs_lift.mpr ⟨hc, rfl⟩,
        Routine.runs_bind.mpr (Or.inr ⟨_, Routine.runs_lift.mpr ⟨hm, rfl⟩, rfl⟩)⟩), rfl⟩
  · exact ⟨msg, s, Routine.runs_bind.mpr (Or.inr ⟨_, Routine.runs_lift.mpr ⟨hm, rfl⟩, rfl⟩), rfl⟩

/-- Conversely: an identified kernel, or an error message, is reached only if the identification
comes to an end. -/
theorem identificationEnds_of_identified (h : disk.type.supported = true) {program : Int}
    (hid : Identified t os disk program) : IdentificationEnds t os disk program := by
  obtain ⟨components, hc, n, stage3, loader, buffer, size, hat, _, hcopy, _⟩ := hid
  refine (identificationEnds_iff h program).mpr ⟨Or.inl ⟨_, hc⟩, fun components' hc' => ?_⟩
  cases hc.unique hc'
  refine (identifyBootObjects_comes_iff components).mpr fun n' stage3' loader' hat' _ => ?_
  obtain ⟨_, _, rfl⟩ := hat.unique hat'
  exact Or.inl ⟨_, hcopy⟩

theorem identificationEnds_of_errmsg (h : disk.type.supported = true) {boot : CfgBentry}
    {program : Int} {s s' : Sys} {msg : String}
    (hrun : (bootBootmapDisk t os disk boot program).Runs s (.error (.errmsg msg)) s') :
    IdentificationEnds t os disk program := by
  refine (identificationEnds_iff h program).mpr ?_
  rcases Routine.runs_bind.mp hrun with ⟨components, s₁, hlift, hrest⟩ | ⟨e, hlift, he⟩
  · obtain ⟨hc, rfl⟩ := Routine.runs_lift.mp hlift
    refine ⟨Or.inl ⟨_, hc⟩, fun components' hc' => ?_⟩
    cases hc.unique hc'
    rcases Routine.runs_bind.mp hrest with ⟨_, _, hlift', _⟩ | ⟨e, hlift', he⟩
    · exact Or.inl ⟨_, (Routine.runs_lift.mp hlift').1⟩
    · cases he
      exact Or.inr ⟨msg, (Routine.runs_lift.mp hlift').1⟩
  · cases he
    have hm := (Routine.runs_lift.mp hlift).1
    exact ⟨Or.inr ⟨msg, hm⟩, fun components hc => absurd (hc.unique hm) (by simp)⟩

/-- **No boot without an identified kernel**: `kexec` is called only with one, and without one an
error message is returned, exactly when the identification comes to an end. -/
theorem bootBootmapDisk_identified_iff (t : Target) (os : Os) (disk : Disk) (boot : CfgBentry)
    (program : Int) (s : Sys) (htype : disk.type.supported = true)
    (hfits : t.fits disk.phyBlockSize = true) :
    ((∀ r s', (bootBootmapDisk t os disk boot program).Runs s r s' → s'.kexecs ≠ s.kexecs →
        Identified t os disk program) ∧
      (¬ Identified t os disk program →
        ∃ msg s', (bootBootmapDisk t os disk boot program).Runs s (.error (.errmsg msg)) s' ∧
          s'.kexecs = s.kexecs)) ↔
      IdentificationEnds t os disk program := by
  constructor
  · rintro ⟨_, herr⟩
    by_cases hid : Identified t os disk program
    · exact identificationEnds_of_identified htype hid
    · obtain ⟨msg, s', hrun, _⟩ := herr hid
      exact identificationEnds_of_errmsg htype hrun
  · intro hends
    exact ⟨fun r s' hrun => identified_of_kexec htype hfits hrun,
      fun hnot => bootBootmapDisk_errmsg htype hfits hends hnot s⟩

/-! ### Disks with a program of a few bytes -/

/-- A SCSI disk of 512-byte blocks with the program table in block 0, given by the bytes that are not
zero. -/
def sparseDisk (phyBlocks : Nat) (bytes : List (Nat × UInt8)) : Disk :=
  .image .scsi 512 phyBlocks ⟨0, 0, 0⟩ ⟨⟨0, 0, 0, 0, 0⟩, ⟨0, 512, 0⟩⟩
    (fun pos => (bytes.lookup pos).getD 0) blockSize512_pos

/-- The pointer to `blockct + 1` blocks of 512 bytes from `block` on. -/
def sparsePtr (block blockct : Nat) : DiskBlockptr := ⟨⟨0, 0, 0, 0, 0⟩, ⟨block, 512, blockct⟩⟩

section Sparse

variable {phyBlocks : Nat} {bytes : List (Nat × UInt8)}

theorem sparseDisk_blockptrSize : getBlockptrSize (sparseDisk phyBlocks bytes) = 16 := rfl

theorem sparseDisk_programTableSize : getProgramTableSize (sparseDisk phyBlocks bytes) = 31 := by
  rw [getProgramTableSize, sparseDisk_blockptrSize]

theorem sparseDisk_componentTableSize :
    getComponentTableSize (sparseDisk phyBlocks bytes) = 31 := by
  have hsize : (sparseDisk phyBlocks bytes).phyBlockSize = 512 := rfl
  rw [getComponentTableSize, sparseDisk_blockptrSize, hsize]

theorem sparsePtr_fits (block blockct : Nat) (h : blockct < 2) :
    RangeFits s390x (sparseDisk phyBlocks bytes) (sparsePtr block blockct) := by
  have hbytes : rangeBytes (sparseDisk phyBlocks bytes) (sparsePtr block blockct) =
      512 * (blockct + 1) := rfl
  refine ⟨?_, fun htype => absurd htype (by rintro (h | h) <;> cases h)⟩
  rw [hbytes]
  exact s390x.fits_mono (show 512 * (blockct + 1) ≤ 1024 by omega) (by decide)

theorem sparsePtr_check {block : Nat} (blockct : Nat) (hblock : block < phyBlocks) :
    checkBlockptr (sparseDisk phyBlocks bytes) (sparsePtr block blockct) = true :=
  (checkBlockptr_linear (Or.inl rfl) _).mpr ⟨rfl, hblock⟩

theorem sparseDisk_read {block : Nat} (hblock : block < phyBlocks) :
    readOutcome s390x (sparseDisk phyBlocks bytes) (sparsePtr block 0) =
      some (.ok ((sparseDisk phyBlocks bytes).dev.slice (block * 512) 512)) :=
  readOutcome_of_reliable rfl (Device.ofContent_reliable _ _) (sparsePtr_check 0 hblock)
    (sparsePtr_fits block 0 (by decide)) hblock

/-- The components in a block of a sparse disk. -/
def sparseComponents (beyond : Nat → UInt8) (disk : Disk) (block : Nat) : List Component :=
  (List.range 31).map (decodeComponent s390x beyond disk (disk.dev.slice (block * 512) 512))

theorem sparseComponents_getElem? (beyond : Nat → UInt8) (disk : Disk) (block : Nat) {n : Nat}
    (hn : n < 15) : (sparseComponents beyond disk block)[n]? = some
      { segmentPtr := readPackedBlockptr s390x disk
          (disk.dev.slice (block * 512 + (n + 1) * 32) 32)
        type := packedField s390x (disk.dev.slice (block * 512 + (n + 1) * 32) 32) 23 1
        address := packedField s390x (disk.dev.slice (block * 512 + (n + 1) * 32) 32) 24 8 } := by
  have hpeek : peek beyond (disk.dev.slice (block * 512) 512)
      ((n + 1) * sizeofComponentEntry) sizeofComponentEntry =
        disk.dev.slice (block * 512 + (n + 1) * 32) 32 :=
    Device.peek_slice _ _ (show (n + 1) * 32 + 32 ≤ 512 by omega)
  rw [sparseComponents, List.getElem?_map, List.getElem?_range (by omega), Option.map_some,
    decodeComponent, hpeek]

/-- Program 0 of a sparse disk has the components in the block that the first entry of its program
table points to. -/
theorem sparseDisk_programComponents (os : Os) {block : Nat} (hblock : block < phyBlocks)
    (hprogram : (sparseDisk phyBlocks bytes).dev.slice 0 4 = magic)
    (hentry : readPackedBlockptr s390x (sparseDisk phyBlocks bytes)
      ((sparseDisk phyBlocks bytes).dev.slice 16 16) = sparsePtr block 0)
    (hmagic : (sparseDisk phyBlocks bytes).dev.slice (block * 512) 4 = magic)
    (hopt : packedField s390x ((sparseDisk phyBlocks bytes).dev.slice (block * 512 + 4) 1) 0 1 =
      componentHeaderIpl)
    (hnull : blockptrIsNull s390x (sparseDisk phyBlocks bytes) (sparsePtr block 0) = false) :
    (programComponents s390x os (sparseDisk phyBlocks bytes) 0).Gives
      (.ok (sparseComponents os.beyond (sparseDisk phyBlocks bytes) block)) := by
  have htable := (getProgramTable_gives_ok s390x os.beyond
    (show (sparseDisk phyBlocks bytes).type.supported = true from rfl)).mpr
      ⟨_, rfl, sparseDisk_read (Nat.zero_lt_of_lt hblock), by
        rw [Device.peek_slice _ _ (by decide), Nat.zero_mul]
        exact hprogram, rfl⟩
  have hcomponents := (getComponentTable_gives_ok s390x os.beyond
    (show (sparseDisk phyBlocks bytes).type.supported = true from rfl) (sparsePtr block 0)).mpr
      ⟨_, rfl, sparseDisk_read hblock, by
        rw [Device.peek_slice _ _ (by decide), Nat.add_zero]
        exact hmagic, decodeComponentTable_of_le s390x _ (Nat.le_refl 512) _⟩
  have hrange : ¬ ((0 : Int) < 0 ∨ (getProgramTableSize (sparseDisk phyBlocks bytes) : Int) ≤ 0) := by
    rw [sparseDisk_programTableSize]
    decide
  have hfirst : (decodeProgramTable s390x os.beyond (sparseDisk phyBlocks bytes)
      ((sparseDisk phyBlocks bytes).dev.slice (0 * 512) 512)).getD (Int.toNat 0) .zero =
        sparsePtr block 0 := by
    rw [decodeProgramTable, sparseDisk_programTableSize, sparseDisk_blockptrSize,
      List.getD_eq_getElem?_getD, List.getElem?_map, List.getElem?_range (by decide),
      Option.map_some, Option.getD_some, Device.peek_slice _ _ (by decide)]
    exact hentry
  unfold programComponents
  simp only [hrange, if_false, Prog.gives_bind_eq_ok]
  refine ⟨_, htable, ?_⟩
  simp only [hfirst, hnull, Bool.false_eq_true, if_false, Prog.gives_bind_eq_ok]
  refine ⟨_, hcomponents, ?_⟩
  rw [Device.peek_slice _ _ (by decide), hopt]
  simp [componentHeaderIpl, componentHeaderDump, sparseComponents, sparseDisk_componentTableSize]

end Sparse

/-! ### A disk whose stage 3 loader runs off the device -/

/-- In block 0 a program table whose first entry points to block 1, in block 1 a component table with
a loader of two blocks, from block 1 on, and an execute component. -/
def stallingDisk : Disk :=
  sparseDisk 2
    [(0, 0x7a), (1, 0x49), (2, 0x50), (3, 0x4c), (23, 1), (24, 2),
      (512, 0x7a), (513, 0x49), (514, 0x50), (515, 0x4c), (551, 1), (552, 2), (555, 1), (599, 1)]

theorem bootBootmapDisk_identified_iff_stallingDisk :
    ((∀ r s', (bootBootmapDisk s390x .willing stallingDisk .init 0).Runs .boot r s' →
        s'.kexecs ≠ Sys.boot.kexecs → Identified s390x .willing stallingDisk 0) ∧
      (¬ Identified s390x .willing stallingDisk 0 →
        ∃ msg s', (bootBootmapDisk s390x .willing stallingDisk .init 0).Runs .boot
          (.error (.errmsg msg)) s' ∧ s'.kexecs = Sys.boot.kexecs)) ↔
      IdentificationEnds s390x .willing stallingDisk 0 :=
  bootBootmapDisk_identified_iff s390x .willing stallingDisk .init 0 .boot rfl rfl

theorem stallingDisk_components :
    (programComponents s390x .willing stallingDisk 0).Gives
      (.ok (sparseComponents (fun _ => 0) stallingDisk 1)) :=
  sparseDisk_programComponents .willing (by decide) (by decide) (by decide) (by decide) (by decide)
    (by decide)

/-- Component 1 of `stallingDisk` is an execute component, and component 0 points behind the end of
the disk. -/
theorem stallingDisk_stage3 :
    ∃ stage3 loader, Stage3At (sparseComponents (fun _ => 0) stallingDisk 1) 0 stage3 loader ∧
      stage3.address ≠ pswDisabledWait ∧ loader.segmentPtr = sparsePtr 1 1 := by
  have h0 := sparseComponents_getElem? (fun _ => 0) stallingDisk 1 (show 0 < 15 by decide)
  have h1 := sparseComponents_getElem? (fun _ => 0) stallingDisk 1 (show 1 < 15 by decide)
  obtain ⟨c₀, c₁, rest, hlist⟩ :
      ∃ c₀ c₁ rest, sparseComponents (fun _ => 0) stallingDisk 1 = c₀ :: c₁ :: rest :=
    ⟨_, _, _, rfl⟩
  rw [hlist, List.getElem?_cons_zero] at h0
  rw [hlist, List.getElem?_cons_succ, List.getElem?_cons_zero] at h1
  have h0 := Option.some.inj h0
  have h1 := Option.some.inj h1
  have htype0 : c₀.type ≠ componentExecute := by
    rw [h0]
    decide
  have htype1 : c₁.type = componentExecute := by
    rw [h1]
    decide
  refine ⟨c₁, c₀, ⟨?_, by rw [hlist]; rfl, by rw [hlist]; rfl⟩, ?_, ?_⟩
  · rw [hlist, List.findIdx_cons, List.findIdx_cons, beq_false_of_ne htype0, htype1]
    rfl
  · rw [h1]
    decide
  · rw [h0]
    decide

/-- **On `stallingDisk` the boot does not end with an error message**, though no kernel is
identified: the copy of the stage 3 loader runs off the device. -/
theorem stallingDisk_boot_never_fails :
    ¬ Identified s390x .willing stallingDisk 0 ∧ ∀ msg s',
      ¬ (bootBootmapDisk s390x .willing stallingDisk .init 0).Runs .boot (.error (.errmsg msg)) s' := by
  have hnot : ¬ IdentificationEnds s390x .willing stallingDisk 0 := by
    intro hends
    obtain ⟨stage3, loader, hat, hwait, hloader⟩ := stallingDisk_stage3
    have hcomes := hends.stage3 _ 0 stage3 loader stallingDisk_components hat hwait
    have hfits : RangeFits s390x stallingDisk (sparsePtr 1 1) := sparsePtr_fits 1 1 (by decide)
    have hoff : readOutcome s390x stallingDisk (sparsePtr 1 1) = none :=
      (readOutcome_eq_none_iff rfl).mpr ⟨sparsePtr_check 1 (by decide), hfits, rfl,
        Device.firstError_of_reliable (Device.ofContent_reliable _ _) _ _, by decide⟩
    have hload : loadOutcome s390x stallingDisk 0 (sparsePtr 1 1) = none := by
      rw [loadOutcome, Nat.zero_add, if_pos hfits.1, hoff]
    obtain ⟨r, hr⟩ := hcomes.ends
    rw [hloader, copyComponentToMemory_gives rfl (by decide), hload] at hr
    simp at hr
  exact ⟨fun hid => hnot (identificationEnds_of_identified rfl hid),
    fun msg s' hrun => hnot (identificationEnds_of_errmsg rfl hrun)⟩

end Sysload.Bootmap
