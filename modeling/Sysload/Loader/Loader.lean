import Sysload.Bootmap.Boot
import Sysload.Loader.Insfile

/-!
# The loader (`loader.c`, `bootmap_dasd.c`, `bootmap_fcp.c`)

`loader()` performs the boot action of a boot entry. On success it does not return; the main loop of
`sysload.c` calls it again and again, until a new kernel runs. All calls share the three local files
that are booted.

Source: `src/core/loader.c`, `loader` and its actions; `src/core/bootmap_dasd.c` and
`src/core/bootmap_fcp.c`, which attach a disk here in one step (`Online.lean` has them in full). Out
of scope is what a user does in the shell.

Results:
* `loader_noBootFiles`: a call that returns leaves none of the three files, if it does not leave the
  kernel file of a boot map (`Attempt.LeavesKernel`).
* **`attempts_insfile_fresh`**: after any sequence of calls that leave no kernel file, an insfile
  boots only files of its own call.
* `staleKernel_booted`: after a boot from a boot map that fails, an insfile boots its kernel.
-/

namespace Sysload

open Bootmap

variable (t : Target) (os : Os)

/-! ## Boot methods -/

/-- `action_kernel_boot` up to its label `cleanup`. -/
def kernelBoot (boot : CfgBentry) : SysM Unit := do
  if boot.kernel = [] then throw (.errmsg "No kernel specified.")
  match ← compLoad os sysloadFilenameKernel (prefixRoot boot.root boot.kernel) with
  | .error tmpMsg =>
    throw (.errmsg ("Error loading kernel image - " ++ String.ofList (printed tmpMsg)))
  | .ok () => pure ()
  if boot.initrd ≠ [] then
    match ← compLoad os sysloadFilenameInitrd (prefixRoot boot.root boot.initrd) with
    | .error tmpMsg =>
      throw (.errmsg ("Error loading initrd image - " ++ String.ofList (printed tmpMsg)))
    | .ok () => pure ()
  let cmdline ←
    if boot.parmfile ≠ [] then do
      match ← compLoad os sysloadFilenameParmfile (prefixRoot boot.root boot.parmfile) with
      | .error tmpMsg =>
        throw (.errmsg ("Error loading parmfile - " ++ String.ofList (printed tmpMsg)))
      | .ok () => composeCommandline os sysloadFilenameParmfile boot.cmdline
    else pure boot.cmdline
  let initrd := if boot.initrd ≠ [] then sysloadFilenameInitrd else ""
  kexec os sysloadFilenameKernel initrd cmdline

/-- `action_kernel_boot`. -/
def actionKernelBoot (boot : CfgBentry) : SysM Unit := cleanupBootFiles (kernelBoot os boot)

/-- The part `h.h.hhhh` of a boot map URI, in lower case, and what follows it. -/
def matchBusid : CStr → Option (CStr × CStr)
  | c₁ :: '.' :: c₂ :: '.' :: c₃ :: c₄ :: c₅ :: c₆ :: rest =>
    if [c₁, c₂, c₃, c₄, c₅, c₆].all isHexDigit then
      some ([c₁, '.', c₂, '.', c₃, c₄, c₅, c₆].map Char.toLower, rest)
    else none
  | _ => none

/-- The part `,0x` with 16 hexadecimal digits of a boot map URI, in lower case, and what follows
it. -/
def matchHex16 (text : CStr) : Option (CStr × CStr) :=
  let digits := (text.drop 3).take 16
  if text.take 3 = [',', '0', 'x'] ∧ digits.length = 16 ∧ digits.all isHexDigit = true then
    some ('0' :: 'x' :: digits.map Char.toLower, text.drop 19)
  else none

/-- The value of a decimal digit. -/
def digitValue (c : Char) : Nat := c.toNat - '0'.toNat

/-- The end of a boot map URI: the program number, read with `%i`, so that a zero in front makes it
octal. -/
def matchProgram : CStr → Option Nat
  | [')'] => some 0
  | [',', c, ')'] => if c.isDigit then some (digitValue c) else none
  | [',', c₁, c₂, ')'] =>
    if c₁.isDigit ∧ c₂.isDigit then
      if c₁ = '0' then some (if digitValue c₂ < 8 then digitValue c₂ else 0)
      else some (10 * digitValue c₁ + digitValue c₂)
    else none
  | _ => none

/-- `URI_DASD_BOOTMAP_RE`, behind `dasd://`: the device and the program number. -/
def matchDasd : CStr → Option (BootDevice × Nat)
  | '(' :: text => do
    let (busid, rest) ← matchBusid text
    let program ← matchProgram rest
    pure (.dasd busid, program)
  | _ => none

/-- `URI_ZFCP_BOOTMAP_RE`, behind `zfcp://`. -/
def matchZfcp : CStr → Option (BootDevice × Nat)
  | '(' :: text => do
    let (busid, rest) ← matchBusid text
    let (wwpn, rest) ← matchHex16 rest
    let (lun, rest) ← matchHex16 rest
    let program ← matchProgram rest
    pure (.fcp busid wwpn lun, program)
  | _ => none

/-- The tests of `action_bootmap_boot`, `action_bootmap_boot_dasd` and `action_bootmap_boot_zfcp` on
the boot map URI. -/
def bootmapDevice (bootmap : CStr) : Except String (BootDevice × Nat) :=
  if bootmap.take 7 = "dasd://".toList then
    match matchDasd (bootmap.drop 7) with
    | some device => .ok device
    | none => .error "Error - invalid 'dasd' boot map URI."
  else if bootmap.take 7 = "zfcp://".toList then
    match matchZfcp (bootmap.drop 7) with
    | some device => .ok device
    | none => .error "Error - invalid 'zfcp' boot map URI."
  else .error "Unsupported bootmap URI scheme."

/-- `action_bootmap_boot`. -/
def actionBootmapBoot (boot : CfgBentry) : SysM Unit :=
  match bootmapDevice boot.bootmap with
  | .error errmsg => throw (.errmsg errmsg)
  | .ok (device, program) =>
    match os.attach device with
    | .error errmsg => throw (.errmsg errmsg)
    | .ok disk => bootBootmapDisk t os disk boot program

/-- `action_reboot`. -/
def actionReboot : SysM Unit :=
  throw (.errmsg ("reboot command failed with return code " ++ toString (os.command "/sbin/reboot") ++ "."))

/-- `action_halt`. -/
def actionHalt : SysM Unit :=
  throw (.errmsg ("halt command failed with return code " ++ toString (os.command "/sbin/halt") ++ "."))

/-- `action_shell`. -/
def actionShell : SysM Unit :=
  throw (.errmsg ("shell command returned with return code " ++ toString (os.command "/bin/sh") ++ "."))

/-- `action_exit`. -/
def actionExit : SysM Unit := throw .exited

/-- The switch of `loader`. -/
def bootAction (boot : CfgBentry) : SysM Unit :=
  match boot.action with
  | .kernelBoot => actionKernelBoot os boot
  | .insfileBoot => actionInsfileBoot os boot
  | .bootmapBoot => actionBootmapBoot t os boot
  | .reboot => actionReboot os
  | .halt => actionHalt os
  | .shell => actionShell os
  | .exit => actionExit

/-- `loader`. -/
def loader (boot : CfgBentry) : SysM Unit := do
  modify fun s => { s with call := s.call + 1 }
  bootAction t os boot

/-! ## The kernel file of a boot map -/

/-- The copy of a boot map kernel leaves the kernel file: it can be created, its header can be
written, and then the kernel component either cannot be copied, or is copied and written. -/
def KernelWritten (disk : Disk) (kernel : DiskBlockptr) : Prop :=
  os.creat sysloadFilenameKernel = none ∧
    (∀ k < kernelHeaderSize / 4, os.write sysloadFilenameKernel (4 * k) = none) ∧
    ((∃ msg, (copyComponentToMemory t disk kernel).Gives (.error (.errmsg msg))) ∨
      ∃ result, (copyComponentToMemory t disk kernel).Gives (.ok result) ∧
        os.write sysloadFilenameKernel kernelHeaderSize = none ∧
        os.close sysloadFilenameKernel = none)

/-- A call of `loader()`: the boot entry, and how the system answers. -/
structure Attempt where
  os : Os
  boot : CfgBentry

/-- The attempt boots from a boot map, gets as far as the copy of the kernel, and leaves the kernel
file. -/
def Attempt.LeavesKernel (a : Attempt) : Prop :=
  a.boot.action = .bootmapBoot ∧
    ∃ device program disk components result objects,
      bootmapDevice a.boot.bootmap = .ok (device, program) ∧ a.os.attach device = .ok disk ∧
      (programComponents t a.os disk program).Gives (.ok components) ∧
      (identifyBootObjects t a.os disk components).Gives (.ok (result, objects)) ∧
      KernelWritten t a.os disk objects.kernel

variable {t os}

/-- No file but `path` differs. -/
def SameBut (path : String) (s s' : Sys) : Prop := ∀ p, p ≠ path → s'.files p = s.files p

theorem SameBut.trans {path : String} {s s₁ s₂ : Sys} (h : SameBut path s s₁)
    (h' : SameBut path s₁ s₂) : SameBut path s s₂ := fun p hp => (h' p hp).trans (h p hp)

theorem sameBut_put (path : String) (s : Sys) (file : Option LocalFile) :
    SameBut path s (s.put path file) := fun p hp => by rw [Sys.put_files, if_neg hp]

/-- Removing the only file that differs leaves none of those that are booted. -/
theorem SameBut.unlink {path : String} {s s' : Sys} (h : SameBut path s s') (hs : s.NoBootFiles) :
    (s'.unlink path).NoBootFiles := by
  intro p hp
  by_cases heq : p = path
  · rw [heq]
    exact (Sys.put_files s' path none path).trans (if_pos rfl)
  · exact (sameBut_put path s' none p heq).trans ((h p heq).trans (hs p hp))

theorem fileSize_append {s : Sys} {path : String} {file : LocalFile} (h : s.files path = some file)
    (data : List Char) : (s.append path data).fileSize path = s.fileSize path + data.length := by
  simp [Sys.fileSize, Sys.append, h]

/-- The kernel header is written at every offset, or the kernel file is removed. -/
theorem writeKernelHeader_bind {α : Type} {f : Unit → SysM α} :
    ∀ (n : Nat) {s s' : Sys} {r : Except Stop α},
    (s.files sysloadFilenameKernel).isSome = true →
    (writeKernelHeader os n >>= f).Runs s r s' →
    (∃ s₁, (∀ k < n, os.write sysloadFilenameKernel
        (s.fileSize sysloadFilenameKernel + 4 * k) = none) ∧
      s₁.fileSize sysloadFilenameKernel = s.fileSize sysloadFilenameKernel + 4 * n ∧
      SameBut sysloadFilenameKernel s s₁ ∧ (f ()).Runs s₁ r s') ∨
    ((∃ msg, r = .error (.errmsg msg)) ∧ ∃ s₁, SameBut sysloadFilenameKernel s s₁ ∧
      s' = s₁.unlink sysloadFilenameKernel)
  | 0, s, s', r, hfile, h => by
    rw [writeKernelHeader, pure_bind] at h
    exact Or.inl ⟨s, fun k hk => absurd hk (Nat.not_lt_zero k), rfl, fun _ _ => rfl, h⟩
  | n + 1, s, s', r, hfile, h => by
    obtain ⟨file, hfile⟩ := Option.isSome_iff_exists.mp hfile
    rw [writeKernelHeader, bind_assoc] at h
    rcases writeOrUnlink_bind h with ⟨hok, hrest⟩ | ⟨hmsg, rfl⟩
    · have hsame : SameBut sysloadFilenameKernel s
          (s.append sysloadFilenameKernel (List.replicate 4 nul)) := sameBut_put _ _ _
      have hsize := fileSize_append hfile (List.replicate 4 nul)
      rw [List.length_replicate] at hsize
      have hfile' : ((s.append sysloadFilenameKernel (List.replicate 4 nul)).files
          sysloadFilenameKernel).isSome = true := by simp [Sys.append, hfile]
      rcases writeKernelHeader_bind n hfile' hrest with
        ⟨s₁, hwrites, hlen, hsame', hf⟩ | ⟨hmsg, s₁, hsame', hunlink⟩
      · refine Or.inl ⟨s₁, fun k hk => ?_, by rw [hlen, hsize]; omega, hsame.trans hsame', hf⟩
        cases k with
        | zero => exact hok
        | succ k =>
          have hk := hwrites k (by omega)
          rw [hsize, Nat.add_assoc] at hk
          rwa [show 4 * (k + 1) = 4 + 4 * k by omega]
      · exact Or.inr ⟨hmsg, s₁, hsame.trans hsame', hunlink⟩
    · exact Or.inr ⟨hmsg, s, fun _ _ => rfl, rfl⟩

/-- **The copy of a boot map kernel** that is not `KernelWritten` does not succeed, and if it returns
an error message it leaves no kernel file. -/
theorem readKernelComponent_runs {disk : Disk} {kernel : DiskBlockptr} {s s' : Sys}
    {r : Except Stop Unit} (hs : s.NoBootFiles) (hnot : ¬ KernelWritten t os disk kernel)
    (h : (readKernelComponent t os disk kernel).Runs s r s') :
    r ≠ .ok () ∧ ((∃ msg, r = .error (.errmsg msg)) → s'.NoBootFiles) := by
  rcases creat_bind h with ⟨hcreat, h⟩ | ⟨⟨msg, rfl⟩, rfl⟩
  swap
  · exact ⟨by simp, fun _ => hs⟩
  have hempty := sameBut_put sysloadFilenameKernel s (some ⟨[], none, none⟩)
  have hzero : (s.put sysloadFilenameKernel (some ⟨[], none, none⟩)).fileSize
      sysloadFilenameKernel = 0 := by simp [Sys.fileSize]
  rcases writeKernelHeader_bind _ (by simp) h with
    ⟨s₁, hwrites, hsize, hsame, h⟩ | ⟨⟨msg, rfl⟩, s₁, hsame, rfl⟩
  swap
  · exact ⟨by simp, fun _ => (hempty.trans hsame).unlink hs⟩
  have hsame := hempty.trans hsame
  simp only [hzero, Nat.zero_add] at hwrites hsize
  rcases Routine.runs_bind.mp h with ⟨⟨buffer, size⟩, s₂, hcopy, h⟩ | ⟨e, hcopy, rfl⟩
  · obtain ⟨hcopied, rfl⟩ := Routine.runs_lift.mp hcopy
    rcases writeOrUnlink_bind h with ⟨hwrite, h⟩ | ⟨⟨msg, rfl⟩, rfl⟩
    · obtain ⟨_, hclose, _⟩ | ⟨⟨msg, rfl⟩, rfl⟩ := closeOrUnlink_runs h
      · rw [hsize] at hwrite
        exact absurd ⟨hcreat, hwrites, Or.inr ⟨_, hcopied, hwrite, hclose⟩⟩ hnot
      · exact ⟨by simp, fun _ => (hsame.trans (sameBut_put _ _ _)).unlink hs⟩
    · exact ⟨by simp, fun _ => hsame.unlink hs⟩
  · have hcopied := (Routine.runs_lift.mp hcopy).1
    refine ⟨by simp, ?_⟩
    rintro ⟨msg, hmsg⟩
    cases hmsg
    exact absurd ⟨hcreat, hwrites, Or.inl ⟨msg, hcopied⟩⟩ hnot

/-! ## What a call of the loader leaves -/

theorem bootBootmapDisk_noBootFiles {disk : Disk} {boot : CfgBentry} {program : Int} {s s' : Sys}
    {msg : String} (hs : s.NoBootFiles)
    (hnot : ∀ components result objects, (programComponents t os disk program).Gives (.ok components) →
      (identifyBootObjects t os disk components).Gives (.ok (result, objects)) →
      ¬ KernelWritten t os disk objects.kernel)
    (h : (bootBootmapDisk t os disk boot program).Runs s (.error (.errmsg msg)) s') :
    s'.NoBootFiles := by
  rcases Routine.runs_bind.mp h with ⟨components, s₁, hlift, h⟩ | ⟨_, hlift, _⟩
  · obtain ⟨hcomponents, rfl⟩ := Routine.runs_lift.mp hlift
    rcases Routine.runs_bind.mp h with ⟨⟨result, objects⟩, s₁, hlift', h⟩ | ⟨_, hlift', _⟩
    · obtain ⟨hobjects, rfl⟩ := Routine.runs_lift.mp hlift'
      have hkernel := hnot components result objects hcomponents hobjects
      rcases Routine.runs_bind.mp h with ⟨_, s₁, hread, _⟩ | ⟨e, hread, he⟩
      · exact absurd rfl (readKernelComponent_runs hs hkernel hread).1
      · exact (readKernelComponent_runs hs hkernel hread).2 ⟨msg, he⟩
    · obtain ⟨_, rfl⟩ := Routine.runs_lift.mp hlift'
      exact hs
  · obtain ⟨_, rfl⟩ := Routine.runs_lift.mp hlift
    exact hs

/-- A function that returns by its label `cleanup` leaves none of the files. -/
theorem cleanupBootFiles_noBootFiles {x : SysM Unit} {s s' : Sys} {msg : String}
    (h : (cleanupBootFiles x).Runs s (.error (.errmsg msg)) s') : s'.NoBootFiles := by
  obtain ⟨s₁, _, rfl⟩ := Routine.runs_cleanup.mp h
  exact unlinkBootFiles_noBootFiles s₁

theorem cleanupBootFiles_kexecs {x : SysM Unit} {s s' : Sys} {r : Except Stop Unit}
    (h : (cleanupBootFiles x).Runs s r s') : ∃ s₁, x.Runs s r s₁ ∧ s'.kexecs = s₁.kexecs := by
  obtain ⟨s₁, hx, rfl⟩ := Routine.runs_cleanup.mp h
  refine ⟨s₁, hx, ?_⟩
  split <;> rfl

theorem loader_runs {boot : CfgBentry} {s s' : Sys} {r : Except Stop Unit} :
    (loader t os boot).Runs s r s' ↔
      (bootAction t os boot).Runs { s with call := s.call + 1 } r s' := by
  unfold loader
  rw [Routine.runs_bind]
  simp

/-- **A call of the loader that returns** leaves none of the files that are booted, unless it leaves
the kernel of a boot map. -/
theorem loader_noBootFiles {a : Attempt} {s s' : Sys} {msg : String} (hs : s.NoBootFiles)
    (hclean : ¬ a.LeavesKernel t)
    (h : (loader t a.os a.boot).Runs s (.error (.errmsg msg)) s') : s'.NoBootFiles := by
  have hs' : Sys.NoBootFiles { s with call := s.call + 1 } := hs
  have h := loader_runs.mp h
  unfold bootAction at h
  cases haction : a.boot.action with
  | kernelBoot | insfileBoot =>
    rw [haction] at h
    exact cleanupBootFiles_noBootFiles h
  | bootmapBoot =>
    rw [haction] at h
    simp only [actionBootmapBoot] at h
    cases hdevice : bootmapDevice a.boot.bootmap with
    | error errmsg =>
      rw [hdevice] at h
      obtain ⟨_, rfl⟩ := Routine.runs_throw.mp h
      exact hs'
    | ok x =>
      obtain ⟨device, program⟩ := x
      simp only [hdevice] at h
      cases hattach : a.os.attach device with
      | error errmsg =>
        simp only [hattach] at h
        obtain ⟨_, rfl⟩ := Routine.runs_throw.mp h
        exact hs'
      | ok disk =>
        simp only [hattach] at h
        refine bootBootmapDisk_noBootFiles hs' (fun components result objects hc ho hw => ?_) h
        exact hclean ⟨haction, device, program, disk, components, result, objects, hdevice, hattach,
          hc, ho, hw⟩
  | reboot | halt | shell | exit =>
    rw [haction] at h
    obtain ⟨_, rfl⟩ := Routine.runs_throw.mp h
    exact hs'

/-! ## Sequences of calls -/

variable (t) in
/-- A sequence of calls of the loader, each of which returned with an error message, as the main loop
makes them. -/
inductive Attempts (s₀ : Sys) : List Attempt → Sys → Prop
  | start : Attempts s₀ [] s₀
  | attempt {as : List Attempt} {a : Attempt} {s s' : Sys} {msg : String} :
      Attempts s₀ as s → (loader t a.os a.boot).Runs s (.error (.errmsg msg)) s' →
      Attempts s₀ (as ++ [a]) s'

theorem attempts_noBootFiles {s₀ s : Sys} {as : List Attempt} (h₀ : s₀.NoBootFiles)
    (hrun : Attempts t s₀ as s) (hclean : ∀ a ∈ as, ¬ a.LeavesKernel t) : s.NoBootFiles := by
  induction hrun with
  | start => exact h₀
  | attempt _ hcall ih =>
    refine loader_noBootFiles (ih fun a ha => hclean a (List.mem_append_left _ ha)) ?_ hcall
    exact hclean _ (List.mem_append_right _ (List.mem_singleton.mpr rfl))

/-- **Boot-time freshness**: after a sequence of calls none of which leaves the kernel of a boot
map, none of the files that are booted exists, and whatever comes of an insfile boot, if it calls
`kexec` then with files of its own. -/
theorem attempts_insfile_fresh (t : Target) {s₀ s : Sys} {as : List Attempt}
    (h₀ : s₀.NoBootFiles) (hrun : Attempts t s₀ as s)
    (hclean : ∀ a ∈ as, ¬ a.LeavesKernel t) :
    s.NoBootFiles ∧ ∀ (os : Os) (boot : CfgBentry) (r : Except Stop Unit) (s' : Sys),
      boot.action = .insfileBoot → (loader t os boot).Runs s r s' →
        s'.kexecs = s.kexecs ∨ ∃ k : KexecCall, s'.kexecs = s.kexecs ++ [k] ∧ k.Fresh := by
  have hs := attempts_noBootFiles h₀ hrun hclean
  refine ⟨hs, fun os boot r s' haction h => ?_⟩
  have h := loader_runs.mp h
  unfold bootAction at h
  rw [haction] at h
  obtain ⟨s₁, hboot, hkexecs⟩ := cleanupBootFiles_kexecs h
  rw [hkexecs]
  exact insfileBoot_kexecs (s := { s with call := s.call + 1 }) hs hboot

/-- A kernel, on a system that delivers every file and does not load it into memory. -/
def unloadableAttempt : Attempt :=
  ⟨{ Os.willing with kexecLoad := some 1 },
    { CfgBentry.init with kernel := "ftp://h/k".toList, action := .kernelBoot }⟩

theorem unloadableAttempt_runs (s : Sys) : ∃ msg s',
    (loader s390x unloadableAttempt.os unloadableAttempt.boot).Runs s (.error (.errmsg msg)) s' ∧
      ∃ k, s'.kexecs = s.kexecs ++ [k] := by
  have hload := compLoad_success unloadableAttempt.os { s with call := s.call + 1 }
    (show verifyUriScheme "ftp://h/k".toList = true by decide)
    (show unloadableAttempt.os.loaderModule sysloadFilenameKernel _ = .success [] from rfl)
  obtain ⟨msg, hkexec⟩ := @kexec_unloadable unloadableAttempt.os sysloadFilenameKernel "" [] 1
    (({ s with call := s.call + 1 } : Sys).put sysloadFilenameKernel
      (some ⟨[], some (s.call + 1), none⟩)) rfl
  have hboot : (kernelBoot unloadableAttempt.os unloadableAttempt.boot).Runs
      { s with call := s.call + 1 } (.error (.errmsg msg)) _ :=
    (Routine.runs_bind_of_ok hload).mpr hkexec
  have haction : bootAction s390x unloadableAttempt.os unloadableAttempt.boot =
      cleanupBootFiles (kernelBoot unloadableAttempt.os unloadableAttempt.boot) := rfl
  have hrun := cleanupBootFiles_errmsg hboot
  exact ⟨msg, _, loader_runs.mpr (haction ▸ hrun), _, rfl⟩

/-- The system that delivers an insfile and its components. -/
def insfileOs (insfile : List Char) (component : String → List Char) (kexecLoad : Option Int) : Os :=
  { Os.willing with
    loaderModule := fun dest _ =>
      .success (if dest = sysloadFilenameInsfile then insfile else component dest)
    kexecLoad := kexecLoad }

/-- The entry of an insfile. -/
def insfileEntry : CfgBentry :=
  { CfgBentry.init with insfile := "ftp://host/linux.ins".toList, action := .insfileBoot }

/-- The insfile is copied in the call that follows. -/
def Sys.copied (s : Sys) (insfile : List Char) : Sys :=
  ({ s with call := s.call + 1 } : Sys).put sysloadFilenameInsfile
    (some ⟨insfile, some (s.call + 1), none⟩)

theorem Sys.copied_files (s : Sys) (insfile : List Char) {path : String} (hpath : path ∈ bootFiles) :
    (s.copied insfile).files path = s.files path := by
  have hinsfile : path ≠ sysloadFilenameInsfile := fun h => insfile_notMem (h ▸ hpath)
  rw [Sys.copied, Sys.put_files, if_neg hinsfile]

/-- Where the loop over the components leaves the three files, they are booted. -/
theorem insfileOs_calls {insfile : List Char} {component : String → List Char}
    {kexecLoad : Option Int} {s s₁ : Sys} {parmfile : LocalFile}
    (hloop : (loadComponents (insfileOs insfile component kexecLoad) "ftp://host/".toList
      (fgetsPieces insfile (cfgStrMaxLen - 1) []) 0 [] 0).Runs (s.copied insfile) (.ok ()) s₁)
    (hall : s₁.hasBootFiles = true) (hparmfile : s₁.files sysloadFilenameParmfile = some parmfile)
    (hdata : parmfile.data = "root".toList) :
    ∃ r s', (loader s390x (insfileOs insfile component kexecLoad) insfileEntry).Runs s r s' ∧
      (kexecLoad.isSome = true → ∃ msg, r = .error (.errmsg msg)) ∧
      (kexecLoad = none → r = .error .booted) ∧ s'.kexecs = s₁.kexecs ++ [⟨sysloadFilenameKernel, sysloadFilenameInitrd, "root ".toList, s₁.call,
        (s₁.unlink sysloadFilenameInsfile).files⟩] := by
  have hmodule : ∀ uri, (insfileOs insfile component kexecLoad).loaderModule sysloadFilenameInsfile
      uri = .success insfile := fun uri => congrArg LoaderRun.success (if_pos rfl)
  have hload := @loadInsfileComponents_runs (insfileOs insfile component kexecLoad) insfileEntry
    insfile { s with call := s.call + 1 } s₁ (by decide) (by decide) (hmodule _) rfl hloop
  have hcompose : (composeCommandline (insfileOs insfile component kexecLoad)
      sysloadFilenameParmfile []).Runs (s₁.unlink sysloadFilenameInsfile) (.ok "root ".toList)
      (s₁.unlink sysloadFilenameInsfile) := by
    refine Routine.runs_bind.mpr (Or.inl ⟨_, _, Routine.runs_get.mpr ⟨rfl, rfl⟩, ?_⟩)
    rw [Sys.unlink, Sys.put_files, if_neg (by decide), hparmfile]
    dsimp only [insfileOs, Os.willing]
    rw [hdata]
    exact Routine.runs_pure.mpr ⟨rfl, rfl⟩
  have hall' : (s₁.unlink sysloadFilenameInsfile).hasBootFiles = true := by
    simpa [Sys.unlink, Sys.hasBootFiles, sysloadFilenameKernel, sysloadFilenameInitrd,
      sysloadFilenameParmfile, sysloadFilenameInsfile] using hall
  have haction : bootAction s390x (insfileOs insfile component kexecLoad) insfileEntry =
      cleanupBootFiles (insfileBoot (insfileOs insfile component kexecLoad) insfileEntry) := rfl
  cases kexecLoad with
  | some status =>
    obtain ⟨msg, hkexec⟩ := @kexec_unloadable (insfileOs insfile component (some status))
      sysloadFilenameKernel sysloadFilenameInitrd "root ".toList status
      (s₁.unlink sysloadFilenameInsfile) rfl
    have hrun := cleanupBootFiles_errmsg (insfileBoot_runs hload hall' hcompose hkexec)
    exact ⟨_, _, loader_runs.mpr (haction ▸ hrun), fun _ => ⟨msg, rfl⟩, fun h => absurd h (by simp), rfl⟩
  | none =>
    have hkexec := @kexec_booted (insfileOs insfile component none)
      sysloadFilenameKernel sysloadFilenameInitrd "root ".toList
      (s₁.unlink sysloadFilenameInsfile) rfl rfl
    have hrun := cleanupBootFiles_booted (insfileBoot_runs hload hall' hcompose hkexec)
    exact ⟨_, _, loader_runs.mpr (haction ▸ hrun), fun h => absurd h (by simp), fun _ => rfl, rfl⟩

/-- A file of 5000 characters. -/
def middleFile : List Char := List.replicate 5000 'x'

/-- It is what its address says. -/
theorem middleFile_type (addr : Nat) : mostProbable (votes middleFile addr) =
    if addr = 0 then .kernel else if addr = 0x800000 then .initrd
    else if addr = 0x10480 then .parmfile else if addr = 0x10414 then .initrdsize else .other := by
  have hlength : middleFile.length = 5000 := List.length_replicate
  exact votes_middle (by rw [hlength]; decide) (by rw [hlength]; decide) addr

theorem root_type : bootName (mostProbable (votes "root".toList 0x10480)) =
    some sysloadFilenameParmfile := by
  decide

/-- An insfile with kernel, initrd and parmfile. -/
def completeInsfile : List Char := "linux 0x0\ninitrd 0x800000\nparm 0x10480\n".toList

/-- The system that delivers `completeInsfile` and its components, and boots them. -/
def completeOs : Os :=
  insfileOs completeInsfile (fun dest => if dest = localName 3 then "root".toList else middleFile) none

/-- The state after the components of `completeInsfile` were loaded. -/
def Sys.completed (s : Sys) : Sys :=
  (((s.copied completeInsfile).leave 1 middleFile sysloadFilenameKernel).leave 2 middleFile
    sysloadFilenameInitrd).leave 3 "root".toList sysloadFilenameParmfile

theorem completeOs_loads (s : Sys) :
    (loadComponents completeOs "ftp://host/".toList
      (fgetsPieces completeInsfile (cfgStrMaxLen - 1) []) 0 [] 0).Runs (s.copied completeInsfile)
      (.ok ()) s.completed := by
  have hpieces : fgetsPieces completeInsfile (cfgStrMaxLen - 1) [] =
      ["linux 0x0\n".toList, "initrd 0x800000\n".toList, "parm 0x10480\n".toList] := by decide
  have hkernel : ∀ uri, completeOs.loaderModule (localName 1) uri = .success middleFile :=
    fun _ => rfl
  have hinitrd : ∀ uri, completeOs.loaderModule (localName 2) uri = .success middleFile :=
    fun _ => rfl
  have hparmfile : ∀ uri, completeOs.loaderModule (localName 3) uri = .success "root".toList :=
    fun _ => rfl
  rw [hpieces]
  refine loadComponents_line (by decide) (show _ = ("linux".toList, 0) by decide) (by decide)
    (loadComponent_renames _ (by decide) (hkernel _) rfl rfl
      (congrArg bootName (middleFile_type 0))) ?_
  refine loadComponents_line (by decide) (show _ = ("initrd".toList, 0x800000) by decide) (by decide)
    (loadComponent_renames _ (by decide) (hinitrd _) rfl rfl
      (congrArg bootName (middleFile_type 0x800000))) ?_
  refine loadComponents_line (by decide) (show _ = ("parm".toList, 0x10480) by decide) (by decide)
    (loadComponent_renames _ (by decide) (hparmfile _) rfl rfl root_type) ?_
  exact Routine.runs_pure.mpr ⟨rfl, rfl⟩

theorem completed_files (s : Sys) {path : String} (hpath : path ∈ bootFiles) :
    s.completed.files path = if path = sysloadFilenameParmfile then
        some ⟨"root".toList, some (s.call + 1), some (s.call + 1)⟩
      else if path = sysloadFilenameInitrd then some ⟨middleFile, some (s.call + 1), some (s.call + 1)⟩
      else if path = sysloadFilenameKernel then some ⟨middleFile, some (s.call + 1), some (s.call + 1)⟩
      else s.files path := by
  unfold Sys.completed
  rw [Sys.leave_files _ _ _ _ hpath, Sys.leave_files _ _ _ _ hpath, Sys.leave_files _ _ _ _ hpath,
    Sys.copied_files s _ hpath]
  rfl

/-- **The entry of a complete insfile** is booted. -/
theorem completeOs_boots (s : Sys) :
    ∃ s' k, (loader s390x completeOs insfileEntry).Runs s (.error .booted) s' ∧
      s'.kexecs = s.kexecs ++ [k] := by
  have hkernel := completed_files s (show sysloadFilenameKernel ∈ bootFiles by decide)
  have hinitrd := completed_files s (show sysloadFilenameInitrd ∈ bootFiles by decide)
  have hparmfile := completed_files s (show sysloadFilenameParmfile ∈ bootFiles by decide)
  rw [if_neg (by decide), if_neg (by decide), if_pos rfl] at hkernel
  rw [if_neg (by decide), if_pos rfl] at hinitrd
  rw [if_pos rfl] at hparmfile
  have hall : s.completed.hasBootFiles = true := by
    rw [Sys.hasBootFiles, hkernel, hinitrd, hparmfile]
    rfl
  obtain ⟨r, s', hrun, _, hboots, hkexecs⟩ :=
    insfileOs_calls (completeOs_loads s) hall hparmfile rfl
  obtain rfl := hboots rfl
  have hsame : s.completed.kexecs = s.kexecs := by simp [Sys.completed, Sys.copied]
  rw [hsame] at hkexecs
  exact ⟨s', _, hrun, hkexecs⟩

/-- A kernel boot fails, and then an insfile is booted. -/
theorem attempts_insfile_fresh_completeOs : ∃ s, Attempts s390x .boot [unloadableAttempt] s ∧
    ∃ s' k, (loader s390x completeOs insfileEntry).Runs s (.error .booted) s' ∧
      s'.kexecs = s.kexecs ++ [k] ∧ k.Fresh := by
  obtain ⟨msg, s, hfirst, _⟩ := unloadableAttempt_runs .boot
  obtain ⟨s', k, hrun, hk⟩ := completeOs_boots s
  have hattempts : Attempts s390x .boot [unloadableAttempt] s := Attempts.attempt .start hfirst
  have hclean : ∀ a ∈ [unloadableAttempt], ¬ a.LeavesKernel s390x := fun a ha h => by
    rw [List.mem_singleton.mp ha] at h
    exact absurd h.1 (by decide)
  refine ⟨s, hattempts, s', k, hrun, hk, ?_⟩
  rcases (attempts_insfile_fresh s390x (fun _ _ => rfl) hattempts hclean).2 _ _ _ s' rfl hrun with
    hsame | ⟨k', hk', hfresh⟩
  · rw [hk] at hsame
    exact absurd hsame (by simp)
  · obtain rfl := List.singleton_inj.mp (List.append_cancel_left (hk.symm.trans hk'))
    exact hfresh

/-! ### A kernel that is left behind -/

/-- A SCSI disk of one block that is both program table and component table; its first component is
an execute component, so no kernel is identified. -/
def headlessDisk : Disk :=
  sparseDisk 1 [(0, 0x7a), (1, 0x49), (2, 0x50), (3, 0x4c), (24, 2), (55, 1)]

theorem headlessDisk_identify (os : Os) :
    (identifyBootObjects s390x os headlessDisk (sparseComponents os.beyond headlessDisk 0)).Gives
      (.ok (some "Error - invalid component table found", .zero)) := by
  have h0 := sparseComponents_getElem? os.beyond headlessDisk 0 (show 0 < 15 by decide)
  obtain ⟨c, rest, hlist⟩ :
      ∃ c rest, sparseComponents os.beyond headlessDisk 0 = c :: rest := ⟨_, _, rfl⟩
  rw [hlist, List.getElem?_cons_zero] at h0
  have htype : c.type = componentExecute := by
    rw [Option.some.inj h0]
    decide
  rw [identifyBootObjects_none fun n stage3 loader hat => ?_]
  · exact Prog.gives_pure.mpr rfl
  · have hidx := hat.1
    rw [hlist, List.findIdx_cons, htype] at hidx
    exact absurd hidx (by simp)

/-- The header of a kernel file that no loader module wrote. -/
theorem writeKernelHeader_stale (hwrite : ∀ n, os.write sysloadFilenameKernel n = none) :
    ∀ (n : Nat) {s : Sys} {file : LocalFile}, s.files sysloadFilenameKernel = some file →
      file.loadedIn = none → ∃ s' file', (writeKernelHeader os n).Runs s (.ok ()) s' ∧
        s'.files sysloadFilenameKernel = some file' ∧ file'.loadedIn = none
  | 0, s, file, hfile, hstale => ⟨s, file, Routine.runs_pure.mpr ⟨rfl, rfl⟩, hfile, hstale⟩
  | n + 1, s, file, hfile, hstale => by
    have hput : (s.append sysloadFilenameKernel (List.replicate 4 nul)).files
        sysloadFilenameKernel = some { file with data := file.data ++ List.replicate 4 nul } := by
      simp [Sys.append, hfile]
    obtain ⟨s', file', hrun, hfile', hstale'⟩ := writeKernelHeader_stale hwrite n hput hstale
    refine ⟨s', file', Routine.runs_bind.mpr (Or.inl ⟨(), _, ?_, hrun⟩), hfile', hstale'⟩
    refine Routine.runs_bind.mpr (Or.inl ⟨s, s, Routine.runs_get.mpr ⟨rfl, rfl⟩, ?_⟩)
    rw [hwrite]
    exact Routine.runs_modify.mpr ⟨rfl, rfl⟩

/-- **The boot from `headlessDisk` fails, and leaves a kernel file.** -/
theorem headlessDisk_leaves_kernel (hcreat : os.creat sysloadFilenameKernel = none)
    (hwrite : ∀ n, os.write sysloadFilenameKernel n = none) (boot : CfgBentry) (s : Sys) :
    ∃ msg s' file, (bootBootmapDisk s390x os headlessDisk boot 0).Runs s
      (.error (.errmsg msg)) s' ∧ s'.files sysloadFilenameKernel = some file ∧
        file.loadedIn = none := by
  have hcomponents : (programComponents s390x os headlessDisk 0).Gives
      (.ok (sparseComponents os.beyond headlessDisk 0)) :=
    sparseDisk_programComponents os (by decide) (by decide) (by decide) (by decide)
      (by decide) (by decide)
  obtain ⟨msg, hcopy⟩ := @copyComponentToMemory_zero s390x headlessDisk rfl rfl
  have hempty : (s.put sysloadFilenameKernel (some ⟨[], none, none⟩)).files
      sysloadFilenameKernel = some ⟨[], none, none⟩ := by simp
  obtain ⟨s', file, hheader, hfile, hstale⟩ := writeKernelHeader_stale hwrite (kernelHeaderSize / 4)
    hempty rfl
  refine ⟨msg, s', file, ?_, hfile, hstale⟩
  refine Routine.runs_bind.mpr (Or.inl ⟨_, s, Routine.runs_lift.mpr ⟨hcomponents, rfl⟩, ?_⟩)
  refine Routine.runs_bind.mpr
    (Or.inl ⟨_, s, Routine.runs_lift.mpr ⟨headlessDisk_identify os, rfl⟩, ?_⟩)
  refine Routine.runs_bind.mpr (Or.inr ⟨_, ?_, rfl⟩)
  have hnew : (creat os sysloadFilenameKernel ("Error writing kernel file - " ++ ·)).Runs s (.ok ())
      (s.put sysloadFilenameKernel (some ⟨[], none, none⟩)) := by
    rw [creat, hcreat]
    exact Routine.runs_modify.mpr ⟨rfl, rfl⟩
  refine Routine.runs_bind.mpr (Or.inl ⟨(), _, hnew, ?_⟩)
  refine Routine.runs_bind.mpr (Or.inl ⟨(), s', hheader, ?_⟩)
  exact Routine.runs_bind.mpr (Or.inr ⟨_, Routine.runs_lift.mpr ⟨hcopy, rfl⟩, rfl⟩)

/-- An insfile with an initrd and a parmfile, but without a kernel. -/
def kernellessInsfile : List Char := "initrd 0x800000\nparm 0x10480\n".toList

/-- The system that delivers `kernellessInsfile` and its components, and cannot load the kernel. -/
def kernellessOs : Os :=
  insfileOs kernellessInsfile (fun dest => if dest = localName 1 then middleFile else "root".toList)
    (some 1)

/-- The state after the components of `kernellessInsfile` were loaded. -/
def Sys.kernelless (s : Sys) : Sys :=
  ((s.copied kernellessInsfile).leave 1 middleFile sysloadFilenameInitrd).leave 2 "root".toList
    sysloadFilenameParmfile

theorem kernellessOs_loads (s : Sys) :
    (loadComponents kernellessOs "ftp://host/".toList
      (fgetsPieces kernellessInsfile (cfgStrMaxLen - 1) []) 0 [] 0).Runs (s.copied kernellessInsfile)
      (.ok ()) s.kernelless := by
  have hpieces : fgetsPieces kernellessInsfile (cfgStrMaxLen - 1) [] =
      ["initrd 0x800000\n".toList, "parm 0x10480\n".toList] := by decide
  have hinitrd : ∀ uri, kernellessOs.loaderModule (localName 1) uri = .success middleFile :=
    fun _ => rfl
  have hparmfile : ∀ uri, kernellessOs.loaderModule (localName 2) uri = .success "root".toList :=
    fun _ => rfl
  rw [hpieces]
  refine loadComponents_line (by decide) (show _ = ("initrd".toList, 0x800000) by decide) (by decide)
    (loadComponent_renames _ (by decide) (hinitrd _) rfl rfl
      (congrArg bootName (middleFile_type 0x800000))) ?_
  refine loadComponents_line (by decide) (show _ = ("parm".toList, 0x10480) by decide) (by decide)
    (loadComponent_renames _ (by decide) (hparmfile _) rfl rfl root_type) ?_
  exact Routine.runs_pure.mpr ⟨rfl, rfl⟩

theorem kernelless_files (s : Sys) {path : String} (hpath : path ∈ bootFiles) :
    s.kernelless.files path = if path = sysloadFilenameParmfile then
        some ⟨"root".toList, some (s.call + 1), some (s.call + 1)⟩
      else if path = sysloadFilenameInitrd then some ⟨middleFile, some (s.call + 1), some (s.call + 1)⟩
      else s.files path := by
  unfold Sys.kernelless
  rw [Sys.leave_files _ _ _ _ hpath, Sys.leave_files _ _ _ _ hpath, Sys.copied_files s _ hpath]
  rfl

/-- **An insfile without a kernel boots the kernel that is there.** -/
theorem kernelless_boots_stale {s : Sys} {file : LocalFile}
    (hfile : s.files sysloadFilenameKernel = some file) (hstale : file.loadedIn = none) :
    ∃ msg s' k, (loader s390x kernellessOs insfileEntry).Runs s (.error (.errmsg msg)) s' ∧
      s'.kexecs = s.kexecs ++ [k] ∧ ¬ k.Fresh := by
  have hkernel := kernelless_files s (show sysloadFilenameKernel ∈ bootFiles by decide)
  have hinitrd := kernelless_files s (show sysloadFilenameInitrd ∈ bootFiles by decide)
  have hparmfile := kernelless_files s (show sysloadFilenameParmfile ∈ bootFiles by decide)
  rw [if_neg (by decide), if_neg (by decide), hfile] at hkernel
  rw [if_neg (by decide), if_pos rfl] at hinitrd
  rw [if_pos rfl] at hparmfile
  have hall : s.kernelless.hasBootFiles = true := by
    rw [Sys.hasBootFiles, hkernel, hinitrd, hparmfile]
    rfl
  obtain ⟨r, s', hrun, hfails, _, hkexecs⟩ :=
    insfileOs_calls (kernellessOs_loads s) hall hparmfile rfl
  obtain ⟨msg, rfl⟩ := hfails rfl
  have hsame : s.kernelless.kexecs = s.kexecs := by simp [Sys.kernelless, Sys.copied]
  rw [hsame] at hkexecs
  refine ⟨msg, s', _, hrun, hkexecs, fun hfresh => ?_⟩
  obtain ⟨file', hfile', hloadedIn, _⟩ := hfresh sysloadFilenameKernel (by decide)
  obtain rfl := Option.some.inj (hkernel.symm.trans hfile')
  exact absurd (hstale.symm.trans hloadedIn) (by simp)

/-- The entry of a boot map. -/
def headlessBoot : CfgBentry :=
  { CfgBentry.init with
    bootmap := "zfcp://(0.0.1234,0x0123456789abcdef,0x0000000000000000)".toList
    action := .bootmapBoot }

/-- **A kernel that an insfile boots need not be its own**: a boot from `headlessDisk` fails and
leaves a kernel file, and the next call boots it with initrd and parmfile of an insfile. -/
theorem staleKernel_booted :
    ∃ s, Attempts s390x .boot [⟨{ Os.willing with attach := fun _ => .ok headlessDisk }, headlessBoot⟩] s ∧
      ¬ s.NoBootFiles ∧
      ∃ msg s' k, (loader s390x kernellessOs insfileEntry).Runs s (.error (.errmsg msg)) s' ∧
        s'.kexecs = s.kexecs ++ [k] ∧ ¬ k.Fresh := by
  obtain ⟨msg, s, file, hrun, hfile, hstale⟩ := @headlessDisk_leaves_kernel
    { Os.willing with attach := fun _ => .ok headlessDisk } rfl (fun _ => rfl) headlessBoot
    { Sys.boot with call := 1 }
  refine ⟨s, Attempts.attempt Attempts.start (loader_runs.mpr hrun), fun hnone => ?_,
    kernelless_boots_stale hfile hstale⟩
  exact absurd ((hnone _ (by decide)).symm.trans hfile) (by simp)

end Sysload
