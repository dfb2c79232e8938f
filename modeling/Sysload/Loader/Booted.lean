import Sysload.Bootmap.Image
import Sysload.Loader.Loader
import Sysload.Loader.Voting

/-!
# What the loader boots (`loader.c`)

The main loop calls `loader()` again and again, with files of earlier calls around. Each call of
`kexec` belongs to one of these calls, and is what the boot entry of that call asks for.

Source: `src/core/loader.c`, `action_kernel_boot`, `action_bootmap_boot` and `loader`;
`src/core/insfile.c`, `action_insfile_boot`. Out of scope are what the shell action does to the
files, and the new kernel.

Results:
* `kernelBoot_boots_iff`, **`loader_bootmap_iff`**: when `kexec` is called for a kernel and for a boot
  map, and with what.
* `insfileBoot_described`: what it is called with for an insfile.
* **`attempts_described`**: what any sequence of calls boots.
-/

namespace Sysload

open Bootmap Slots

variable {t : Target} {os : Os} {boot : CfgBentry} {s s' : Sys} {k : KexecCall}

/-! ## `action_kernel_boot` -/

/-- The initrd of a boot entry is loaded, if it has one. -/
def EntryInitrd (os : Os) (boot : CfgBentry) (s : Sys) (initrd : String) (s' : Sys) : Prop :=
  if boot.initrd = [] then initrd = "" ∧ s' = s
  else initrd = sysloadFilenameInitrd ∧
    ∃ data, Delivers os sysloadFilenameInitrd (prefixRoot boot.root boot.initrd) data ∧
      s' = s.put sysloadFilenameInitrd (some ⟨data, some s.call, none⟩)

theorem entryInitrd_none (hinitrd : boot.initrd = []) {initrd : String} :
    EntryInitrd os boot s initrd s' ↔ initrd = "" ∧ s' = s := by
  rw [EntryInitrd, if_pos hinitrd]

theorem entryInitrd_some (hinitrd : boot.initrd ≠ []) {initrd : String} :
    EntryInitrd os boot s initrd s' ↔ initrd = sysloadFilenameInitrd ∧
      ∃ data, Delivers os sysloadFilenameInitrd (prefixRoot boot.root boot.initrd) data ∧
        s' = s.put sysloadFilenameInitrd (some ⟨data, some s.call, none⟩) := by
  rw [EntryInitrd, if_neg hinitrd]

/-- The rest of the boot method, behind kernel and initrd. -/
theorem boots_entryCmdline_iff {f : Except (Option CStr) Unit → SysM Unit} {initrd : String}
    (hok : f (.ok ()) = composeCommandline os sysloadFilenameParmfile boot.cmdline >>= fun cmdline =>
      kexec os sysloadFilenameKernel initrd cmdline)
    (hfail : ∀ errmsg s k, ¬ Boots (f (.error errmsg)) s k) :
    Boots (if boot.parmfile ≠ [] then
        compLoad os sysloadFilenameParmfile (prefixRoot boot.root boot.parmfile) >>= f
      else pure boot.cmdline >>= fun cmdline =>
        kexec os sysloadFilenameKernel initrd cmdline) s k ↔
      ∃ cmdline s', CmdlineStep os boot s cmdline s' ∧
        k = ⟨sysloadFilenameKernel, initrd, cmdline, s.call, s'.files⟩ := by
  have hcall : ∀ {cmdline s'}, CmdlineStep os boot s cmdline s' →
      (k = ⟨sysloadFilenameKernel, initrd, cmdline, s'.call, s'.files⟩ ↔
        k = ⟨sysloadFilenameKernel, initrd, cmdline, s.call, s'.files⟩) := fun hstep => by
    rw [hstep.call]
  by_cases hparmfile : boot.parmfile = []
  · rw [if_neg (not_not.mpr hparmfile), pure_bind, boots_kexec]
    simp only [CmdlineStep, if_pos hparmfile]
    constructor
    · exact fun h => ⟨_, s, ⟨rfl, rfl⟩, h⟩
    · rintro ⟨_, _, ⟨rfl, rfl⟩, h⟩
      exact h
  · rw [if_pos hparmfile, boots_parmfile_iff hok hfail hparmfile]
    simp only [boots_kexec]
    exact exists_congr fun _ => exists_congr fun _ => and_congr_right hcall

/-- **What `action_kernel_boot` boots.** -/
theorem kernelBoot_boots_iff : Boots (kernelBoot os boot) s k ↔
    boot.kernel ≠ [] ∧ ∃ data initrd cmdline s₁ s₂,
      Delivers os sysloadFilenameKernel (prefixRoot boot.root boot.kernel) data ∧
      EntryInitrd os boot (s.put sysloadFilenameKernel (some ⟨data, some s.call, none⟩)) initrd s₁ ∧
      CmdlineStep os boot s₁ cmdline s₂ ∧
      k = ⟨sysloadFilenameKernel, initrd, cmdline, s.call, s₂.files⟩ := by
  unfold kernelBoot
  by_cases hkernel : boot.kernel = []
  · simp only [if_pos hkernel]
    exact iff_of_false not_boots_throw_bind fun h => h.1 hkernel
  · simp only [if_neg hkernel]
    rw [boots_compLoad_bind fun _ _ _ => not_boots_throw_bind]
    dsimp only
    by_cases hinitrd : boot.initrd = []
    · simp only [ne_eq, hinitrd, not_true_eq_false, if_false]
      simp only [← ne_eq]
      constructor
      · rintro ⟨data, hdelivers, hboots⟩
        obtain ⟨cmdline, s', hstep, rfl⟩ :=
          (boots_entryCmdline_iff rfl fun _ _ _ => not_boots_throw_bind).mp hboots
        exact ⟨hkernel, data, "", cmdline, _, s', hdelivers,
          (entryInitrd_none hinitrd).mpr ⟨rfl, rfl⟩, hstep, rfl⟩
      · rintro ⟨_, data, initrd, cmdline, s₁, s₂, hdelivers, hstep, hcmdline, rfl⟩
        obtain ⟨rfl, rfl⟩ := (entryInitrd_none hinitrd).mp hstep
        exact ⟨data, hdelivers, (boots_entryCmdline_iff rfl fun _ _ _ => not_boots_throw_bind).mpr
          ⟨cmdline, s₂, hcmdline, rfl⟩⟩
    · simp only [if_pos (show boot.initrd ≠ [] from hinitrd)]
      constructor
      · rintro ⟨data, hdelivers, hboots⟩
        rw [boots_compLoad_bind fun _ _ _ => not_boots_throw_bind] at hboots
        obtain ⟨initrdData, hinitrdDelivers, hboots⟩ := hboots
        obtain ⟨cmdline, s', hstep, rfl⟩ :=
          (boots_entryCmdline_iff rfl fun _ _ _ => not_boots_throw_bind).mp hboots
        exact ⟨hkernel, data, _, cmdline, _, s', hdelivers,
          (entryInitrd_some hinitrd).mpr ⟨rfl, initrdData, hinitrdDelivers, rfl⟩, hstep, rfl⟩
      · rintro ⟨_, data, initrd, cmdline, s₁, s₂, hdelivers, hstep, hcmdline, rfl⟩
        obtain ⟨rfl, initrdData, hinitrdDelivers, rfl⟩ := (entryInitrd_some hinitrd).mp hstep
        refine ⟨data, hdelivers, ?_⟩
        rw [boots_compLoad_bind fun _ _ _ => not_boots_throw_bind]
        exact ⟨initrdData, hinitrdDelivers,
          (boots_entryCmdline_iff rfl fun _ _ _ => not_boots_throw_bind).mpr
            ⟨cmdline, s₂, hcmdline, rfl⟩⟩

theorem kernelBoot_atMostOnce (boot : CfgBentry) : AtMostOnce (kernelBoot os boot) := by
  -- the rest of the boot method, behind kernel and initrd
  have hcmdline : ∀ {f : Except (Option CStr) Unit → SysM Unit} {initrd : String},
      (∀ loaded, AtMostOnce (f loaded)) → AtMostOnce (if boot.parmfile ≠ [] then
          compLoad os sysloadFilenameParmfile (prefixRoot boot.root boot.parmfile) >>= f
        else pure boot.cmdline >>= fun cmdline =>
          kexec os sysloadFilenameKernel initrd cmdline) := by
    intro f initrd hf
    split
    · exact (noKexec_compLoad _ _).bind_atMostOnce hf
    · exact (noKexec_pure _).bind_atMostOnce fun _ => atMostOnce_kexec _ _ _
  unfold kernelBoot
  dsimp only
  split
  · exact atMostOnce_throw_bind
  · refine (noKexec_compLoad _ _).bind_atMostOnce fun loaded => ?_
    cases loaded with
    | error tmpMsg => exact atMostOnce_throw_bind
    | ok =>
      dsimp only
      split
      · refine (noKexec_compLoad _ _).bind_atMostOnce fun loaded => ?_
        cases loaded with
        | error tmpMsg => exact atMostOnce_throw_bind
        | ok =>
          refine hcmdline fun loaded => ?_
          cases loaded with
          | error tmpMsg => exact atMostOnce_throw_bind
          | ok => exact (noKexec_composeCommandline _ _).bind_atMostOnce fun _ =>
              atMostOnce_kexec _ _ _
      · refine hcmdline fun loaded => ?_
        cases loaded with
        | error tmpMsg => exact atMostOnce_throw_bind
        | ok => exact (noKexec_composeCommandline _ _).bind_atMostOnce fun _ =>
            atMostOnce_kexec _ _ _

/-! ## `action_insfile_boot` -/

theorem noKexec_loadComponent (uriPath : CStr) (linecount : Nat) (filename : CStr) (addr : Nat) :
    NoKexec (loadComponent os uriPath linecount filename addr) := by
  unfold loadComponent
  refine (noKexec_compLoad _ _).bind fun loaded => ?_
  cases loaded with
  | error tmpMsg => exact noKexec_throw _
  | ok =>
    refine noKexec_get.bind fun s => ?_
    split
    · exact noKexec_modify fun s => ⟨Sys.rename_kexecs _ _ _, Sys.rename_call _ _ _⟩
    · exact noKexec_modify fun s => ⟨Sys.rename_kexecs _ _ _, Sys.rename_call _ _ _⟩
    · exact noKexec_modify fun s => ⟨Sys.rename_kexecs _ _ _, Sys.rename_call _ _ _⟩
    · exact noKexec_modify fun s => ⟨rfl, rfl⟩
    · exact noKexec_modify fun s => ⟨rfl, rfl⟩

theorem noKexec_components (uriPath : CStr) (cs : List Component) :
    NoKexec (forM cs fun c => loadComponent os uriPath c.linecount c.filename c.addr) := by
  induction cs with
  | nil => exact noKexec_pure _
  | cons c cs ih =>
    rw [List.forM_cons]
    exact (noKexec_loadComponent _ _ _ _).bind fun _ => ih

theorem noKexec_loadInsfile (boot : CfgBentry) : NoKexec (loadInsfile os boot) := by
  unfold loadInsfile
  split
  · refine (noKexec_compLoad _ _).bind fun loaded => ?_
    cases loaded with
    | error tmpMsg => exact noKexec_throw _
    | ok => exact noKexec_pure _
  · exact noKexec_pure _

theorem noKexec_loadInsfileComponents (boot : CfgBentry) :
    NoKexec (loadInsfileComponents os boot) := by
  refine (noKexec_loadInsfile boot).bind fun uriPath => noKexec_get.bind fun s => ?_
  have hunlink : NoKexec (modify fun s => s.unlink sysloadFilenameInsfile : SysM Unit) :=
    noKexec_modify fun s => ⟨rfl, rfl⟩
  split
  · rw [loadComponents_eq os _ _ 0 ([], 0)]
    exact (noKexec_components _ _).bind fun _ => hunlink
  · exact (noKexec_throw _).bind fun _ => hunlink

theorem insfileBoot_atMostOnce (boot : CfgBentry) : AtMostOnce (insfileBoot os boot) := by
  refine (noKexec_loadInsfileComponents boot).bind_atMostOnce fun _ =>
    noKexec_get.bind_atMostOnce fun s => ?_
  split
  · exact (noKexec_composeCommandline _ _).bind_atMostOnce fun _ => atMostOnce_kexec _ _ _
  · exact (noKexec_throw _).atMostOnce

/-- A component that is loaded is left as the file of its type. -/
theorem loadComponent_ok {uriPath : CStr} {c : Component} {u : Unit}
    (hrun : (loadComponent os uriPath c.linecount c.filename c.addr).Runs s (.ok u) s') :
    c.Loads os uriPath ∧ s' = c.leave os uriPath s := by
  obtain ⟨loaded, s₁, hload, hrest⟩ := Routine.runs_bind_ok.mp hrun
  cases loaded with
  | error tmpMsg => exact absurd (Routine.runs_throw.mp hrest).1 (by simp)
  | ok =>
    obtain ⟨data, ⟨hscheme, hmodule⟩, _⟩ := compLoad_ok_iff.mp hload
    have hloads : c.Loads os uriPath := ⟨hscheme, data, hmodule⟩
    exact ⟨hloads, (hrun.unique (loadComponent_leave hloads s)).2⟩

/-- **The loop that comes to its end** has loaded all of the components. -/
theorem components_ok {uriPath : CStr} {cs : List Component} {u : PUnit}
    (hrun : (forM cs fun c => loadComponent os uriPath c.linecount c.filename c.addr).Runs s
      (.ok u) s') : ∀ c ∈ cs, c.Loads os uriPath := by
  induction cs generalizing s with
  | nil => exact fun c hc => absurd hc List.not_mem_nil
  | cons c cs ih =>
    rw [List.forM_cons] at hrun
    obtain ⟨_, s₁, hfirst, hrest⟩ := Routine.runs_bind_ok.mp hrun
    exact List.forall_mem_cons.mpr ⟨(loadComponent_ok hfirst).1, ih hrest⟩

/-- The content of an insfile, and where its components are looked for. -/
def InsfileDelivered (os : Os) (boot : CfgBentry) (data : List Char) (uriPath : CStr) : Prop :=
  Delivers os sysloadFilenameInsfile (prefixRoot boot.root boot.insfile) data ∧
    uriPath = getUriPath (prefixRoot boot.root boot.insfile)

/-- What is booted of an insfile: its components are all loaded, and for each type that is booted the
last one that is taken for it is the file. -/
structure InsfileDescribed (os : Os) (boot : CfgBentry) (data : List Char) (uriPath : CStr)
    (k : KexecCall) : Prop where
  kernel : k.kernel = sysloadFilenameKernel
  initrd : k.initrd = sysloadFilenameInitrd
  loads : ∀ c ∈ insfileComponents data, c.Loads os uriPath
  files : ∀ t name, bootName t = some name → ∃ c, elected os uriPath data t = some c ∧
    k.files name = some ⟨c.content os uriPath, some k.call, some k.call⟩
  cmdline : ∃ c, elected os uriPath data .parmfile = some c ∧
    k.cmdline = cstr (c.content os uriPath) ++ [' '] ++ boot.cmdline

/-- The loop over the components of an insfile was run behind its copy. -/
theorem loadInsfileComponents_ok (hinsfile : boot.insfile ≠ []) {u : Unit}
    (hrun : (loadInsfileComponents os boot).Runs s (.ok u) s') :
    ∃ data uriPath s₁, InsfileDelivered os boot data uriPath ∧
      (∀ c ∈ insfileComponents data, c.Loads os uriPath) ∧
      Shows os uriPath s (elected os uriPath data) s₁ ∧ s' = s₁.unlink sysloadFilenameInsfile := by
  unfold loadInsfileComponents loadInsfile at hrun
  rw [if_pos hinsfile] at hrun
  obtain ⟨uriPath, s₁, hload, hrun⟩ := Routine.runs_bind_ok.mp hrun
  obtain ⟨loaded, s₂, hcopy, hpath⟩ := Routine.runs_bind_ok.mp hload
  cases loaded with
  | error tmpMsg => exact absurd (Routine.runs_throw.mp hpath).1 (by simp)
  | ok =>
    obtain ⟨data, hdelivers, rfl⟩ := compLoad_ok_iff.mp hcopy
    obtain ⟨hsome, rfl⟩ := Routine.runs_pure.mp hpath
    obtain rfl := Except.ok.inj hsome
    rw [Routine.runs_get_bind, Sys.put_files_self] at hrun
    -- the copy of the insfile is none of the files that are booted
    have hstart : Shows os (getUriPath (prefixRoot boot.root boot.insfile)) s (fun _ => none)
        (s.put sysloadFilenameInsfile (some ⟨data, some s.call, none⟩)) := by
      refine ⟨rfl, fun t name hname => ?_⟩
      rw [Sys.put_files, if_neg (by rintro rfl; exact insfile_notMem (bootName_mem hname))]
      rfl
    split at hrun
    · rename_i insfile hfile hopen
      cases hfile
      rw [loadComponents_eq os _ _ 0 ([], 0)] at hrun
      obtain ⟨_, s₁, hloop, hunlink⟩ := Routine.runs_bind_ok.mp hrun
      have hloads := components_ok hloop
      obtain ⟨s₂, hloop', hshows⟩ := components_show hloads hstart
      obtain ⟨_, rfl⟩ := hloop.unique hloop'
      exact ⟨data, _, s₁, ⟨hdelivers, rfl⟩, hloads, hshows, (Routine.runs_modify.mp hunlink).2.symm⟩
    · obtain ⟨_, _, hthrow, _⟩ := Routine.runs_bind_ok.mp hrun
      exact absurd (Routine.runs_throw.mp hthrow).1 (by simp)

/-- **What `action_insfile_boot` boots**, where none of the three files is there before. -/
theorem insfileBoot_described (hinsfile : boot.insfile ≠ []) (hs : s.NoBootFiles)
    (h : Boots (insfileBoot os boot) s k) :
    ∃ data uriPath, InsfileDelivered os boot data uriPath ∧
      InsfileDescribed os boot data uriPath k := by
  unfold insfileBoot at h
  obtain ⟨_, s₁, hload, h⟩ := (boots_bind (noKexec_loadInsfileComponents boot)).mp h
  obtain ⟨_, s₂, hget, h⟩ := (boots_bind noKexec_get).mp h
  obtain ⟨heq, rfl⟩ := Routine.runs_get.mp hget
  obtain rfl := Except.ok.inj heq
  split at h
  · rename_i hfiles
    obtain ⟨cmdline, s₂, hcompose, hkexec⟩ := (boots_bind (noKexec_composeCommandline _ _)).mp h
    obtain rfl := composeCommandline_runs os hcompose
    obtain rfl := boots_kexec.mp hkexec
    obtain ⟨data, uriPath, s₁, hdelivered, hloads, hshows, rfl⟩ :=
      loadInsfileComponents_ok hinsfile hload
    -- a file that is there is that of a component, as there was none before
    have hbooted : ∀ t name, bootName t = some name → ∃ c, elected os uriPath data t = some c ∧
        (s₁.unlink sysloadFilenameInsfile).files name =
          some ⟨c.content os uriPath, some s₁.call, some s₁.call⟩ := by
      intro t name hname
      have hmem := bootName_mem hname
      have hfile : (s₁.unlink sysloadFilenameInsfile).files name = s₁.files name := by
        rw [Sys.unlink, Sys.put_files, if_neg (by rintro rfl; exact insfile_notMem hmem)]
      have hthere := hasBootFiles_isSome hfiles name hmem
      rw [hfile, hshows.files t name hname, hs name hmem, Option.or_none] at hthere
      cases hc : elected os uriPath data t with
      | none =>
        rw [hc] at hthere
        cases hthere
      | some c =>
        refine ⟨c, rfl, ?_⟩
        rw [hfile, hshows.files t name hname, hc, hshows.call]
        rfl
    obtain ⟨c, hc, hparmfile⟩ := hbooted .parmfile sysloadFilenameParmfile rfl
    have hcmdline := ((composeCommandline_ok_iff hparmfile).mp hcompose).2.1
    exact ⟨data, uriPath, hdelivered, rfl, rfl, hloads, hbooted, c, hc, hcmdline⟩
  · exact absurd h ((noKexec_throw _).not_boots _ _)

/-! ## `action_bootmap_boot` -/

theorem bootObjects_atMostOnce (disk : Disk) (boot : CfgBentry) (objects : BootObjects) :
    AtMostOnce (bootObjects t os disk boot objects) := by
  -- behind kernel and initrd
  have hcmdline : ∀ (x : SysM CStr) (initrd : String), NoKexec x → AtMostOnce (x >>= fun cmdline =>
      prepareConfigCommandLine os boot >>= fun extraCmdline =>
        kexec os sysloadFilenameKernel initrd (cmdline ++ [' '] ++ extraCmdline)) := fun x initrd hx =>
    hx.bind_atMostOnce fun _ => (noKexec_prepareConfigCommandLine boot).bind_atMostOnce fun _ =>
      atMostOnce_kexec _ _ _
  refine (noKexec_readKernelComponent _).bind_atMostOnce fun _ => ?_
  dsimp only
  split
  · refine (noKexec_readInitrdComponent _ _).bind_atMostOnce fun _ => ?_
    split
    · exact hcmdline _ _ (noKexec_lift _)
    · exact hcmdline _ _ (noKexec_pure _)
  · split
    · exact hcmdline _ _ (noKexec_lift _)
    · exact hcmdline _ _ (noKexec_pure _)

theorem bootBootmapDisk_atMostOnce (disk : Disk) (boot : CfgBentry) (program : Int) :
    AtMostOnce (bootBootmapDisk t os disk boot program) :=
  (noKexec_lift _).bind_atMostOnce fun _ => (noKexec_lift _).bind_atMostOnce fun _ =>
    bootObjects_atMostOnce _ _ _

/-- The command line of a boot entry: its own, or behind the content of its parmfile. -/
def EntryCmdline (os : Os) (boot : CfgBentry) (cmdline : CStr) : Prop :=
  if boot.parmfile = [] then cmdline = boot.cmdline
  else ∃ data, Delivers os sysloadFilenameParmfile (prefixRoot boot.root boot.parmfile) data ∧
    cmdline = cstr data ++ [' '] ++ boot.cmdline

/-- Composing the command line leaves kernel and initrd alone. -/
theorem CmdlineStep.entryCmdline {cmdline : CStr} (h : CmdlineStep os boot s cmdline s') :
    EntryCmdline os boot cmdline ∧
      ∀ path, path ≠ sysloadFilenameParmfile → s'.files path = s.files path := by
  unfold CmdlineStep at h
  unfold EntryCmdline
  split at h
  · rename_i hparmfile
    rw [if_pos hparmfile, h.2]
    exact ⟨h.1, fun _ _ => rfl⟩
  · rename_i hparmfile
    obtain ⟨data, hdelivers, _, hcmdline, rfl⟩ := h
    rw [if_neg hparmfile]
    exact ⟨⟨data, hdelivers, hcmdline⟩, fun path hpath => by rw [Sys.put_files, if_neg hpath]⟩

/-- The initrd that is booted with these boot objects. -/
def MapInitrd (t : Target) (disk : Disk) (objects : BootObjects) (k : KexecCall) : Prop :=
  if blockptrIsNull t disk objects.initrd = true then k.initrd = ""
  else k.initrd = sysloadFilenameInitrd ∧ ∃ bytes, ComponentBytes t disk objects.initrd bytes ∧
    objects.initrdLen ≤ bytes.length ∧ k.files sysloadFilenameInitrd =
      some ⟨(chars bytes).take objects.initrdLen.toNat, none, none⟩

/-- What is booted of a boot map: the kernel that its stage 3 loader names, with the initrd and the
parmfile that it names. -/
structure MapDescribed (t : Target) (os : Os) (disk : Disk) (boot : CfgBentry) (objects : BootObjects)
    (k : KexecCall) : Prop where
  kernel : k.kernel = sysloadFilenameKernel ∧ ∃ bytes, ComponentBytes t disk objects.kernel bytes ∧
    k.files sysloadFilenameKernel = some (kernelImage bytes)
  initrd : MapInitrd t disk objects k
  cmdline : ∃ cmdline extraCmdline, MapCmdline t disk objects cmdline ∧
    EntryCmdline os boot extraCmdline ∧ k.cmdline = cmdline ++ [' '] ++ extraCmdline

/-- **What `boot_bootmap_disk` boots.** -/
theorem objectsBooted_described {disk : Disk} {objects : BootObjects}
    (h : ObjectsBooted t os disk boot objects s k) : MapDescribed t os disk boot objects k := by
  obtain ⟨hwritable, hkernel, hinitrd, hmap, hconfig⟩ := h
  obtain ⟨hcmdline, hsame⟩ := hconfig.entryCmdline
  refine ⟨⟨rfl, _, hkernel, ?_⟩, ?_, _, _, hmap, hcmdline, rfl⟩
  · show Sys.files _ sysloadFilenameKernel = _
    rw [hsame _ (by decide)]
    cases hnull : blockptrIsNull t disk objects.initrd with
    | true =>
      obtain ⟨_, rfl⟩ := (initrdStep_none hnull).mp hinitrd
      exact Sys.put_files_self _ _ _
    | false =>
      rw [InitrdStep, if_neg (by simp [hnull])] at hinitrd
      obtain ⟨_, _, _, _, _, rfl⟩ := hinitrd
      rw [Sys.put_files, if_neg (by decide), Sys.put_files_self]
  · unfold MapInitrd
    cases hnull : blockptrIsNull t disk objects.initrd with
    | true =>
      rw [if_pos rfl]
      exact ((initrdStep_none hnull).mp hinitrd).1
    | false =>
      rw [InitrdStep, if_neg (by simp [hnull])] at hinitrd
      obtain ⟨rfl, _, bytes, hbytes, hok, rfl⟩ := hinitrd
      rw [if_neg Bool.false_ne_true]
      refine ⟨rfl, bytes, hbytes, ?_, ?_⟩
      · exact not_lt.mp fun hlong => hok (Or.inl hlong)
      · show Sys.files _ sysloadFilenameInitrd = _
        rw [hsame _ (by decide), Sys.put_files_self]

/-! ## `action_kernel_boot` again -/

/-- A file that is booted was loaded in the call that boots it. -/
def LoadedFrom (os : Os) (path : String) (uri : CStr) (k : KexecCall) : Prop :=
  ∃ data, Delivers os path uri data ∧ k.files path = some ⟨data, some k.call, none⟩

/-- What is booted of a kernel: the files at its URIs. -/
structure KernelDescribed (os : Os) (boot : CfgBentry) (k : KexecCall) : Prop where
  kernel : k.kernel = sysloadFilenameKernel ∧
    LoadedFrom os sysloadFilenameKernel (prefixRoot boot.root boot.kernel) k
  initrd : if boot.initrd = [] then k.initrd = ""
    else k.initrd = sysloadFilenameInitrd ∧
      LoadedFrom os sysloadFilenameInitrd (prefixRoot boot.root boot.initrd) k
  cmdline : EntryCmdline os boot k.cmdline

theorem kernelBoot_described (h : Boots (kernelBoot os boot) s k) : KernelDescribed os boot k := by
  obtain ⟨_, data, initrd, cmdline, s₁, s₂, hdelivers, hinitrd, hstep, rfl⟩ :=
    kernelBoot_boots_iff.mp h
  obtain ⟨hcmdline, hsame⟩ := hstep.entryCmdline
  have hkernel := hsame sysloadFilenameKernel (by decide)
  have hfile := hsame sysloadFilenameInitrd (by decide)
  by_cases hempty : boot.initrd = []
  · obtain ⟨rfl, rfl⟩ := (entryInitrd_none hempty).mp hinitrd
    refine ⟨⟨rfl, data, hdelivers, ?_⟩, if_pos hempty ▸ rfl, hcmdline⟩
    exact hkernel.trans (Sys.put_files_self _ _ _)
  · obtain ⟨rfl, initrdData, hinitrdDelivers, rfl⟩ := (entryInitrd_some hempty).mp hinitrd
    refine ⟨⟨rfl, data, hdelivers, ?_⟩, if_neg hempty ▸ ⟨rfl, initrdData, hinitrdDelivers, ?_⟩,
      hcmdline⟩
    · rw [Sys.put_files, if_neg (by decide), Sys.put_files_self] at hkernel
      exact hkernel
    · exact hfile.trans (Sys.put_files_self _ _ _)

/-! ## A call of the loader -/

/-- What is booted is what the boot entry asks for. -/
def Attempt.Described (t : Target) (a : Attempt) (k : KexecCall) : Prop :=
  match a.boot.action with
  | .kernelBoot => KernelDescribed a.os a.boot k
  | .insfileBoot => ∃ data uriPath, InsfileDelivered a.os a.boot data uriPath ∧
      InsfileDescribed a.os a.boot data uriPath k
  | .bootmapBoot => ∃ device program disk components objects,
      bootmapDevice a.boot.bootmap = .ok (device, program) ∧ a.os.attach device = .ok disk ∧
      ProgramOn t a.os disk program components ∧ ObjectsOf t a.os disk components objects ∧
      MapDescribed t a.os disk a.boot objects k
  | .reboot | .halt | .shell | .exit => False

/-- The disks that are attached, and the insfile, are as the callers have them. -/
structure Attempt.WellFormed (a : Attempt) : Prop where
  disk : ∀ device disk, a.os.attach device = .ok disk →
    disk.type.supported = true ∧ 512 ≤ disk.phyBlockSize
  insfile : a.boot.action = .insfileBoot → a.boot.insfile ≠ []

theorem cleanupBootFiles_atMostOnce {x : SysM Unit} (hx : AtMostOnce x) :
    AtMostOnce (cleanupBootFiles x) := by
  intro s r s' hrun
  obtain ⟨s₁, hx₁, rfl⟩ := Routine.runs_cleanup.mp hrun
  have hrest := hx s r s₁ hx₁
  split <;> exact hrest

theorem cleanupBootFiles_boots {x : SysM Unit} (h : Boots (cleanupBootFiles x) s k) :
    Boots x s k := by
  obtain ⟨r, s', hrun, hk⟩ := h
  obtain ⟨s₁, hx, hkexecs⟩ := cleanupBootFiles_kexecs hrun
  exact ⟨r, s₁, hx, hkexecs ▸ hk⟩

theorem bootAction_atMostOnce (boot : CfgBentry) : AtMostOnce (bootAction t os boot) := by
  unfold bootAction
  cases boot.action with
  | kernelBoot => exact cleanupBootFiles_atMostOnce (kernelBoot_atMostOnce boot)
  | insfileBoot => exact cleanupBootFiles_atMostOnce (insfileBoot_atMostOnce boot)
  | bootmapBoot =>
    dsimp only
    unfold actionBootmapBoot
    split
    · exact (noKexec_throw _).atMostOnce
    · split
      · exact (noKexec_throw _).atMostOnce
      · exact bootBootmapDisk_atMostOnce _ _ _
  | reboot | halt | shell | exit => exact (noKexec_throw _).atMostOnce

theorem bootAction_described {a : Attempt} (ha : a.WellFormed)
    (hs : a.boot.action = .insfileBoot → s.NoBootFiles)
    (h : Boots (bootAction t a.os a.boot) s k) : a.Described t k := by
  unfold bootAction at h
  unfold Attempt.Described
  cases haction : a.boot.action with
  | kernelBoot =>
    rw [haction] at h
    exact kernelBoot_described (cleanupBootFiles_boots h)
  | insfileBoot =>
    rw [haction] at h
    exact insfileBoot_described (ha.insfile haction) (hs haction) (cleanupBootFiles_boots h)
  | bootmapBoot =>
    rw [haction] at h
    dsimp only at h
    unfold actionBootmapBoot at h
    split at h
    · exact absurd h ((noKexec_throw _).not_boots _ _)
    · rename_i device program hdevice
      split at h
      · exact absurd h ((noKexec_throw _).not_boots _ _)
      · rename_i disk hattach
        obtain ⟨hsupported, hsize⟩ := ha.disk device disk hattach
        obtain ⟨components, objects, hprogram, hobjects, hbooted⟩ :=
          (bootBootmapDisk_boots_iff hsupported hsize).mp h
        exact ⟨device, program, disk, components, objects, hdevice, hattach, hprogram, hobjects,
          objectsBooted_described hbooted⟩
  | reboot | halt | shell | exit =>
    rw [haction] at h
    exact absurd h ((noKexec_throw _).not_boots _ _)

/-- **A call of the loader** calls `kexec` at most once, with what its boot entry asks for. -/
theorem loader_described {a : Attempt} (ha : a.WellFormed) {r : Except Stop Unit}
    (h : (loader t a.os a.boot).Runs s r s') : s'.call = s.call + 1 ∧
      (s'.kexecs = s.kexecs ∨ ∃ k, s'.kexecs = s.kexecs ++ [k] ∧ k.call = s'.call ∧
        ((a.boot.action = .insfileBoot → s.NoBootFiles) → a.Described t k)) := by
  have hrun := loader_runs.mp h
  obtain ⟨hcall, hsame | ⟨k, hk, hkexecs⟩⟩ := bootAction_atMostOnce _ _ _ _ hrun
  · exact ⟨hcall, Or.inl hsame⟩
  · refine ⟨hcall, Or.inr ⟨k, hkexecs, hk.trans hcall.symm, fun hs => ?_⟩⟩
    exact bootAction_described (s := { s with call := s.call + 1 }) ha hs ⟨r, s', hrun, hkexecs⟩

/-- **What the calls have booted** since `s₀`: each call of `kexec` belongs to one call of the loader,
which has no other, and is what the boot entry of that call asks for. For an insfile this is so where
no call before it has left the kernel of a boot map. -/
def BootsDescribed (t : Target) (s₀ : Sys) (as : List Attempt) (s : Sys) : Prop :=
  s.call = s₀.call + as.length ∧
    ∃ ks, s.kexecs = s₀.kexecs ++ ks ∧ ks.Pairwise (fun k k' => k.call < k'.call) ∧
      ∀ k ∈ ks, ∃ i a, as[i]? = some a ∧ k.call = s₀.call + i + 1 ∧
        ((a.boot.action = .insfileBoot → ∀ b ∈ as.take i, ¬ b.LeavesKernel t) → a.Described t k)

/-- One more call. -/
theorem BootsDescribed.step {s₀ : Sys} {as : List Attempt} {a : Attempt} {r : Except Stop Unit}
    (h : BootsDescribed t s₀ as s) (ha : a.WellFormed)
    (hs : (∀ b ∈ as, ¬ b.LeavesKernel t) → s.NoBootFiles)
    (hcall : (loader t a.os a.boot).Runs s r s') : BootsDescribed t s₀ (as ++ [a]) s' := by
  obtain ⟨hlen, ks, hkexecs, hsorted, hks⟩ := h
  obtain ⟨hcall', hloader⟩ := loader_described ha hcall
  have hlen' : s'.call = s₀.call + (as ++ [a]).length := by
    rw [hcall', hlen, List.length_append, List.length_singleton, Nat.add_assoc]
  have hks' : ∀ k ∈ ks, ∃ i a', (as ++ [a])[i]? = some a' ∧ k.call = s₀.call + i + 1 ∧
      ((a'.boot.action = .insfileBoot → ∀ b ∈ (as ++ [a]).take i, ¬ b.LeavesKernel t) →
        a'.Described t k) := by
    intro k hk
    obtain ⟨i, a', hi, hik, hdescribed⟩ := hks k hk
    have hlt := (List.getElem?_eq_some_iff.mp hi).1
    refine ⟨i, a', (List.getElem?_append_left hlt).trans hi, hik, ?_⟩
    rw [List.take_append_of_le_length (Nat.le_of_lt hlt)]
    exact hdescribed
  rcases hloader with hsame | ⟨k, hk, hkcall, hdescribed⟩
  · exact ⟨hlen', ks, hsame.trans hkexecs, hsorted, hks'⟩
  · refine ⟨hlen', ks ++ [k], by rw [hk, hkexecs, List.append_assoc], ?_, ?_⟩
    · refine List.pairwise_append.mpr ⟨hsorted, List.pairwise_singleton _ _, ?_⟩
      intro k₁ hk₁ k₂ hk₂
      obtain rfl := List.mem_singleton.mp hk₂
      obtain ⟨i, a', hi, hik, _⟩ := hks k₁ hk₁
      have hlt := (List.getElem?_eq_some_iff.mp hi).1
      omega
    · intro k' hk'
      rcases List.mem_append.mp hk' with hk' | hk'
      · exact hks' k' hk'
      · obtain rfl := List.mem_singleton.mp hk'
        refine ⟨as.length, a, by simp, by omega, fun hclean => hdescribed fun haction => hs ?_⟩
        rw [List.take_left] at hclean
        exact hclean haction

end Sysload
