import Sysload.Lib.Routine
import Sysload.Bootmap.Disk
import Sysload.Config

/-!
# The system around the loader

The boot methods of `loader()` work on local files under `/tmp` and end in a call of `kexec()`.
`Sys` is the state they share: the files, and the calls of `kexec()` so far. Each file remembers in
which `loader()` call its content was written by `comp_load` and in which it was renamed to its
present name, and each call of `kexec()` remembers the files it found; the C code has no such
records, and nothing here depends on them.

`Os` is how the rest of the system answers during one `loader()` call: which of the system calls
fail, what the loader modules deliver, and what becomes of the new kernel. No system call here is
made twice on one file at one length during a call, so functions of these are answers in general.

Out of scope are `systemv`, which runs one program, and files of other processes under the same
names.
-/

namespace Sysload

/-- `SYSLOAD_FILENAME_KERNEL`. -/
def sysloadFilenameKernel : String := "/tmp/kernel.img"

/-- `SYSLOAD_FILENAME_INITRD`. -/
def sysloadFilenameInitrd : String := "/tmp/initrd.img"

/-- `SYSLOAD_FILENAME_PARMFILE`. -/
def sysloadFilenameParmfile : String := "/tmp/parmfile.txt"

/-- `SYSLOAD_FILENAME_INSFILE`. -/
def sysloadFilenameInsfile : String := "/tmp/file.ins"

/-- The files that are booted. -/
def bootFiles : List String :=
  [sysloadFilenameKernel, sysloadFilenameInitrd, sysloadFilenameParmfile]

/-- A local file: its content, and the `loader()` calls in which `comp_load` wrote it and in which
it was renamed. -/
structure LocalFile where
  data : List Char
  loadedIn : Option Nat
  renamedIn : Option Nat
  deriving DecidableEq, Repr

/-- A call of `kexec()`: its arguments, the `loader()` call it was made in, and the files then. -/
structure KexecCall where
  kernel : String
  initrd : String
  cmdline : CStr
  call : Nat
  files : String → Option LocalFile

/-- The state of the system: local files, calls of `kexec()`, and the number of the running
`loader()` call. -/
structure Sys where
  files : String → Option LocalFile
  kexecs : List KexecCall
  call : Nat

/-- What a loader module does: it writes the local copy, or fails with a text on `stderr`, having
left something in the local copy or not. -/
inductive LoaderRun where
  | success (data : List Char)
  | failure (left : Option (List Char)) (stderr : CStr)

/-- A disk that is attached by `set_dasd_online` or `set_fcp_disk_online`. -/
inductive BootDevice where
  | dasd (busid : CStr)
  | fcp (busid wwpn lun : CStr)

/-- The answers of the system during one `loader()` call. An `Option String` is the error text of a
system call that fails, an `Option Int` the status of a command that returns; `attach` sets a device
online and opens it (`disk_open`), and `beyond` is what the memory behind a buffer holds. -/
structure Os where
  creat : String → Option String
  write : String → Nat → Option String
  close : String → Option String
  stat : String → Option String
  openRead : String → Option String
  read : String → Option String
  loaderModule : String → CStr → LoaderRun
  kexecLoad : Option Int
  kexecExecute : Option Int
  command : String → Int
  attach : BootDevice → Except String Bootmap.Disk
  beyond : Nat → UInt8

/-- The system on which every call succeeds, without disks. -/
def Os.willing : Os where
  creat _ := none
  write _ _ := none
  close _ := none
  stat _ := none
  openRead _ := none
  read _ := none
  loaderModule _ _ := .success []
  kexecLoad := none
  kexecExecute := none
  command _ := 0
  attach _ := .error "Error opening disk - No such file or directory"
  beyond _ := 0

/-- The state after the start: there are no files yet. -/
def Sys.boot : Sys := ⟨fun _ => none, [], 0⟩

/-- What the loader does: a computation on the state of the system. -/
abbrev SysM (α : Type) := Routine Sys Stop α

/-! ## Files -/

/-- Put a file, or none, under a path. -/
def Sys.put (s : Sys) (path : String) (file : Option LocalFile) : Sys :=
  { s with files := Function.update s.files path file }

@[simp] theorem Sys.put_kexecs (s : Sys) (path : String) (file : Option LocalFile) :
    (s.put path file).kexecs = s.kexecs := rfl

@[simp] theorem Sys.put_call (s : Sys) (path : String) (file : Option LocalFile) :
    (s.put path file).call = s.call := rfl

@[simp] theorem Sys.put_files (s : Sys) (path : String) (file : Option LocalFile) (p : String) :
    (s.put path file).files p = if p = path then file else s.files p :=
  Function.update_apply s.files path file p

/-- `unlink`. -/
def Sys.unlink (s : Sys) (path : String) : Sys := s.put path none

/-- `rename`: nothing happens if there is no file to rename. -/
def Sys.rename (s : Sys) (path newPath : String) : Sys :=
  match s.files path with
  | some file =>
    (s.put path none).put newPath (some { file with renamedIn := some s.call })
  | none => s

@[simp] theorem Sys.rename_call (s : Sys) (path newPath : String) :
    (s.rename path newPath).call = s.call := by
  unfold Sys.rename
  split <;> rfl

@[simp] theorem Sys.rename_kexecs (s : Sys) (path newPath : String) :
    (s.rename path newPath).kexecs = s.kexecs := by
  unfold Sys.rename
  split <;> rfl

/-- A file that was just written, and renamed. -/
theorem Sys.put_rename_files (s : Sys) (path : String) (file : LocalFile) (newPath p : String) :
    ((s.put path (some file)).rename path newPath).files p =
      if p = newPath then some { file with renamedIn := some s.call }
      else if p = path then none else s.files p := by
  unfold Sys.rename
  rw [Sys.put_files, if_pos rfl]
  by_cases h : p = path <;> simp [h]

/-- The three files that are booted, removed. -/
def Sys.unlinkBootFiles (s : Sys) : Sys :=
  ((s.unlink sysloadFilenameKernel).unlink sysloadFilenameInitrd).unlink sysloadFilenameParmfile

variable (os : Os)

/-- `creat`, with the error message of its caller. -/
def creat (path : String) (errmsg : String → String) : SysM Unit :=
  match os.creat path with
  | some e => throw (.errmsg (errmsg e))
  | none => modify fun s => s.put path (some ⟨[], none, none⟩)

/-- The file with `data` written behind its content. -/
def Sys.append (s : Sys) (path : String) (data : List Char) : Sys :=
  s.put path ((s.files path).map fun file => { file with data := file.data ++ data })

/-- The length of a file. -/
def Sys.fileSize (s : Sys) (path : String) : Nat := ((s.files path).map fun f => f.data.length).getD 0

/-- `write` all of `data`, or fail: then the file is removed and the error message returned. -/
def writeOrUnlink (path : String) (data : List Char) (errmsg : String → String) : SysM Unit := do
  let s ← get
  match os.write path (s.fileSize path) with
  | some e =>
    modify fun s => s.unlink path
    throw (.errmsg (errmsg e))
  | none => modify fun s => s.append path data

/-- `close` a file that was written, or fail: then the file is removed. -/
def closeOrUnlink (path : String) (errmsg : String → String) : SysM Unit :=
  match os.close path with
  | some e => do
    modify fun s => s.unlink path
    throw (.errmsg (errmsg e))
  | none => pure ()

/-! ## Without a call of `kexec` -/

/-- `x` comes to a value or an error message, and does not call `kexec`. -/
def Quiet {α : Type} (x : SysM α) : Prop :=
  ∀ s, ∃ r s', x.Runs s r s' ∧ (∀ e, r = .error e → ∃ msg, e = .errmsg msg) ∧
    s'.kexecs = s.kexecs

/-- `x` comes to an error message, and does not call `kexec`. -/
def QuietError {α : Type} (x : SysM α) : Prop :=
  ∀ s, ∃ msg s', x.Runs s (.error (.errmsg msg)) s' ∧ s'.kexecs = s.kexecs

variable {os}

theorem quiet_pure {α : Type} (a : α) : Quiet (pure a) :=
  fun s => ⟨.ok a, s, Routine.runs_pure.mpr ⟨rfl, rfl⟩, fun _ h => absurd h (by simp), rfl⟩

theorem Quiet.bind {α β : Type} {x : SysM α} {f : α → SysM β} (hx : Quiet x)
    (hf : ∀ a, Quiet (f a)) : Quiet (x >>= f) := by
  intro s
  obtain ⟨r, s₁, hr, herr, hk⟩ := hx s
  cases r with
  | error e =>
    obtain ⟨msg, rfl⟩ := herr e rfl
    refine ⟨.error (.errmsg msg), s₁, Routine.runs_bind.mpr (Or.inr ⟨_, hr, rfl⟩), ?_, hk⟩
    intro e he
    exact ⟨msg, (Except.error.inj he).symm⟩
  | ok a =>
    obtain ⟨r, s₂, hr₂, herr₂, hk₂⟩ := hf a s₁
    exact ⟨r, s₂, Routine.runs_bind.mpr (Or.inl ⟨a, s₁, hr, hr₂⟩), herr₂, hk₂.trans hk⟩

/-- What ends in an error message whatever came before does so after a quiet action. -/
theorem Quiet.bind_error {α β : Type} {x : SysM α} {f : α → SysM β} (hx : Quiet x)
    (hf : ∀ a, QuietError (f a)) : QuietError (x >>= f) := by
  intro s
  obtain ⟨r, s₁, hr, herr, hk⟩ := hx s
  cases r with
  | error e =>
    obtain ⟨msg, rfl⟩ := herr e rfl
    exact ⟨msg, s₁, Routine.runs_bind.mpr (Or.inr ⟨_, hr, rfl⟩), hk⟩
  | ok a =>
    obtain ⟨msg, s₂, hr₂, hk₂⟩ := hf a s₁
    exact ⟨msg, s₂, Routine.runs_bind.mpr (Or.inl ⟨a, s₁, hr, hr₂⟩), hk₂.trans hk⟩

theorem QuietError.bind {α β : Type} {x : SysM α} (hx : QuietError x) (f : α → SysM β) :
    QuietError (x >>= f) := by
  intro s
  obtain ⟨msg, s₁, hr, hk⟩ := hx s
  exact ⟨msg, s₁, Routine.runs_bind.mpr (Or.inr ⟨_, hr, rfl⟩), hk⟩

/-! ## What the file operations do -/

theorem creat_runs {path : String} {errmsg : String → String} {s s' : Sys} {r : Except Stop Unit}
    (h : (creat os path errmsg).Runs s r s') :
    (r = .ok () ∧ os.creat path = none ∧ s' = s.put path (some ⟨[], none, none⟩)) ∨
      ((∃ msg, r = .error (.errmsg msg)) ∧ s' = s) := by
  unfold creat at h
  split at h
  · obtain ⟨rfl, rfl⟩ := Routine.runs_throw.mp h
    exact Or.inr ⟨⟨_, rfl⟩, rfl⟩
  · rename_i hcreat
    obtain ⟨rfl, rfl⟩ := Routine.runs_modify.mp h
    exact Or.inl ⟨rfl, hcreat, rfl⟩

theorem creat_bind {α : Type} {path : String} {errmsg : String → String} {f : Unit → SysM α}
    {s s' : Sys} {r : Except Stop α} (h : (creat os path errmsg >>= f).Runs s r s') :
    (os.creat path = none ∧ (f ()).Runs (s.put path (some ⟨[], none, none⟩)) r s') ∨
      ((∃ msg, r = .error (.errmsg msg)) ∧ s' = s) := by
  rcases Routine.runs_bind.mp h with ⟨_, s₁, hx, hf⟩ | ⟨e, hx, rfl⟩
  · obtain ⟨_, hcreat, rfl⟩ | ⟨⟨_, hbad⟩, _⟩ := creat_runs hx
    · exact Or.inl ⟨hcreat, hf⟩
    · exact absurd hbad (by simp)
  · obtain ⟨hbad, _⟩ | ⟨⟨msg, he⟩, hs⟩ := creat_runs hx
    · exact absurd hbad (by simp)
    · exact Or.inr ⟨⟨msg, congrArg _ (Except.error.inj he)⟩, hs⟩

theorem writeOrUnlink_runs {path : String} {data : List Char} {errmsg : String → String}
    {s s' : Sys} {r : Except Stop Unit} (h : (writeOrUnlink os path data errmsg).Runs s r s') :
    (r = .ok () ∧ os.write path (s.fileSize path) = none ∧ s' = s.append path data) ∨
      ((∃ msg, r = .error (.errmsg msg)) ∧ s' = s.unlink path) := by
  unfold writeOrUnlink at h
  obtain ⟨s₁, _, hget, hrest⟩ | ⟨_, hbad, _⟩ := Routine.runs_bind.mp h
  · obtain ⟨heq, rfl⟩ := Routine.runs_get.mp hget
    obtain rfl := Except.ok.inj heq
    split at hrest
    · obtain ⟨_, _, hmod, hthrow⟩ | ⟨_, hbad, _⟩ := Routine.runs_bind.mp hrest
      · obtain ⟨_, rfl⟩ := Routine.runs_modify.mp hmod
        obtain ⟨rfl, rfl⟩ := Routine.runs_throw.mp hthrow
        exact Or.inr ⟨⟨_, rfl⟩, rfl⟩
      · exact absurd (Routine.runs_modify.mp hbad).1 (by simp)
    · rename_i hwrite
      obtain ⟨rfl, rfl⟩ := Routine.runs_modify.mp hrest
      exact Or.inl ⟨rfl, hwrite, rfl⟩
  · exact absurd (Routine.runs_get.mp hbad).1 (by simp)

theorem writeOrUnlink_bind {α : Type} {path : String} {data : List Char}
    {errmsg : String → String} {f : Unit → SysM α} {s s' : Sys} {r : Except Stop α}
    (h : (writeOrUnlink os path data errmsg >>= f).Runs s r s') :
    (os.write path (s.fileSize path) = none ∧ (f ()).Runs (s.append path data) r s') ∨
      ((∃ msg, r = .error (.errmsg msg)) ∧ s' = s.unlink path) := by
  rcases Routine.runs_bind.mp h with ⟨_, s₁, hx, hf⟩ | ⟨e, hx, rfl⟩
  · obtain ⟨_, hwrite, rfl⟩ | ⟨⟨_, hbad⟩, _⟩ := writeOrUnlink_runs hx
    · exact Or.inl ⟨hwrite, hf⟩
    · exact absurd hbad (by simp)
  · obtain ⟨hbad, _⟩ | ⟨⟨msg, he⟩, hs⟩ := writeOrUnlink_runs hx
    · exact absurd hbad (by simp)
    · exact Or.inr ⟨⟨msg, congrArg _ (Except.error.inj he)⟩, hs⟩

theorem closeOrUnlink_runs {path : String} {errmsg : String → String} {s s' : Sys}
    {r : Except Stop Unit} (h : (closeOrUnlink os path errmsg).Runs s r s') :
    (r = .ok () ∧ os.close path = none ∧ s' = s) ∨
      ((∃ msg, r = .error (.errmsg msg)) ∧ s' = s.unlink path) := by
  unfold closeOrUnlink at h
  split at h
  · obtain ⟨_, _, hmod, hthrow⟩ | ⟨_, hbad, _⟩ := Routine.runs_bind.mp h
    · obtain ⟨_, rfl⟩ := Routine.runs_modify.mp hmod
      obtain ⟨rfl, rfl⟩ := Routine.runs_throw.mp hthrow
      exact Or.inr ⟨⟨_, rfl⟩, rfl⟩
    · exact absurd (Routine.runs_modify.mp hbad).1 (by simp)
  · rename_i hclose
    obtain ⟨rfl, rfl⟩ := Routine.runs_pure.mp h
    exact Or.inl ⟨rfl, hclose, rfl⟩

theorem quiet_creat (path : String) (errmsg : String → String) : Quiet (creat os path errmsg) := by
  intro s
  unfold creat
  cases os.creat path with
  | none => exact ⟨.ok ⟨⟩, _, Routine.runs_modify.mpr ⟨rfl, rfl⟩, fun _ h => absurd h (by simp), rfl⟩
  | some e =>
    exact ⟨_, _, Routine.runs_throw.mpr ⟨rfl, rfl⟩,
      fun _ h => ⟨_, (Except.error.inj h).symm⟩, rfl⟩

theorem quiet_writeOrUnlink (path : String) (data : List Char) (errmsg : String → String) :
    Quiet (writeOrUnlink os path data errmsg) := by
  intro s
  unfold writeOrUnlink
  simp only [Routine.runs_bind, Routine.runs_get]
  cases hw : os.write path (s.fileSize path) with
  | none =>
    refine ⟨.ok ⟨⟩, s.append path data, Or.inl ⟨s, s, ⟨rfl, rfl⟩, ?_⟩,
      fun _ h => absurd h (by simp), rfl⟩
    simp [hw]
  | some e =>
    refine ⟨.error (.errmsg (errmsg e)), s.unlink path, Or.inl ⟨s, s, ⟨rfl, rfl⟩, ?_⟩,
      fun _ h => ⟨_, (Except.error.inj h).symm⟩, rfl⟩
    simp [hw, Routine.runs_bind]

end Sysload
