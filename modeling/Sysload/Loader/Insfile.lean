import Sysload.Loader.Command

/-!
# Booting from an insfile (`insfile.c`)

An insfile lists the components of a system, one per line, with the addresses they are loaded to.
`action_insfile_boot` copies each of them to a file of its own, lets `identify_file` vote what it
is, and renames it to the kernel, initrd or parmfile that is booted. What is booted in the end is
decided by the mere existence of these three files.

Source: `src/core/insfile.h`; `src/core/insfile.c`, `get_uri_path`, `identify_file` and
`action_insfile_boot`. Out of scope are a `rename` or an `unlink` that fails, and the debug output.

Results:
* `loadComponents_keeps`: the loop over the lines puts only files of the running call under the
  three names.
* `insfileBoot_kexecs`: if the three files were absent before, `kexec` finds files of the running
  call.
-/

namespace Sysload

/-! ## Lines of an insfile -/

/-- The pieces in which `fgets` delivers a file to a buffer with room for `room` more characters:
each ends behind a newline, or where the buffer is full. -/
def fgetsPieces : List Char → (room : Nat) → (piece : CStr) → List CStr
  | [], _, piece => if piece = [] then [] else [piece]
  | c :: cs, room, piece =>
    if c = '\n' ∨ room ≤ 1 then (piece ++ [c]) :: fgetsPieces cs (cfgStrMaxLen - 1) []
    else fgetsPieces cs (room - 1) (piece ++ [c])

/-- `isprint`. -/
def isPrintChar (c : Char) : Bool := 32 ≤ c.toNat && c.toNat ≤ 126

/-- The value of a hexadecimal digit. -/
def hexValue (c : Char) : Nat :=
  if c.isDigit then c.toNat - '0'.toNat
  else if c.isLower then c.toNat - 'a'.toNat + 10
  else c.toNat - 'A'.toNat + 10

/-- `isxdigit`. -/
def isHexDigit (c : Char) : Bool :=
  c.isDigit || ('a' ≤ c && c ≤ 'f') || ('A' ≤ c && c ≤ 'F')

/-- `%lx` of `scanf`, for a `long` of 64 bits: white space, a sign, `0x`, and digits. -/
def scanHex (text : CStr) : Option Nat :=
  let text := text.dropWhile isSpaceChar
  let (negative, text) := match text with
    | '-' :: rest => (true, rest)
    | '+' :: rest => (false, rest)
    | _ => (false, text)
  let text := match text with
    | '0' :: 'x' :: rest | '0' :: 'X' :: rest => '0' :: rest
    | _ => text
  let digits := text.takeWhile isHexDigit
  let value := digits.foldl (fun n c => 16 * n + hexValue c) 0
  if digits = [] then none
  else if 2 ^ 64 ≤ value then some (2 ^ 64 - 1)
  else some (if negative then (2 ^ 64 - value) % 2 ^ 64 else value)

/-- `sscanf(input, "%s %lx", input_name, &addr)`: what is not scanned keeps its old value. -/
def scanLine (input : CStr) (inputName : CStr) (addr : Nat) : CStr × Nat :=
  let text := (cstr input).dropWhile isSpaceChar
  let name := text.takeWhile fun c => !isSpaceChar c
  if name = [] then (inputName, addr)
  else (name, (scanHex (text.drop name.length)).getD addr)

/-- `get_uri_path`: everything up to the last slash, or all of a URI without one. -/
def getUriPath (uri : CStr) : CStr :=
  if '/' ∈ uri then (uri.reverse.dropWhile fun c => c != '/').reverse else uri

/-! ## Identification of a file -/

/-- `enum ins_component_type`, without the end mark. -/
inductive InsComponentType where
  | kernel
  | initrd
  | parmfile
  | initrdsize
  | other
  deriving DecidableEq, Repr

/-- The votes of `identify_file`. -/
def votes (data : List Char) (addr : Nat) : InsComponentType → Nat
  | .kernel => (512 * 1024 < data.length : Bool).toNat + (addr == 0 : Bool).toNat
  | .initrd =>
    (512 * 1024 < data.length : Bool).toNat +
      (512 * 1024 < data.length && data.take 2 == [Char.ofNat 0x1f, Char.ofNat 0x8b] : Bool).toNat +
      (addr == 0x800000 : Bool).toNat
  | .parmfile =>
    (data.length ≤ sysloadMaxKernelCmdline : Bool).toNat +
      (data.length ≤ sysloadMaxKernelCmdline && data.all isPrintChar : Bool).toNat +
      (addr == 0x10480 : Bool).toNat
  | .initrdsize => (data.length == 4 : Bool).toNat + (addr == 0x10414 : Bool).toNat
  | .other => 0

/-- The first type with the highest number of votes. -/
def mostProbable (votes : InsComponentType → Nat) : InsComponentType :=
  ([.kernel, .initrd, .parmfile, .initrdsize].foldl
    (fun (best : Nat × InsComponentType) type =>
      if best.1 < votes type then (votes type, type) else best) (0, .other)).2

variable (os : Os)

/-- `identify_file`. The file is opened if it is big, or small enough for a parmfile. -/
def identifyFile (s : Sys) (name : String) (addr : Nat) : InsComponentType :=
  match s.files name, os.stat name with
  | none, _ => .other
  | _, some _ => .other
  | some file, none =>
    let opened := 512 * 1024 < file.data.length ∨ file.data.length ≤ sysloadMaxKernelCmdline
    if opened ∧ (os.openRead name).isSome then .other
    else mostProbable (votes file.data addr)

/-! ## The loop over the lines -/

/-- A text that is printed with `%s`: a `NULL` pointer is printed as `(null)`. -/
def printed (text : Option CStr) : CStr := text.getD "(null)".toList

/-- The local copy of the component in a line of the insfile. -/
def localName (linecount : Nat) : String := "/tmp/file_" ++ toString linecount

/-- The file referenced by a line is copied, identified, and renamed or removed. -/
def loadComponent (uriPath : CStr) (linecount : Nat) (filename : CStr) (addr : Nat) :
    SysM Unit := do
  match ← compLoad os (localName linecount) (prefixRoot uriPath filename) with
  | .error tmpMsg =>
    throw (.errmsg ("Error loading insfile component '" ++ String.ofList filename ++ "' - " ++
      String.ofList (printed tmpMsg)))
  | .ok () =>
    let s ← get
    match identifyFile os s (localName linecount) addr with
    | .kernel => modify fun s => s.rename (localName linecount) sysloadFilenameKernel
    | .initrd => modify fun s => s.rename (localName linecount) sysloadFilenameInitrd
    | .parmfile => modify fun s => s.rename (localName linecount) sysloadFilenameParmfile
    | .initrdsize | .other => modify fun s => s.unlink (localName linecount)

/-- The while loop of `action_insfile_boot`, over the pieces that `fgets` delivers. A line without
a name loads the file of the line before again. -/
def loadComponents (uriPath : CStr) :
    List CStr → (linecount : Nat) → (inputName : CStr) → (addr : Nat) → SysM Unit
  | [], _, _, _ => pure ()
  | input :: rest, linecount, inputName, addr =>
    if input.head? = some '*' then loadComponents uriPath rest linecount inputName addr
    else do
      let (name, addr) := scanLine input inputName addr
      if name ≠ [] then loadComponent os uriPath (linecount + 1) name addr
      loadComponents uriPath rest (linecount + 1) name addr

/-! ## The boot method -/

/-- The insfile is copied to the local file system: its path, `NULL` if there is no insfile. -/
def loadInsfile (boot : CfgBentry) : SysM (Option CStr) :=
  if boot.insfile ≠ [] then do
    let tmpUri := prefixRoot boot.root boot.insfile
    match ← compLoad os sysloadFilenameInsfile tmpUri with
    | .error tmpMsg =>
      throw (.errmsg ("Error loading insfile '" ++ String.ofList tmpUri ++ "' - " ++
        String.ofList (printed tmpMsg)))
    | .ok () => pure (some (getUriPath tmpUri))
  else pure none

/-- The three files that are booted exist. -/
def Sys.hasBootFiles (s : Sys) : Bool :=
  (s.files sysloadFilenameKernel).isSome && (s.files sysloadFilenameInitrd).isSome &&
    (s.files sysloadFilenameParmfile).isSome

/-- The first half of `action_insfile_boot`: the components of the insfile are loaded. -/
def loadInsfileComponents (boot : CfgBentry) : SysM Unit := do
  let uriPath ← loadInsfile os boot
  let s ← get
  match s.files sysloadFilenameInsfile, os.openRead sysloadFilenameInsfile with
  | some insfile, none =>
    loadComponents os (printed uriPath) (fgetsPieces insfile.data (cfgStrMaxLen - 1) []) 0 [] 0
  | _, _ => throw (.errmsg ("Unable to open insfile - " ++ sysloadFilenameInsfile ++ "\n"))
  modify fun s => s.unlink sysloadFilenameInsfile

/-- `action_insfile_boot` up to its label `cleanup`. -/
def insfileBoot (boot : CfgBentry) : SysM Unit := do
  loadInsfileComponents os boot
  let s ← get
  -- if all required files exist
  if s.hasBootFiles then
    let cmdline ← composeCommandline os sysloadFilenameParmfile boot.cmdline
    kexec os sysloadFilenameKernel sysloadFilenameInitrd cmdline
  else throw (.errmsg "")

/-- The label `cleanup` of `action_kernel_boot` and `action_insfile_boot`: a function that returns
with an error message removes the three files. -/
def cleanupBootFiles (x : SysM Unit) : SysM Unit :=
  Routine.cleanup x fun r s => match r with
    | .error (.errmsg _) => s.unlinkBootFiles
    | _ => s

/-- `action_insfile_boot`. -/
def actionInsfileBoot (boot : CfgBentry) : SysM Unit := cleanupBootFiles (insfileBoot os boot)

/-! ## Which files are booted -/

/-- The file was written by `comp_load` and renamed during this `loader()` call. -/
def LocalFile.OfCall (file : LocalFile) (call : Nat) : Prop :=
  file.loadedIn = some call ∧ file.renamedIn = some call

/-- Whatever is found under the names that are booted is of this `loader()` call. -/
def BootFilesOf (call : Nat) (files : String → Option LocalFile) : Prop :=
  ∀ path ∈ bootFiles, ∀ file, files path = some file → file.OfCall call

/-- None of the files that are booted exists. -/
def Sys.NoBootFiles (s : Sys) : Prop := ∀ path ∈ bootFiles, s.files path = none

/-- `kexec` was called with a kernel, an initrd and a parmfile of its own `loader()` call. -/
def KexecCall.Fresh (k : KexecCall) : Prop :=
  ∀ path ∈ bootFiles, ∃ file, k.files path = some file ∧ file.OfCall k.call

/-- What holds while the components of an insfile are loaded: no `kexec` was called, and the files
that are booted, as far as they exist, are of the running call. -/
structure Loading (kexecs : List KexecCall) (call : Nat) (s : Sys) : Prop where
  kexecs_eq : s.kexecs = kexecs
  call_eq : s.call = call
  files : BootFilesOf call s.files

variable {os} {kexecs : List KexecCall} {call : Nat}

theorem hasBootFiles_isSome {s : Sys} (h : s.hasBootFiles = true) :
    ∀ path ∈ bootFiles, (s.files path).isSome = true := by
  unfold Sys.hasBootFiles at h
  simpa [bootFiles, and_assoc] using h

theorem unlinkBootFiles_noBootFiles (s : Sys) : s.unlinkBootFiles.NoBootFiles := by
  intro path hpath
  simp only [bootFiles, List.mem_cons, List.not_mem_nil, or_false] at hpath
  unfold Sys.unlinkBootFiles Sys.unlink
  rcases hpath with rfl | rfl | rfl <;> simp

theorem localName_notMem (linecount : Nat) : localName linecount ∉ bootFiles := by
  intro hmem
  have hchar : ∀ path ∈ bootFiles, path.toList[5]? ≠ some 'f' := by decide
  refine hchar _ hmem ?_
  rw [localName, String.toList_append]
  exact List.getElem?_append_left (by decide)

theorem insfile_notMem : sysloadFilenameInsfile ∉ bootFiles := by decide

/-- The file that is booted for a type. -/
def bootName : InsComponentType → Option String
  | .kernel => some sysloadFilenameKernel
  | .initrd => some sysloadFilenameInitrd
  | .parmfile => some sysloadFilenameParmfile
  | .initrdsize | .other => none

theorem bootName_mem {t : InsComponentType} {name : String} (h : bootName t = some name) :
    name ∈ bootFiles := by
  cases t <;> cases h <;> decide

theorem bootName_inj {t u : InsComponentType} {name : String} (ht : bootName t = some name)
    (hu : bootName u = some name) : t = u := by
  cases t <;> cases ht <;> cases u <;> first | rfl | exact absurd hu (by decide)

/-- A file that is not booted may change. -/
theorem Loading.put {s : Sys} (h : Loading kexecs call s) {path : String} (hpath : path ∉ bootFiles)
    (file : Option LocalFile) : Loading kexecs call (s.put path file) := by
  refine ⟨h.kexecs_eq, h.call_eq, fun p hp f hf => ?_⟩
  rw [Sys.put_files, if_neg (by rintro rfl; exact hpath hp)] at hf
  exact h.files p hp f hf

/-- A file that was just loaded may be renamed to one that is booted. -/
theorem Loading.rename {s : Sys} (h : Loading kexecs call s) {path newPath : String}
    (hpath : path ∉ bootFiles) {data : List Char} {renamed : Option Nat}
    (hfile : s.files path = some ⟨data, some call, renamed⟩) :
    Loading kexecs call (s.rename path newPath) := by
  unfold Sys.rename
  rw [hfile]
  have hput := h.put hpath none
  refine ⟨hput.kexecs_eq, hput.call_eq, fun p hp f hf => ?_⟩
  rw [Sys.put_files] at hf
  split at hf
  · cases hf
    exact ⟨rfl, congrArg some h.call_eq⟩
  · exact hput.files p hp f hf

theorem compLoad_loading {dest : String} (hdest : dest ∉ bootFiles) {uri : CStr} {s s' : Sys}
    {r : Except Stop (Except (Option CStr) Unit)} (h : (compLoad os dest uri).Runs s r s')
    (hs : Loading kexecs call s) : Loading kexecs call s' := by
  obtain ⟨_, data, rfl⟩ | ⟨_, _, rfl | ⟨data, rfl⟩⟩ := compLoad_runs os h
  · exact hs.put hdest _
  · exact hs
  · exact hs.put hdest _

/-- A component that is loaded becomes a file of the running call. -/
theorem loadComponent_keeps (uriPath : CStr) (linecount : Nat) (filename : CStr) (addr : Nat) :
    Routine.Keeps (Loading kexecs call) (loadComponent os uriPath linecount filename addr) := by
  have hlocal := localName_notMem linecount
  intro s r s' hs hr
  unfold loadComponent at hr
  rcases Routine.runs_bind.mp hr with ⟨result, s₁, hload, hrest⟩ | ⟨_, hload, _⟩
  · have hs₁ := compLoad_loading hlocal hload hs
    cases result with
    | error tmpMsg => exact Routine.keeps_throw _ s₁ r s' hs₁ hrest
    | ok u =>
      obtain ⟨_, data, rfl⟩ | ⟨_, hbad, _⟩ := compLoad_runs os hload
      · obtain ⟨s₂, _, hget, hmod⟩ | ⟨_, hbad, _⟩ := Routine.runs_bind.mp hrest
        · obtain ⟨heq, rfl⟩ := Routine.runs_get.mp hget
          obtain rfl := Except.ok.inj heq
          have hfile : (s.put (localName linecount) (some ⟨data, some s.call, none⟩)).files
              (localName linecount) = some ⟨data, some call, none⟩ := by
            rw [Sys.put_files, if_pos rfl, hs.call_eq]
          split at hmod <;> obtain ⟨_, rfl⟩ := Routine.runs_modify.mp hmod
          · exact hs₁.rename hlocal hfile
          · exact hs₁.rename hlocal hfile
          · exact hs₁.rename hlocal hfile
          · exact hs₁.put hlocal none
          · exact hs₁.put hlocal none
        · exact absurd (Routine.runs_get.mp hbad).1 (by simp)
      · exact absurd (Except.ok.inj hbad) (by simp)
  · exact compLoad_loading hlocal hload hs

/-- **The loop over the lines** puts only files of the running call under the names that are
booted. -/
theorem loadComponents_keeps (uriPath : CStr) :
    ∀ (pieces : List CStr) (linecount : Nat) (inputName : CStr) (addr : Nat),
      Routine.Keeps (Loading kexecs call)
        (loadComponents os uriPath pieces linecount inputName addr)
  | [], _, _, _ => Routine.keeps_pure _
  | input :: rest, linecount, inputName, addr => by
    unfold loadComponents
    split
    · exact loadComponents_keeps uriPath rest linecount inputName addr
    · dsimp only
      split
      · exact (loadComponent_keeps _ _ _ _).bind fun _ => loadComponents_keeps uriPath rest _ _ _
      · exact loadComponents_keeps uriPath rest _ _ _

theorem loadInsfile_keeps (boot : CfgBentry) :
    Routine.Keeps (Loading kexecs call) (loadInsfile os boot) := by
  unfold loadInsfile
  split
  · refine Routine.Keeps.bind (fun s r s' hs hr => compLoad_loading insfile_notMem hr hs) ?_
    rintro (tmpMsg | u)
    · exact Routine.keeps_throw _
    · exact Routine.keeps_pure _
  · exact Routine.keeps_pure _

theorem loadInsfileComponents_keeps (boot : CfgBentry) :
    Routine.Keeps (Loading kexecs call) (loadInsfileComponents os boot) := by
  refine (loadInsfile_keeps boot).bind fun uriPath => Routine.keeps_get.bind fun s => ?_
  have hunlink : Routine.Keeps (Loading kexecs call)
      (modify fun s => s.unlink sysloadFilenameInsfile : SysM Unit) :=
    Routine.keeps_modify fun s hs => hs.put insfile_notMem none
  split
  · exact (loadComponents_keeps _ _ _ _ _).bind fun _ => hunlink
  · exact (Routine.keeps_throw _).bind fun _ => hunlink

/-- **What an insfile boots is of the running call**, if the files that are booted did not exist
before. -/
theorem insfileBoot_kexecs {boot : CfgBentry} {s s' : Sys} {r : Except Stop Unit}
    (hs : s.NoBootFiles) (h : (insfileBoot os boot).Runs s r s') :
    s'.kexecs = s.kexecs ∨ ∃ k : KexecCall, s'.kexecs = s.kexecs ++ [k] ∧ k.Fresh := by
  have hstart : Loading s.kexecs s.call s :=
    ⟨rfl, rfl, fun path hpath file hfile => absurd ((hs path hpath).symm.trans hfile) (by simp)⟩
  rcases Routine.runs_bind.mp h with ⟨_, s₁, hload, hrest⟩ | ⟨_, hload, _⟩
  · have hs₁ := loadInsfileComponents_keeps boot s _ s₁ hstart hload
    obtain ⟨s₂, _, hget, hboot⟩ | ⟨_, hbad, _⟩ := Routine.runs_bind.mp hrest
    · obtain ⟨heq, rfl⟩ := Routine.runs_get.mp hget
      obtain rfl := Except.ok.inj heq
      split at hboot
      · rename_i hfiles
        rcases Routine.runs_bind.mp hboot with ⟨cmdline, s₂, hcompose, hkexec⟩ | ⟨_, hcompose, _⟩
        · obtain rfl := composeCommandline_runs os hcompose
          rw [kexec_runs os hkexec]
          refine Or.inr ⟨_, congrArg (· ++ [_]) hs₁.kexecs_eq, fun path hpath => ?_⟩
          obtain ⟨file, hfile⟩ := Option.isSome_iff_exists.mp (hasBootFiles_isSome hfiles path hpath)
          exact ⟨file, hfile, hs₁.call_eq ▸ hs₁.files path hpath file hfile⟩
        · obtain rfl := composeCommandline_runs os hcompose
          exact Or.inl hs₁.kexecs_eq
      · obtain ⟨_, rfl⟩ := Routine.runs_throw.mp hboot
        exact Or.inl hs₁.kexecs_eq
    · exact absurd (Routine.runs_get.mp hbad).1 (by simp)
  · exact Or.inl (loadInsfileComponents_keeps boot s _ s' hstart hload).kexecs_eq

/-! ## Loading one component -/

/-- A file that is neither small nor big is what its address says. -/
theorem votes_middle {data : List Char} (hsmall : 4096 < data.length)
    (hbig : data.length ≤ 512 * 1024) (addr : Nat) : mostProbable (votes data addr) =
      if addr = 0 then .kernel else if addr = 0x800000 then .initrd
      else if addr = 0x10480 then .parmfile else if addr = 0x10414 then .initrdsize else .other := by
  have h₁ : ¬ 512 * 1024 < data.length := by omega
  have h₂ : ¬ data.length ≤ sysloadMaxKernelCmdline := by
    unfold sysloadMaxKernelCmdline
    omega
  have h₃ : (data.length == 4) = false := by
    rw [beq_eq_false_iff_ne]
    omega
  simp only [mostProbable, votes, h₁, h₂, h₃, decide_false, Bool.false_and, List.foldl_cons,
    List.foldl_nil, Bool.toNat_false, Nat.zero_add]
  by_cases hkernel : addr = 0
  · subst hkernel
    rfl
  by_cases hinitrd : addr = 0x800000
  · subst hinitrd
    rfl
  by_cases hparmfile : addr = 0x10480
  · subst hparmfile
    rfl
  by_cases hsize : addr = 0x10414
  · subst hsize
    rfl
  rw [beq_eq_false_iff_ne.mpr hkernel, beq_eq_false_iff_ne.mpr hinitrd,
    beq_eq_false_iff_ne.mpr hparmfile, beq_eq_false_iff_ne.mpr hsize, if_neg hkernel, if_neg hinitrd,
    if_neg hparmfile, if_neg hsize]
  rfl

/-- What is left of a component that becomes a file that is booted: its local copy is renamed. -/
def Sys.leave (s : Sys) (linecount : Nat) (data : List Char) (newPath : String) : Sys :=
  (s.put (localName linecount) (some ⟨data, some s.call, none⟩)).rename (localName linecount) newPath

@[simp] theorem Sys.leave_call (s : Sys) (linecount : Nat) (data : List Char) (newPath : String) :
    (s.leave linecount data newPath).call = s.call := by
  rw [Sys.leave, Sys.rename_call, Sys.put_call]

@[simp] theorem Sys.leave_kexecs (s : Sys) (linecount : Nat) (data : List Char) (newPath : String) :
    (s.leave linecount data newPath).kexecs = s.kexecs := by
  rw [Sys.leave, Sys.rename_kexecs, Sys.put_kexecs]

theorem Sys.leave_files (s : Sys) (linecount : Nat) (data : List Char) (newPath : String)
    {path : String} (hpath : path ∈ bootFiles) :
    (s.leave linecount data newPath).files path =
      if path = newPath then some ⟨data, some s.call, some s.call⟩ else s.files path := by
  have hlocal : path ≠ localName linecount := fun h => localName_notMem linecount (h ▸ hpath)
  rw [Sys.leave, Sys.put_rename_files, if_neg hlocal]

/-- A component that is loaded and identified is renamed. -/
theorem loadComponent_renames {uriPath filename : CStr} {linecount addr : Nat} {data : List Char}
    {newPath : String} (s : Sys) (hscheme : verifyUriScheme (prefixRoot uriPath filename) = true)
    (hmodule : os.loaderModule (localName linecount) (prefixRoot uriPath filename) = .success data)
    (hstat : os.stat (localName linecount) = none)
    (hopen : os.openRead (localName linecount) = none)
    (htype : bootName (mostProbable (votes data addr)) = some newPath) :
    (loadComponent os uriPath linecount filename addr).Runs s (.ok ())
      (s.leave linecount data newPath) := by
  have hidentify : identifyFile os (s.put (localName linecount) (some ⟨data, some s.call, none⟩))
      (localName linecount) addr = mostProbable (votes data addr) := by
    simp [identifyFile, hstat, hopen]
  unfold loadComponent
  refine Routine.runs_bind.mpr (Or.inl ⟨_, _, compLoad_success os s hscheme hmodule, ?_⟩)
  refine Routine.runs_bind.mpr (Or.inl ⟨_, _, Routine.runs_get.mpr ⟨rfl, rfl⟩, ?_⟩)
  rw [hidentify]
  cases hkind : mostProbable (votes data addr) <;> rw [hkind] at htype <;> cases htype <;>
    exact Routine.runs_modify.mpr ⟨rfl, rfl⟩

/-! ## A run of the boot method -/

/-- A line with a name loads its file. -/
theorem loadComponents_line {uriPath input inputName name : CStr} {rest : List CStr}
    {linecount addr addr' : Nat} {s s₁ s' : Sys} {r : Except Stop Unit}
    (hhead : input.head? ≠ some '*') (hscan : scanLine input inputName addr = (name, addr'))
    (hname : name ≠ [])
    (hload : (loadComponent os uriPath (linecount + 1) name addr').Runs s (.ok ()) s₁)
    (hrest : (loadComponents os uriPath rest (linecount + 1) name addr').Runs s₁ r s') :
    (loadComponents os uriPath (input :: rest) linecount inputName addr).Runs s r s' := by
  rw [loadComponents, if_neg hhead, hscan]
  dsimp only
  rw [if_pos hname]
  exact (Routine.runs_bind_of_ok hload).mpr hrest

/-- The loop runs behind the copy of the insfile, which is removed. -/
theorem loadInsfileComponents_runs {boot : CfgBentry} {insfile : List Char} {s s₁ : Sys}
    (hinsfile : boot.insfile ≠ [])
    (hscheme : verifyUriScheme (prefixRoot boot.root boot.insfile) = true)
    (hmodule : os.loaderModule sysloadFilenameInsfile (prefixRoot boot.root boot.insfile) =
      .success insfile)
    (hopen : os.openRead sysloadFilenameInsfile = none)
    (hloop : (loadComponents os (getUriPath (prefixRoot boot.root boot.insfile))
      (fgetsPieces insfile (cfgStrMaxLen - 1) []) 0 [] 0).Runs
      (s.put sysloadFilenameInsfile (some ⟨insfile, some s.call, none⟩)) (.ok ()) s₁) :
    (loadInsfileComponents os boot).Runs s (.ok ()) (s₁.unlink sysloadFilenameInsfile) := by
  have hcopy : (loadInsfile os boot).Runs s
      (.ok (some (getUriPath (prefixRoot boot.root boot.insfile))))
      (s.put sysloadFilenameInsfile (some ⟨insfile, some s.call, none⟩)) := by
    rw [loadInsfile, if_pos hinsfile]
    exact (Routine.runs_bind_of_ok (compLoad_success os s hscheme hmodule)).mpr
      (Routine.runs_pure.mpr ⟨rfl, rfl⟩)
  refine (Routine.runs_bind_of_ok hcopy).mpr (Routine.runs_get_bind.mpr ?_)
  rw [Sys.put_files, if_pos rfl, hopen]
  exact (Routine.runs_bind_of_ok hloop).mpr (Routine.runs_modify.mpr ⟨rfl, rfl⟩)

/-- Where the three files are there, `kexec` is called. -/
theorem insfileBoot_runs {boot : CfgBentry} {cmdline : CStr} {s s₁ s' : Sys} {r : Except Stop Unit}
    (hload : (loadInsfileComponents os boot).Runs s (.ok ()) s₁) (hall : s₁.hasBootFiles = true)
    (hcompose : (composeCommandline os sysloadFilenameParmfile boot.cmdline).Runs s₁ (.ok cmdline) s₁)
    (hkexec : (kexec os sysloadFilenameKernel sysloadFilenameInitrd cmdline).Runs s₁ r s') :
    (insfileBoot os boot).Runs s r s' := by
  refine (Routine.runs_bind_of_ok hload).mpr (Routine.runs_get_bind.mpr ?_)
  rw [if_pos hall]
  exact (Routine.runs_bind_of_ok hcompose).mpr hkexec

theorem cleanupBootFiles_errmsg {x : SysM Unit} {s s' : Sys} {msg : String}
    (h : x.Runs s (.error (.errmsg msg)) s') :
    (cleanupBootFiles x).Runs s (.error (.errmsg msg)) s'.unlinkBootFiles :=
  Routine.runs_cleanup.mpr ⟨s', h, rfl⟩

theorem cleanupBootFiles_booted {x : SysM Unit} {s s' : Sys}
    (h : x.Runs s (.error .booted) s') : (cleanupBootFiles x).Runs s (.error .booted) s' :=
  Routine.runs_cleanup.mpr ⟨s', h, rfl⟩

end Sysload
