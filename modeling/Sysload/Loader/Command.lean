import Sysload.Loader.System

/-!
# Loading components and calling kexec (`loader.c`, `comp_load.c`)

`prefix_root`, `verify_uri_scheme`, `comp_load`, `compose_commandline` and `kexec`, the steps that
the boot methods share.

Source: `src/core/loader.c`, `prefix_root`, `compose_commandline` and `kexec`;
`src/core/comp_load.c`, `verify_uri_scheme` and `comp_load`. Out of scope are the pipes to the
loader module, which are in `Collect.lean`, and the debug output.
-/

namespace Sysload

/-- The single quote. -/
def singleQuote : Char := Char.ofNat 39

/-- A character of a URI scheme behind the first. -/
def isSchemeChar (c : Char) : Bool :=
  c.isLower || c.isUpper || c.isDigit || c == '+' || c == '-' || c == '.'

/-- `verify_uri_scheme`: `true` for the return value 0. A scheme is a letter and scheme characters
up to the first colon. -/
def verifyUriScheme (uri : CStr) : Bool :=
  match uri.span fun c => c != ':' with
  | (c :: scheme, _ :: _) => (c.isLower || c.isUpper) && scheme.all isSchemeChar
  | _ => false

/-- `prefix_root`. It repeats the tests of `verify_uri_scheme`. -/
def prefixRoot (root uri : CStr) : CStr :=
  if uri.length = 0 then []
  else if 1 < uri.length ∧ uri.head? = some singleQuote ∧ uri.getLast? = some singleQuote then
    (root ++ uri.tail).dropLast
  else if verifyUriScheme uri then uri
  else root ++ uri

variable (os : Os)

/-- `comp_load`: `ok` for the return value 0, else the string it has assigned to `*errmsg`, if
any. -/
def compLoad (dest : String) (uri : CStr) : SysM (Except (Option CStr) Unit) :=
  if verifyUriScheme uri then
    match os.loaderModule dest uri with
    | .success data => do
      modify fun s => s.put dest (some ⟨data, some s.call, none⟩)
      pure (.ok ())
    | .failure left stderr => do
      modify fun s => match left with
        | some data => s.put dest (some ⟨data, none, none⟩)
        | none => s
      pure (.error (if stderr = [] then none else some stderr))
  else pure (.error (some "Invalid URI scheme.".toList))

/-- **What a loader module leaves**: the local copy, or after a failure the old state or some part of
a copy. -/
theorem compLoad_runs {dest : String} {uri : CStr} {s s' : Sys}
    {r : Except Stop (Except (Option CStr) Unit)} (h : (compLoad os dest uri).Runs s r s') :
    (r = .ok (.ok ()) ∧ ∃ data, s' = s.put dest (some ⟨data, some s.call, none⟩)) ∨
      ∃ errmsg, r = .ok (.error errmsg) ∧
        (s' = s ∨ ∃ data, s' = s.put dest (some ⟨data, none, none⟩)) := by
  unfold compLoad at h
  split at h
  · split at h
    · rename_i data _
      simp only [Routine.runs_bind, Routine.runs_modify, Routine.runs_pure] at h
      obtain ⟨_, _, ⟨_, rfl⟩, rfl, rfl⟩ | ⟨_, ⟨hbad, _⟩, _⟩ := h
      · exact Or.inl ⟨rfl, data, rfl⟩
      · exact absurd hbad (by simp)
    · rename_i left stderr _
      simp only [Routine.runs_bind, Routine.runs_modify, Routine.runs_pure] at h
      obtain ⟨_, _, ⟨_, rfl⟩, rfl, rfl⟩ | ⟨_, ⟨hbad, _⟩, _⟩ := h
      · cases left with
        | none => exact Or.inr ⟨_, rfl, Or.inl rfl⟩
        | some data => exact Or.inr ⟨_, rfl, Or.inr ⟨data, rfl⟩⟩
      · exact absurd hbad (by simp)
  · obtain ⟨rfl, rfl⟩ := Routine.runs_pure.mp h
    exact Or.inr ⟨_, rfl, Or.inl rfl⟩

theorem compLoad_success {dest : String} {uri : CStr} {data : List Char} (s : Sys)
    (hscheme : verifyUriScheme uri = true) (hmodule : os.loaderModule dest uri = .success data) :
    (compLoad os dest uri).Runs s (.ok (.ok ())) (s.put dest (some ⟨data, some s.call, none⟩)) := by
  rw [compLoad, if_pos hscheme, hmodule]
  exact Routine.runs_modify_bind.mpr (Routine.runs_pure.mpr ⟨rfl, rfl⟩)

/-- `comp_load` returns. -/
theorem compLoad_total (dest : String) (uri : CStr) (s : Sys) :
    ∃ r s', (compLoad os dest uri).Runs s (.ok r) s' := by
  unfold compLoad
  split
  · split
    · exact ⟨_, _, Routine.runs_modify_bind.mpr (Routine.runs_pure.mpr ⟨rfl, rfl⟩)⟩
    · exact ⟨_, _, Routine.runs_modify_bind.mpr (Routine.runs_pure.mpr ⟨rfl, rfl⟩)⟩
  · exact ⟨_, _, Routine.runs_pure.mpr ⟨rfl, rfl⟩⟩

/-- `SYSLOAD_MAX_KERNEL_CMDLINE`. -/
def sysloadMaxKernelCmdline : Nat := 4096

/-- `compose_commandline`. The content of the file ends at its first NUL for `cfg_strcat`. An empty
file is not read. -/
def composeCommandline (parmfile : String) (cmdline : CStr) : SysM CStr := do
  let s ← get
  match s.files parmfile, os.stat parmfile with
  | none, _ => throw (.errmsg ("Unable to access local parmfile '" ++ parmfile ++
      "' - No such file or directory"))
  | _, some e => throw (.errmsg ("Unable to access local parmfile '" ++ parmfile ++ "' - " ++ e))
  | some file, none =>
    if sysloadMaxKernelCmdline < file.data.length + cmdline.length then
      throw (.errmsg "Kernel command line too long.")
    else
      match os.openRead parmfile, if file.data = [] then none else os.read parmfile with
      | some e, _ => throw (.errmsg ("Unable to open local parmfile '" ++ parmfile ++ "' - " ++ e))
      | none, some e =>
        throw (.errmsg ("Unable to read local parmfile '" ++ parmfile ++ "' - " ++ e))
      | none, none => pure (cstr file.data ++ [' '] ++ cmdline)

/-- `kexec`: it returns only with an error message. -/
def kexec (kernel initrd : String) (cmdline : CStr) : SysM Unit := do
  modify fun s => { s with kexecs := s.kexecs ++ [⟨kernel, initrd, cmdline, s.call, s.files⟩] }
  match os.kexecLoad, os.kexecExecute with
  | some status, _ => throw (.errmsg s!"kexec load failed with return code {status}.")
  | none, some status => throw (.errmsg s!"kexec execute failed with return code {status}.")
  | none, none => throw .booted

/-- The kernel cannot be loaded into memory. -/
theorem kexec_unloadable {kernel initrd : String} {cmdline : CStr} {status : Int} (s : Sys)
    (hload : os.kexecLoad = some status) : ∃ msg, (kexec os kernel initrd cmdline).Runs s
      (.error (.errmsg msg))
      { s with kexecs := s.kexecs ++ [⟨kernel, initrd, cmdline, s.call, s.files⟩] } := by
  unfold kexec
  rw [hload]
  exact ⟨_, Routine.runs_modify_bind.mpr (Routine.runs_throw.mpr ⟨rfl, rfl⟩)⟩

/-- The kernel runs. -/
theorem kexec_booted {kernel initrd : String} {cmdline : CStr} (s : Sys)
    (hload : os.kexecLoad = none) (hexecute : os.kexecExecute = none) :
    (kexec os kernel initrd cmdline).Runs s (.error .booted)
      { s with kexecs := s.kexecs ++ [⟨kernel, initrd, cmdline, s.call, s.files⟩] } := by
  unfold kexec
  rw [hload, hexecute]
  exact Routine.runs_modify_bind.mpr (Routine.runs_throw.mpr ⟨rfl, rfl⟩)

/-- Composing the command line changes nothing. -/
theorem composeCommandline_runs {parmfile : String} {cmdline : CStr} {s s' : Sys}
    {r : Except Stop CStr} (h : (composeCommandline os parmfile cmdline).Runs s r s') : s' = s := by
  refine Routine.Keeps.bind (I := fun s' => s' = s) Routine.keeps_get (fun s₁ => ?_) s r s' rfl h
  split
  · exact Routine.keeps_throw _
  · exact Routine.keeps_throw _
  · split
    · exact Routine.keeps_throw _
    · split <;> first | exact Routine.keeps_throw _ | exact Routine.keeps_pure _

/-- Composing the command line fails with an error message. -/
theorem composeCommandline_error {parmfile : String} {cmdline : CStr} {s s' : Sys} {e : Stop}
    (h : (composeCommandline os parmfile cmdline).Runs s (.error e) s') :
    ∃ msg, e = .errmsg msg := by
  have hthrow : ∀ {msg : String} {s₁ : Sys},
      (throw (.errmsg msg) : SysM CStr).Runs s₁ (.error e) s' → ∃ msg, e = .errmsg msg :=
    fun h => ⟨_, (Except.error.inj (Routine.runs_throw.mp h).1).symm⟩
  unfold composeCommandline at h
  rcases Routine.runs_bind.mp h with ⟨s₁, _, _, h⟩ | ⟨_, hget, _⟩
  · split at h
    · exact hthrow h
    · exact hthrow h
    · split at h
      · exact hthrow h
      · split at h
        · exact hthrow h
        · exact hthrow h
        · exact absurd (Routine.runs_pure.mp h).1 (by simp)
  · exact absurd (Routine.runs_get.mp hget).1 (by simp)

/-- `kexec` finds the files as they are, and leaves them. -/
theorem kexec_runs {kernel initrd : String} {cmdline : CStr} {s s' : Sys} {r : Except Stop Unit}
    (h : (kexec os kernel initrd cmdline).Runs s r s') :
    s' = { s with kexecs := s.kexecs ++ [⟨kernel, initrd, cmdline, s.call, s.files⟩] } := by
  unfold kexec at h
  have hrest := Routine.runs_modify_bind.mp h
  split at hrest <;> exact (Routine.runs_throw.mp hrest).2.symm

end Sysload
