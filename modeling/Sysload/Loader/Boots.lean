import Sysload.Loader.Command

/-!
# What is booted

`Boots x s k` says that `x`, started in `s`, comes to an end and has called `kexec` once, with `k`.
The boot methods call `kexec` last, so what they boot is found by following the parts in front of it
where these return a value.

The functions are those of `Command.lean`, `Insfile.lean` and `Loader.lean`.

Results:
* `boots_bind`: in front of a part that calls `kexec`, only what a part returns matters.
* `boots_kexec`: what `kexec` itself is called with.
* `creat_ok_iff` and its like: when a system call of the loader succeeds, and what it leaves.
-/

namespace Sysload

/-- `x` comes to an end and calls `kexec` once, with `k`. -/
def Boots {α : Type} (x : SysM α) (s : Sys) (k : KexecCall) : Prop :=
  ∃ r s', x.Runs s r s' ∧ s'.kexecs = s.kexecs ++ [k]

/-- `x` does not call `kexec`, and stays in its `loader()` call, whatever it comes to. -/
def NoKexec {α : Type} (x : SysM α) : Prop :=
  ∀ s r s', x.Runs s r s' → s'.kexecs = s.kexecs ∧ s'.call = s.call

/-- `x` calls `kexec` at most once, for its `loader()` call. -/
def AtMostOnce {α : Type} (x : SysM α) : Prop :=
  ∀ s r s', x.Runs s r s' → s'.call = s.call ∧
    (s'.kexecs = s.kexecs ∨ ∃ k, k.call = s.call ∧ s'.kexecs = s.kexecs ++ [k])

variable {os : Os} {α β : Type}

/-! ## Parts that do not call `kexec` -/

theorem noKexec_pure (a : α) : NoKexec (pure a) := by
  intro s r s' hrun
  obtain ⟨_, rfl⟩ := Routine.runs_pure.mp hrun
  exact ⟨rfl, rfl⟩

theorem noKexec_throw (e : Stop) : NoKexec (throw e : SysM α) := by
  intro s r s' hrun
  obtain ⟨_, rfl⟩ := Routine.runs_throw.mp hrun
  exact ⟨rfl, rfl⟩

theorem noKexec_get : NoKexec (get : SysM Sys) := by
  intro s r s' hrun
  obtain ⟨_, rfl⟩ := Routine.runs_get.mp hrun
  exact ⟨rfl, rfl⟩

theorem noKexec_lift (x : Prog Stop α) : NoKexec (Routine.lift x) := by
  intro s r s' hrun
  obtain ⟨_, rfl⟩ := Routine.runs_lift.mp hrun
  exact ⟨rfl, rfl⟩

theorem noKexec_modify {f : Sys → Sys} (h : ∀ s, (f s).kexecs = s.kexecs ∧ (f s).call = s.call) :
    NoKexec (modify f) := by
  intro s r s' hrun
  obtain ⟨_, rfl⟩ := Routine.runs_modify.mp hrun
  exact h s

theorem NoKexec.bind {x : SysM α} {f : α → SysM β} (hx : NoKexec x) (hf : ∀ a, NoKexec (f a)) :
    NoKexec (x >>= f) := by
  intro s r s' hrun
  rcases Routine.runs_bind.mp hrun with ⟨a, s₁, h₁, h₂⟩ | ⟨e, h₁, _⟩
  · exact ⟨(hf a s₁ r s' h₂).1.trans (hx s _ s₁ h₁).1, (hf a s₁ r s' h₂).2.trans (hx s _ s₁ h₁).2⟩
  · exact hx s _ s' h₁

theorem noKexec_creat (path : String) (errmsg : String → String) :
    NoKexec (creat os path errmsg) := by
  intro s r s' hrun
  obtain ⟨_, _, rfl⟩ | ⟨_, rfl⟩ := creat_runs hrun <;> exact ⟨rfl, rfl⟩

theorem noKexec_writeOrUnlink (path : String) (data : List Char) (errmsg : String → String) :
    NoKexec (writeOrUnlink os path data errmsg) := by
  intro s r s' hrun
  obtain ⟨_, _, rfl⟩ | ⟨_, rfl⟩ := writeOrUnlink_runs hrun <;> exact ⟨rfl, rfl⟩

theorem noKexec_closeOrUnlink (path : String) (errmsg : String → String) :
    NoKexec (closeOrUnlink os path errmsg) := by
  intro s r s' hrun
  obtain ⟨_, _, rfl⟩ | ⟨_, rfl⟩ := closeOrUnlink_runs hrun <;> exact ⟨rfl, rfl⟩

theorem noKexec_compLoad (dest : String) (uri : CStr) : NoKexec (compLoad os dest uri) := by
  intro s r s' hrun
  obtain ⟨_, _, rfl⟩ | ⟨_, _, rfl | ⟨_, rfl⟩⟩ := compLoad_runs os hrun <;> exact ⟨rfl, rfl⟩

theorem noKexec_composeCommandline (parmfile : String) (cmdline : CStr) :
    NoKexec (composeCommandline os parmfile cmdline) := by
  intro s r s' hrun
  obtain rfl := composeCommandline_runs os hrun
  exact ⟨rfl, rfl⟩

/-! ## At most one call -/

theorem NoKexec.atMostOnce {x : SysM α} (hx : NoKexec x) : AtMostOnce x := fun s r s' hrun =>
  ⟨(hx s r s' hrun).2, Or.inl (hx s r s' hrun).1⟩

theorem NoKexec.bind_atMostOnce {x : SysM α} {f : α → SysM β} (hx : NoKexec x)
    (hf : ∀ a, AtMostOnce (f a)) : AtMostOnce (x >>= f) := by
  intro s r s' hrun
  rcases Routine.runs_bind.mp hrun with ⟨a, s₁, h₁, h₂⟩ | ⟨e, h₁, _⟩
  · obtain ⟨hkexecs, hcall⟩ := hx s _ s₁ h₁
    rw [← hkexecs, ← hcall]
    exact hf a s₁ r s' h₂
  · exact hx.atMostOnce s _ s' h₁

theorem atMostOnce_throw_bind {e : Stop} {f : α → SysM β} : AtMostOnce (throw e >>= f) := by
  intro s r s' hrun
  rcases Routine.runs_bind.mp hrun with ⟨_, _, hthrow, _⟩ | ⟨_, hthrow, _⟩
  · exact absurd (Routine.runs_throw.mp hthrow).1 (by simp)
  · exact (noKexec_throw e).atMostOnce s _ s' hthrow

theorem atMostOnce_kexec (kernel initrd : String) (cmdline : CStr) :
    AtMostOnce (kexec os kernel initrd cmdline) := by
  intro s r s' hrun
  obtain rfl := kexec_runs os hrun
  exact ⟨rfl, Or.inr ⟨_, rfl, rfl⟩⟩

/-! ## What is booted -/

/-- What does not call `kexec` boots nothing. -/
theorem NoKexec.not_boots {x : SysM α} (hx : NoKexec x) (s : Sys) (k : KexecCall) :
    ¬ Boots x s k := by
  rintro ⟨r, s', hrun, hk⟩
  rw [(hx s r s' hrun).1] at hk
  exact absurd hk (by simp)

/-- **Sequencing**: in front of a part that calls `kexec`, only what a part returns matters. -/
theorem boots_bind {x : SysM α} {f : α → SysM β} (hx : NoKexec x) {s : Sys} {k : KexecCall} :
    Boots (x >>= f) s k ↔ ∃ a s₁, x.Runs s (.ok a) s₁ ∧ Boots (f a) s₁ k := by
  constructor
  · rintro ⟨r, s', hrun, hk⟩
    rcases Routine.runs_bind.mp hrun with ⟨a, s₁, h₁, h₂⟩ | ⟨e, h₁, _⟩
    · exact ⟨a, s₁, h₁, r, s', h₂, by rw [hk, (hx s _ s₁ h₁).1]⟩
    · rw [(hx s _ s' h₁).1] at hk
      exact absurd hk (by simp)
  · rintro ⟨a, s₁, h₁, r, s', h₂, hk⟩
    exact ⟨r, s', Routine.runs_bind.mpr (Or.inl ⟨a, s₁, h₁, h₂⟩), by rw [hk, (hx s _ s₁ h₁).1]⟩

/-- A part without state. -/
theorem boots_lift_bind {x : Prog Stop α} {f : α → SysM β} {s : Sys} {k : KexecCall} :
    Boots (Routine.lift x >>= f) s k ↔ ∃ a, x.Gives (.ok a) ∧ Boots (f a) s k := by
  rw [boots_bind (noKexec_lift x)]
  simp

/-- **`kexec`** is called with the files that are there. -/
theorem boots_kexec {kernel initrd : String} {cmdline : CStr} {s : Sys} {k : KexecCall} :
    Boots (kexec os kernel initrd cmdline) s k ↔ k = ⟨kernel, initrd, cmdline, s.call, s.files⟩ := by
  constructor
  · rintro ⟨r, s', hrun, hk⟩
    obtain rfl := kexec_runs os hrun
    simpa using hk.symm
  · rintro rfl
    unfold kexec Boots
    have hthrow : ∀ {e : Stop} {s' : Sys}, (throw e : SysM Unit).Runs s' (.error e) s' :=
      Routine.runs_throw.mpr ⟨rfl, rfl⟩
    cases os.kexecLoad with
    | some status => exact ⟨_, _, Routine.runs_modify_bind.mpr hthrow, rfl⟩
    | none => cases os.kexecExecute with
      | some status => exact ⟨_, _, Routine.runs_modify_bind.mpr hthrow, rfl⟩
      | none => exact ⟨_, _, Routine.runs_modify_bind.mpr hthrow, rfl⟩

/-! ## Where the system calls succeed -/

theorem Sys.put_put (s : Sys) (path : String) (file file' : Option LocalFile) :
    (s.put path file).put path file' = s.put path file' := by
  simp [Sys.put]

theorem Sys.put_files_self (s : Sys) (path : String) (file : Option LocalFile) :
    (s.put path file).files path = file := by
  rw [Sys.put_files, if_pos rfl]

/-- What is written behind a file that was just put there. -/
theorem Sys.put_append (s : Sys) (path : String) (file : LocalFile) (data : List Char) :
    (s.put path (some file)).append path data =
      s.put path (some { file with data := file.data ++ data }) := by
  simp [Sys.append, Sys.put_put]

theorem Sys.put_fileSize (s : Sys) (path : String) (file : LocalFile) :
    (s.put path (some file)).fileSize path = file.data.length := by
  simp [Sys.fileSize]

theorem creat_ok_iff {path : String} {errmsg : String → String} {s s' : Sys} {u : Unit} :
    (creat os path errmsg).Runs s (.ok u) s' ↔
      os.creat path = none ∧ s' = s.put path (some ⟨[], none, none⟩) := by
  constructor
  · intro hrun
    obtain ⟨_, hcreat, rfl⟩ | ⟨⟨_, hbad⟩, _⟩ := creat_runs hrun
    · exact ⟨hcreat, rfl⟩
    · cases hbad
  · rintro ⟨hcreat, rfl⟩
    unfold creat
    rw [hcreat]
    exact Routine.runs_modify.mpr ⟨rfl, rfl⟩

theorem writeOrUnlink_ok_iff {path : String} {data : List Char} {errmsg : String → String}
    {s s' : Sys} {u : Unit} :
    (writeOrUnlink os path data errmsg).Runs s (.ok u) s' ↔
      os.write path (s.fileSize path) = none ∧ s' = s.append path data := by
  constructor
  · intro hrun
    obtain ⟨_, hwrite, rfl⟩ | ⟨⟨_, hbad⟩, _⟩ := writeOrUnlink_runs hrun
    · exact ⟨hwrite, rfl⟩
    · cases hbad
  · rintro ⟨hwrite, rfl⟩
    refine Routine.runs_get_bind.mpr ?_
    rw [hwrite]
    exact Routine.runs_modify.mpr ⟨rfl, rfl⟩

theorem closeOrUnlink_ok_iff {path : String} {errmsg : String → String} {s s' : Sys} {u : Unit} :
    (closeOrUnlink os path errmsg).Runs s (.ok u) s' ↔ os.close path = none ∧ s' = s := by
  constructor
  · intro hrun
    obtain ⟨_, hclose, rfl⟩ | ⟨⟨_, hbad⟩, _⟩ := closeOrUnlink_runs hrun
    · exact ⟨hclose, rfl⟩
    · cases hbad
  · rintro ⟨hclose, rfl⟩
    unfold closeOrUnlink
    rw [hclose]
    exact Routine.runs_pure.mpr ⟨rfl, rfl⟩

/-- The loader module for this URI delivers `data` as `dest`. -/
def Delivers (os : Os) (dest : String) (uri : CStr) (data : List Char) : Prop :=
  verifyUriScheme uri = true ∧ os.loaderModule dest uri = .success data

theorem compLoad_ok_iff {dest : String} {uri : CStr} {s s' : Sys} :
    (compLoad os dest uri).Runs s (.ok (.ok ())) s' ↔
      ∃ data, Delivers os dest uri data ∧ s' = s.put dest (some ⟨data, some s.call, none⟩) := by
  constructor
  · intro hrun
    cases hscheme : verifyUriScheme uri with
    | false =>
      rw [compLoad, if_neg (by simp [hscheme])] at hrun
      exact absurd (Routine.runs_pure.mp hrun).1 (by simp)
    | true =>
      cases hmodule : os.loaderModule dest uri with
      | success data =>
        have hok := compLoad_success os s hscheme hmodule
        exact ⟨data, ⟨hscheme, hmodule⟩, (hrun.unique hok).2⟩
      | failure left stderr =>
        rw [compLoad, if_pos hscheme, hmodule] at hrun
        obtain ⟨_, _, _, hpure⟩ := Routine.runs_bind_ok.mp hrun
        exact absurd (Routine.runs_pure.mp hpure).1 (by simp)
  · rintro ⟨data, ⟨hscheme, hmodule⟩, rfl⟩
    exact compLoad_success os s hscheme hmodule

/-- The command line of a file with this content and the entry's own can be composed. -/
structure Composes (os : Os) (parmfile : String) (data : List Char) (cmdline : CStr) : Prop where
  stat : os.stat parmfile = none
  short : data.length + cmdline.length ≤ sysloadMaxKernelCmdline
  openRead : os.openRead parmfile = none
  read : data ≠ [] → os.read parmfile = none

theorem composeCommandline_ok_iff {parmfile : String} {cmdline result : CStr} {s s' : Sys}
    {file : LocalFile} (hfile : s.files parmfile = some file) :
    (composeCommandline os parmfile cmdline).Runs s (.ok result) s' ↔
      Composes os parmfile file.data cmdline ∧
        result = cstr file.data ++ [' '] ++ cmdline ∧ s' = s := by
  unfold composeCommandline
  rw [Routine.runs_get_bind, hfile]
  cases hstat : os.stat parmfile with
  | some e =>
    simp only [Routine.runs_throw]
    constructor
    · rintro ⟨hbad, _⟩
      cases hbad
    · rintro ⟨h, _⟩
      exact absurd (hstat.symm.trans h.stat) (by simp)
  | none =>
    by_cases hlong : sysloadMaxKernelCmdline < file.data.length + cmdline.length
    · simp only [if_pos hlong, Routine.runs_throw]
      constructor
      · rintro ⟨hbad, _⟩
        cases hbad
      · rintro ⟨h, _⟩
        exact absurd h.short (Nat.not_le_of_lt hlong)
    · simp only [if_neg hlong]
      split
      · rename_i e hopen
        constructor
        · intro hrun
          exact absurd (Routine.runs_throw.mp hrun).1 (by simp)
        · rintro ⟨h, _⟩
          exact absurd (hopen.symm.trans h.openRead) (by simp)
      · rename_i e hopen hread
        constructor
        · intro hrun
          exact absurd (Routine.runs_throw.mp hrun).1 (by simp)
        · rintro ⟨h, _⟩
          split at hread
          · cases hread
          · rename_i hne
            exact absurd (hread.symm.trans (h.read hne)) (by simp)
      · rename_i hopen hread
        rw [Routine.runs_pure]
        constructor
        · rintro ⟨hresult, rfl⟩
          refine ⟨⟨hstat, Nat.le_of_not_lt hlong, hopen, fun hne => ?_⟩,
            (Except.ok.inj hresult).symm, rfl⟩
          rwa [if_neg hne] at hread
        · rintro ⟨_, rfl, rfl⟩
          exact ⟨rfl, rfl⟩

/-- **Loading a file** in front of a part that calls `kexec`, where nothing is booted without it. -/
theorem boots_compLoad_bind {dest : String} {uri : CStr} {f : Except (Option CStr) Unit → SysM α}
    (hfail : ∀ errmsg s k, ¬ Boots (f (.error errmsg)) s k) {s : Sys} {k : KexecCall} :
    Boots (compLoad os dest uri >>= f) s k ↔ ∃ data, Delivers os dest uri data ∧
      Boots (f (.ok ())) (s.put dest (some ⟨data, some s.call, none⟩)) k := by
  rw [boots_bind (noKexec_compLoad _ _)]
  constructor
  · rintro ⟨loaded, s₁, hload, hboots⟩
    cases loaded with
    | error errmsg => exact absurd hboots (hfail _ _ _)
    | ok =>
      obtain ⟨data, hdelivers, rfl⟩ := compLoad_ok_iff.mp hload
      exact ⟨data, hdelivers, hboots⟩
  · rintro ⟨data, hdelivers, hboots⟩
    exact ⟨.ok (), _, compLoad_ok_iff.mpr ⟨data, hdelivers, rfl⟩, hboots⟩

theorem not_boots_throw_bind {e : Stop} {f : α → SysM β} {s : Sys} {k : KexecCall} :
    ¬ Boots (throw e >>= f) s k := by
  rw [boots_bind (noKexec_throw e)]
  rintro ⟨_, _, hthrow, _⟩
  exact absurd (Routine.runs_throw.mp hthrow).1 (by simp)

/-- The command line of a boot entry: its own, or behind the content of its parmfile, which is loaded
for that. -/
def CmdlineStep (os : Os) (boot : CfgBentry) (s : Sys) (cmdline : CStr) (s' : Sys) : Prop :=
  if boot.parmfile = [] then cmdline = boot.cmdline ∧ s' = s
  else ∃ data, Delivers os sysloadFilenameParmfile (prefixRoot boot.root boot.parmfile) data ∧
    Composes os sysloadFilenameParmfile data boot.cmdline ∧
    cmdline = cstr data ++ [' '] ++ boot.cmdline ∧
    s' = s.put sysloadFilenameParmfile (some ⟨data, some s.call, none⟩)

theorem CmdlineStep.call {boot : CfgBentry} {s s' : Sys} {cmdline : CStr}
    (h : CmdlineStep os boot s cmdline s') : s'.call = s.call := by
  unfold CmdlineStep at h
  split at h
  · rw [h.2]
  · obtain ⟨_, _, _, _, rfl⟩ := h
    rfl

/-- Where the parmfile is loaded and composed, whatever is done if it cannot be loaded. -/
theorem cmdlineStep_iff {boot : CfgBentry} {f : Except (Option CStr) Unit → SysM CStr}
    (hok : f (.ok ()) = composeCommandline os sysloadFilenameParmfile boot.cmdline)
    (hfail : ∀ errmsg s cmdline s', ¬ (f (.error errmsg)).Runs s (.ok cmdline) s')
    (hparmfile : boot.parmfile ≠ []) {s s' : Sys} {cmdline : CStr} :
    (compLoad os sysloadFilenameParmfile (prefixRoot boot.root boot.parmfile) >>= f).Runs s
        (.ok cmdline) s' ↔ CmdlineStep os boot s cmdline s' := by
  rw [CmdlineStep, if_neg hparmfile, Routine.runs_bind_ok]
  constructor
  · rintro ⟨loaded, s₁, hload, hrest⟩
    cases loaded with
    | error errmsg => exact absurd hrest (hfail _ _ _ _)
    | ok =>
      obtain ⟨data, hdelivers, rfl⟩ := compLoad_ok_iff.mp hload
      rw [hok, composeCommandline_ok_iff (Sys.put_files_self _ _ _)] at hrest
      exact ⟨data, hdelivers, hrest⟩
  · rintro ⟨data, hdelivers, hrest⟩
    refine ⟨.ok (), _, compLoad_ok_iff.mpr ⟨data, hdelivers, rfl⟩, ?_⟩
    rw [hok, composeCommandline_ok_iff (Sys.put_files_self _ _ _)]
    exact hrest

/-- The parmfile in front of a part that calls `kexec`. -/
theorem boots_parmfile_iff {boot : CfgBentry} {f : Except (Option CStr) Unit → SysM α}
    {g : CStr → SysM α}
    (hok : f (.ok ()) = composeCommandline os sysloadFilenameParmfile boot.cmdline >>= g)
    (hfail : ∀ errmsg s k, ¬ Boots (f (.error errmsg)) s k) (hparmfile : boot.parmfile ≠ [])
    {s : Sys} {k : KexecCall} :
    Boots (compLoad os sysloadFilenameParmfile (prefixRoot boot.root boot.parmfile) >>= f) s k ↔
      ∃ cmdline s', CmdlineStep os boot s cmdline s' ∧ Boots (g cmdline) s' k := by
  rw [boots_compLoad_bind hfail, hok]
  simp only [boots_bind (noKexec_composeCommandline _ _),
    composeCommandline_ok_iff (Sys.put_files_self _ _ _), CmdlineStep, if_neg hparmfile]
  constructor
  · rintro ⟨data, hdelivers, cmdline, s', ⟨hcomposes, hcmdline, hs'⟩, hboots⟩
    exact ⟨cmdline, s', ⟨data, hdelivers, hcomposes, hcmdline, hs'⟩, hboots⟩
  · rintro ⟨cmdline, s', ⟨data, hdelivers, hcomposes, hcmdline, hs'⟩, hboots⟩
    exact ⟨data, hdelivers, cmdline, s', ⟨hcomposes, hcmdline, hs'⟩, hboots⟩

end Sysload
