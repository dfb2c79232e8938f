import Sysload.Loader.Command

/-!
# The kernel command line of a parmfile (`loader.c`)

`compose_commandline()` reads a local parmfile, in as many pieces as the system makes of it, into a
buffer that it has allocated, and appends a blank and the command line of the boot entry. Its test
against `SYSLOAD_MAX_KERNEL_CMDLINE` leaves out the blank.

Source: `src/core/loader.c`, `compose_commandline`. Out of scope is a file that changes while it is
read.

Results:
* `readLoop_gives`: the loop reads the whole file, or fails with a message.
* **`composeCommandline_exact_iff`**: the result is the file, a blank and the command line, and not too
  long, but for one sum of the lengths.
* `composeCommandline_refines`: `Sysload.composeCommandline` has one answer for all these pieces.
-/

namespace Sysload.Commandline

open Comp (Pass)

/-- A local parmfile, and the answers of the system while it is read: the error texts of `stat` and
`open`, and what a `read` at an offset does. It fails, or delivers at least one byte: up to `n` of
those that are left. -/
structure Parmfile where
  data : List Char
  stat : Option String
  openRead : Option String
  read : Nat → Except String { n : Nat // 0 < n }

variable (path : String) (f : Parmfile)

/-- The read loop of `compose_commandline`, with `size` bytes allocated: `buffer` is what was read so
far, and its length is `count`. -/
def readBody (size : Nat) (buffer : List Char) : Prog Stop (Pass (List Char) (List Char)) :=
  if buffer.length < f.data.length then
    match f.read buffer.length with
    | .error e => throw (.errmsg ("Unable to read local parmfile '" ++ path ++ "' - " ++ e))
    | .ok n =>
      let piece := (f.data.drop buffer.length).take n
      if buffer.length + piece.length ≤ size then pure (.next (buffer ++ piece))
      else throw .overrun
  else pure (.done buffer)

/-- `compose_commandline`. -/
def composeCommandline (cmdline : CStr) : Prog Stop CStr :=
  match f.stat with
  | some e => throw (.errmsg ("Unable to access local parmfile '" ++ path ++ "' - " ++ e))
  | none =>
    if sysloadMaxKernelCmdline < f.data.length + cmdline.length then
      throw (.errmsg "Kernel command line too long.")
    else
      match f.openRead with
      | some e => throw (.errmsg ("Unable to open local parmfile '" ++ path ++ "' - " ++ e))
      | none => do
        let size := f.data.length + cmdline.length + 1
        let buffer ← Prog.loop (readBody path f size) []
        -- the terminating NUL is stored behind what was read
        if buffer.length < size then pure (cstr buffer ++ [' '] ++ cmdline) else throw .overrun

/-- Every `read` from the offset `count` on succeeds. -/
inductive Parmfile.Reads : Nat → Prop
  | all {count : Nat} : f.data.length ≤ count → Reads count
  | piece {count : Nat} {n : { n : Nat // 0 < n }} : count < f.data.length →
      f.read count = .ok n → Reads (count + n) → Reads count

/-- The file can be read. -/
def Parmfile.Readable : Prop := f.stat = none ∧ f.openRead = none ∧ f.Reads 0

/-- What the read loop comes to, as one answer of the system for the whole file. -/
def ReadsAs (answer : Option String) (r : Except Stop CStr) : Prop :=
  match answer with
  | none => r = .ok f.data
  | some e => f.data ≠ [] ∧
      r = .error (.errmsg ("Unable to read local parmfile '" ++ path ++ "' - " ++ e))

variable {path f}

/-! ## The read loop -/

theorem readBody_all {size count : Nat} (h : f.data.length ≤ count) :
    (readBody path f size (f.data.take count)).Gives (.ok (.done f.data)) := by
  rw [List.take_of_length_le h, readBody, if_neg (Nat.lt_irrefl _)]
  exact Prog.gives_pure.mpr rfl

theorem readBody_piece {size count : Nat} {n : { n : Nat // 0 < n }} (hsize : f.data.length ≤ size)
    (hlt : count < f.data.length) (hread : f.read count = .ok n) :
    (readBody path f size (f.data.take count)).Gives (.ok (.next (f.data.take (count + n)))) := by
  have hlen : (f.data.take count).length = count := List.length_take_of_le hlt.le
  have hpiece : (f.data.take count).length +
      ((f.data.drop (f.data.take count).length).take n).length ≤ size := by
    rw [hlen, List.length_take, List.length_drop]
    omega
  rw [readBody, if_pos (hlen.symm ▸ hlt : (f.data.take count).length < _), hlen, hread]
  rw [hlen] at hpiece
  simp only
  rw [if_pos hpiece, ← List.take_add]
  exact Prog.gives_pure.mpr rfl

theorem readBody_error {size count : Nat} {e : String} (hlt : count < f.data.length)
    (hread : f.read count = .error e) :
    (readBody path f size (f.data.take count)).Gives
      (.error (.errmsg ("Unable to read local parmfile '" ++ path ++ "' - " ++ e))) := by
  have hlen : (f.data.take count).length = count := List.length_take_of_le hlt.le
  rw [readBody, if_pos (hlen.symm ▸ hlt : (f.data.take count).length < _), hlen, hread]
  exact Prog.gives_throw.mpr rfl

/-- **The read loop** reads the rest of the file, if no `read` fails, and else fails with the message
of the one that does. It never leaves the buffer, and it ends. -/
theorem readLoop_gives {size : Nat} (hsize : f.data.length ≤ size) (count : Nat) :
    (f.Reads count ∧
      (Prog.loop (readBody path f size) (f.data.take count)).Gives (.ok f.data)) ∨
    (count < f.data.length ∧ ¬ f.Reads count ∧ ∃ e,
      (Prog.loop (readBody path f size) (f.data.take count)).Gives
        (.error (.errmsg ("Unable to read local parmfile '" ++ path ++ "' - " ++ e)))) := by
  by_cases hlt : count < f.data.length
  · cases hread : f.read count with
    | error e =>
      refine Or.inr ⟨hlt, fun hreads => ?_, e, ?_⟩
      · cases hreads with
        | all hle => exact absurd hlt (Nat.not_lt.mpr hle)
        | piece _ hread' _ => exact absurd (hread.symm.trans hread') (by simp)
      · exact (Prog.gives_loop_error (readBody_error hlt hread)).mpr rfl
    | ok n =>
      have hnext := @readBody_piece path f size count n hsize hlt hread
      have hpos := n.2
      rcases readLoop_gives hsize (count + n) with ⟨hreads, hgives⟩ | ⟨_, hnot, e, hgives⟩
      · exact Or.inl ⟨.piece hlt hread hreads, (Prog.gives_loop_next hnext).mpr hgives⟩
      · refine Or.inr ⟨hlt, fun hreads => ?_, e, (Prog.gives_loop_next hnext).mpr hgives⟩
        cases hreads with
        | all hle => exact absurd hlt (Nat.not_lt.mpr hle)
        | piece _ hread' hreads =>
          obtain rfl := Except.ok.inj (hread.symm.trans hread')
          exact hnot hreads
  · have hle := Nat.not_lt.mp hlt
    exact Or.inl ⟨.all hle, (Prog.gives_loop_done (readBody_all hle)).mpr rfl⟩
  termination_by f.data.length - count

/-! ## The result -/

/-- **`compose_commandline` succeeds** if the file can be read and the two lengths are not too large
together. -/
theorem composeCommandline_ok_iff {cmdline result : CStr} :
    (composeCommandline path f cmdline).Gives (.ok result) ↔
      f.Readable ∧ f.data.length + cmdline.length ≤ sysloadMaxKernelCmdline ∧
        result = cstr f.data ++ [' '] ++ cmdline := by
  unfold composeCommandline Parmfile.Readable
  cases f.stat with
  | some e => simp
  | none =>
    by_cases hlong : sysloadMaxKernelCmdline < f.data.length + cmdline.length
    · rw [if_pos hlong]
      simp only [Prog.gives_throw, reduceCtorEq, false_iff]
      exact fun h => absurd h.2.1 (Nat.not_le.mpr hlong)
    rw [if_neg hlong]
    cases f.openRead with
    | some e => simp
    | none =>
      have hle := Nat.not_lt.mp hlong
      simp only [true_and, hle]
      rw [Prog.gives_bind_eq_ok]
      have hloop := @readLoop_gives path f (f.data.length + cmdline.length + 1) (by omega) 0
      rw [List.take_zero] at hloop
      rcases hloop with ⟨hreads, hgives⟩ | ⟨_, hnot, e, hgives⟩
      · simp only [hreads, true_and]
        constructor
        · rintro ⟨buffer, hbuffer, hresult⟩
          obtain rfl := Except.ok.inj (hbuffer.unique hgives)
          rw [if_pos (by omega)] at hresult
          exact (Except.ok.inj (Prog.gives_pure.mp hresult)).symm
        · rintro rfl
          exact ⟨f.data, hgives, by rw [if_pos (by omega)]; exact Prog.gives_pure.mpr rfl⟩
      · simp only [hnot, false_and, iff_false]
        rintro ⟨buffer, hbuffer, _⟩
        exact absurd (hbuffer.unique hgives) (by simp)

/-- **The composed command line** is the file, a blank and the command line, not longer than
`SYSLOAD_MAX_KERNEL_CMDLINE`, and there is one whenever that fits and the file can be read, but for
the lengths that fit exactly without the blank. -/
theorem composeCommandline_exact_iff {cmdline : CStr} (hdata : nul ∉ f.data) :
    ((∀ result, (composeCommandline path f cmdline).Gives (.ok result) →
        result = f.data ++ [' '] ++ cmdline ∧ result.length ≤ sysloadMaxKernelCmdline) ∧
      (f.Readable → (f.data ++ [' '] ++ cmdline).length ≤ sysloadMaxKernelCmdline →
        (composeCommandline path f cmdline).Gives (.ok (f.data ++ [' '] ++ cmdline)))) ↔
      f.data.length + cmdline.length ≠ sysloadMaxKernelCmdline ∨ ¬ f.Readable := by
  have hlen : (f.data ++ [' '] ++ cmdline).length = f.data.length + cmdline.length + 1 := by
    simp only [List.length_append, List.length_singleton]
    omega
  simp only [composeCommandline_ok_iff, cstr_eq_self hdata, hlen]
  constructor
  · rintro ⟨hexact, _⟩
    by_cases hreadable : f.Readable
    · refine Or.inl fun hsum => ?_
      have hlong := (hexact _ ⟨hreadable, hsum.le, rfl⟩).2
      rw [hlen, hsum] at hlong
      exact absurd hlong (Nat.not_succ_le_self _)
    · exact Or.inr hreadable
  · intro hcond
    refine ⟨?_, fun hreadable hfits => ⟨hreadable, by omega, trivial⟩⟩
    rintro result ⟨hreadable, hle, rfl⟩
    have hne := hcond.resolve_right (not_not.mpr hreadable)
    exact ⟨rfl, by rw [hlen]; omega⟩

/-- A parmfile of the maximal length, read at once. -/
def fullParmfile : Parmfile where
  data := List.replicate sysloadMaxKernelCmdline 'a'
  stat := none
  openRead := none
  read _ := .ok ⟨sysloadMaxKernelCmdline, by decide⟩

theorem fullParmfile_length : fullParmfile.data.length = sysloadMaxKernelCmdline :=
  List.length_replicate

theorem fullParmfile_nul : nul ∉ fullParmfile.data :=
  fun hmem => absurd (List.eq_of_mem_replicate hmem) (by decide)

theorem fullParmfile_readable : fullParmfile.Readable := by
  refine ⟨rfl, rfl, .piece (n := ⟨sysloadMaxKernelCmdline, by decide⟩) ?_ rfl (.all ?_)⟩
  · rw [fullParmfile_length]
    decide
  · rw [fullParmfile_length, Nat.zero_add]

/-- The rule holds of that parmfile. -/
theorem composeCommandline_exact_iff_fullParmfile :
    ¬ ((∀ result, (composeCommandline sysloadFilenameParmfile fullParmfile []).Gives (.ok result) →
        result = fullParmfile.data ++ [' '] ++ [] ∧ result.length ≤ sysloadMaxKernelCmdline) ∧
      (fullParmfile.Readable → (fullParmfile.data ++ [' '] ++ []).length ≤ sysloadMaxKernelCmdline →
        (composeCommandline sysloadFilenameParmfile fullParmfile []).Gives
          (.ok (fullParmfile.data ++ [' '] ++ [])))) := by
  rw [composeCommandline_exact_iff fullParmfile_nul]
  rintro (hne | hnot)
  · exact hne (by rw [fullParmfile_length, List.length_nil, Nat.add_zero])
  · exact hnot fullParmfile_readable

/-- **A command line that is too long**: with a parmfile of the maximal length. -/
theorem fullParmfile_tooLong :
    ∃ result, (composeCommandline sysloadFilenameParmfile fullParmfile []).Gives (.ok result) ∧
      sysloadMaxKernelCmdline < result.length := by
  refine ⟨_, composeCommandline_ok_iff.mpr ⟨fullParmfile_readable, ?_, rfl⟩, ?_⟩
  · rw [fullParmfile_length, List.length_nil, Nat.add_zero]
  · rw [cstr_eq_self fullParmfile_nul, List.append_nil, List.length_append, fullParmfile_length]
    exact Nat.lt_succ_self _

/-! ## One answer for all pieces -/

theorem composeCommandline_runs_iff {os : Os} {s s' : Sys} {loadedIn renamedIn : Option Nat}
    {cmdline : CStr} {r r₀ : Except Stop CStr}
    (hfile : s.files path = some ⟨f.data, loadedIn, renamedIn⟩) (hstat : os.stat path = f.stat)
    (hopen : os.openRead path = f.openRead)
    (hread : ReadsAs path f (os.read path) r₀)
    (hloop : (Prog.loop (readBody path f (f.data.length + cmdline.length + 1)) []).Gives r₀) :
    (Sysload.composeCommandline os path cmdline).Runs s r s' ↔
      (composeCommandline path f cmdline).Gives r ∧ s = s' := by
  unfold Sysload.composeCommandline composeCommandline
  rw [Routine.runs_get_bind, hfile, hstat, hopen]
  cases f.stat with
  | some e => simp
  | none =>
    by_cases hlong : sysloadMaxKernelCmdline < f.data.length + cmdline.length
    · simp [hlong]
    simp only [if_neg hlong]
    cases f.openRead with
    | some e => simp
    | none =>
      cases hanswer : os.read path with
      | none =>
        rw [hanswer] at hread
        obtain rfl : r₀ = .ok f.data := hread
        simp only [ite_self, Routine.runs_pure]
        rw [Prog.gives_bind_ok hloop, if_pos (by omega), Prog.gives_pure]
      | some e =>
        rw [hanswer] at hread
        obtain ⟨hne, rfl⟩ : f.data ≠ [] ∧ r₀ = .error (.errmsg
          ("Unable to read local parmfile '" ++ path ++ "' - " ++ e)) := hread
        simp only [if_neg hne, Routine.runs_throw]
        rw [Prog.gives_bind_error hloop]

/-- **The loader's `compose_commandline`**, which has one answer for the whole file, does what the loop
does. -/
theorem composeCommandline_refines (path : String) (f : Parmfile) (cmdline : CStr) :
    ∃ answer : Option String, ∀ (os : Os) (s : Sys) (loadedIn renamedIn : Option Nat),
      s.files path = some ⟨f.data, loadedIn, renamedIn⟩ → os.stat path = f.stat →
      os.openRead path = f.openRead → os.read path = answer → ∀ r s',
      ((Sysload.composeCommandline os path cmdline).Runs s r s' ↔
        (composeCommandline path f cmdline).Gives r ∧ s = s') := by
  have hloop := @readLoop_gives path f (f.data.length + cmdline.length + 1) (by omega) 0
  rw [List.take_zero] at hloop
  rcases hloop with ⟨_, hgives⟩ | ⟨hlt, _, e, hgives⟩
  · refine ⟨none, fun os s loadedIn renamedIn hfile hstat hopen hread r s' => ?_⟩
    exact composeCommandline_runs_iff hfile hstat hopen (by rw [hread]; rfl) hgives
  · refine ⟨some e, fun os s loadedIn renamedIn hfile hstat hopen hread r s' => ?_⟩
    refine composeCommandline_runs_iff hfile hstat hopen ?_ hgives
    rw [hread]
    exact ⟨List.ne_nil_of_length_pos hlt, rfl⟩

end Sysload.Commandline
