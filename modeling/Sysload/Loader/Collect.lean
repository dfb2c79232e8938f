import Sysload.Bootmap.Boot
import Sysload.UiControl

/-!
# The output of a loader module (`comp_load.c`)

`comp_load()` starts a loader module with two pipes as its standard output and standard error, reads
both in one loop, and waits for the module. The module and `comp_load()` run side by side: a step is
a system call of one of them.

* The module, or a process that it has started, writes to each pipe in any number of pieces and closes
  it. The module ends before or after that.
* `select` and `read` do not fail. `read` delivers at least one byte of what is there.
* `Channel.written` and `Channel.pieces` remember what was written and what each `read` has
  delivered; the C code has no such records, and nothing here depends on them.

Source: `src/core/comp_load.c`, `read_to_string` and `comp_load`. Out of scope are a `fork` or a
`pipe` that fails.

Results:
* `step_inv`: a stream is read in order, up to its end, and no further.
* **`loop_collects`**: behind the loop both streams are read completely, and the loop ends when both
  are closed.
* **`errmsg_assigned_iff`**: a failure has no message if the module prints none.
-/

namespace Sysload.Collect

open UiControl (WaitStatus)
open Bootmap (prepareConfigCommandLine)

/-! ## Loader module and `comp_load` -/

/-- The streams that are read. -/
inductive Stream where
  | stdout
  | stderr
  deriving DecidableEq, Repr

/-- A pipe, and what `comp_load` keeps for it: its bit in `read_set`, its bit in `read_flags`, and the
string (`int_info` or `int_errmsg`). -/
structure Channel where
  written : List Char
  pieces : List (List Char)
  unread : List Char
  closed : Bool
  inSet : Bool
  atEnd : Bool
  str : CStr
  deriving DecidableEq, Repr

/-- A pipe at the head of the loop. -/
def Channel.init : Channel := ⟨[], [], [], false, true, false, []⟩

/-- Where `comp_load` is: in `select`, behind it, between the two calls of `read_to_string`, in
`wait4`, or behind it. -/
inductive Pc where
  | select
  | readStdout
  | readStderr
  | wait
  | done (ret : Int)
  deriving DecidableEq, Repr

/-- `comp_load` behind the `fork`. `status` is how the module has ended. -/
structure State where
  pc : Pc
  channel : Stream → Channel
  status : Option WaitStatus

/-- The steps of loader module and `comp_load`. -/
inductive Event where
  | write (stream : Stream) (piece : List Char)
  | close (stream : Stream)
  | exit (status : WaitStatus)
  | select
  | read (n : Nat)
  | wait4

/-- The head of the loop. -/
def start : State := ⟨.select, fun _ => .init, none⟩

def Channel.write (c : Channel) (piece : List Char) : Channel :=
  { c with written := c.written ++ piece, unread := c.unread ++ piece }

def Channel.close (c : Channel) : Channel := { c with closed := true }

/-- A `read` does not block: there are bytes, or the pipe is closed. -/
def Channel.readable (c : Channel) : Bool := c.unread != [] || c.closed

/-- `select` leaves the streams in the set that can be read. -/
def Channel.select (c : Channel) : Channel := { c with inSet := c.inSet && c.readable }

/-- `read_to_string`, where `read` delivers `n` bytes: the string that is appended ends at the first
NUL. -/
def Channel.readToString (c : Channel) (n : Nat) : Channel :=
  { c with
    pieces := c.pieces ++ [c.unread.take n]
    unread := c.unread.drop n
    str := c.str ++ cstr (c.unread.take n) }

/-- The body of the loop for one stream: it is read if it is in the set. -/
def Channel.serve (c : Channel) (n : Nat) : Option Channel :=
  if c.inSet then
    if c.unread = [] then
      if c.closed ∧ n = 0 then some { c with atEnd := true } else none
    else if 0 < n ∧ n ≤ cfgStrMaxLen - 1 ∧ n ≤ c.unread.length then some (c.readToString n)
    else none
  else if n = 0 then some c
  else none

/-- The next wait set. -/
def Channel.rebuild (c : Channel) : Channel := { c with inSet := !c.atEnd }

/-- The pipe of a stream changes to `c`. -/
def State.set (s : State) (stream : Stream) (c : Channel) : State :=
  { s with channel := Function.update s.channel stream c }

/-- `read_flags != 0x03`. -/
def State.goesOn (s : State) : Bool :=
  !((s.channel .stdout).atEnd && (s.channel .stderr).atEnd)

/-- The end of the loop body. -/
def State.loopEnd (s : State) : State :=
  { s with
    pc := if s.goesOn then .select else .wait
    channel := fun stream => (s.channel stream).rebuild }

/-- `WIFEXITED(ret) && WEXITSTATUS(ret) == 0`. -/
def returnCode (status : WaitStatus) : Int := if status.isClean then 0 else -1

/-- One step. -/
def step (s : State) (e : Event) : Option State :=
  match e with
  | .write stream piece =>
    if (s.channel stream).closed = false ∧ piece ≠ [] then
      some (s.set stream ((s.channel stream).write piece))
    else none
  | .close stream =>
    if (s.channel stream).closed = false then some (s.set stream (s.channel stream).close) else none
  | .exit status => if s.status = none then some { s with status := some status } else none
  | .select =>
    match s.pc with
    | .select =>
      if ((s.channel .stdout).select.inSet || (s.channel .stderr).select.inSet) = true then
        some { s with pc := .readStdout, channel := fun stream => (s.channel stream).select }
      else none
    | .readStdout | .readStderr | .wait | .done _ => none
  | .read n =>
    match s.pc with
    | .readStdout =>
      ((s.channel .stdout).serve n).map fun c => { s.set .stdout c with pc := .readStderr }
    | .readStderr => ((s.channel .stderr).serve n).map fun c => (s.set .stderr c).loopEnd
    | .select | .wait | .done _ => none
  | .wait4 =>
    match s.pc, s.status with
    | .wait, some status => some { s with pc := .done (returnCode status) }
    | _, _ => none

/-- A system call of `comp_load`. -/
def Event.own : Event → Prop
  | select | read _ | wait4 => True
  | write _ _ | close _ | exit _ => False

/-- Behind the loop. -/
def Pc.ended : Pc → Prop
  | wait | done _ => True
  | select | readStdout | readStderr => False

/-! ## One stream -/

/-- A stream is read in order, and marked only at its end. -/
structure Channel.Ok (c : Channel) : Prop where
  written : c.written = c.pieces.flatten ++ c.unread
  str : c.str = (c.pieces.map cstr).flatten
  atEnd : c.atEnd = true → c.closed = true ∧ c.unread = []

/-- A stream that is in the set is not marked, and can be read. -/
def Channel.Ready (c : Channel) : Prop :=
  c.inSet = true → c.atEnd = false ∧ c.readable = true

/-- What is left to do for a stream: its bytes, and its end. -/
def Channel.left (c : Channel) : Nat := c.unread.length + if c.atEnd then 0 else 1

theorem Channel.Ok.write {c : Channel} (hc : c.Ok) (hclosed : c.closed = false)
    (piece : List Char) : (c.write piece).Ok where
  written := by simp [Channel.write, hc.written]
  str := hc.str
  atEnd := fun hend => absurd ((hc.atEnd hend).1.symm.trans hclosed) (by simp)

theorem Channel.Ok.close {c : Channel} (hc : c.Ok) : c.close.Ok where
  written := hc.written
  str := hc.str
  atEnd := fun hend => ⟨rfl, (hc.atEnd hend).2⟩

theorem Channel.Ok.select {c : Channel} (hc : c.Ok) : c.select.Ok :=
  ⟨hc.written, hc.str, hc.atEnd⟩

theorem Channel.Ok.rebuild {c : Channel} (hc : c.Ok) : c.rebuild.Ok :=
  ⟨hc.written, hc.str, hc.atEnd⟩

/-- What one `read_to_string` does. -/
theorem Channel.serve_cases {c c' : Channel} {n : Nat} (h : c.serve n = some c') :
    (c.inSet = false ∧ c' = c) ∨
    (c.inSet = true ∧ c.unread = [] ∧ c.closed = true ∧ c' = { c with atEnd := true }) ∨
    (c.inSet = true ∧ 0 < n ∧ n ≤ c.unread.length ∧ c' = c.readToString n) := by
  unfold Channel.serve at h
  split at h
  · rename_i hin
    split at h
    · rename_i hunread
      obtain ⟨⟨hclosed, _⟩, h⟩ := Option.ite_none_right_eq_some.mp h
      exact Or.inr (Or.inl ⟨hin, hunread, hclosed, (Option.some.inj h).symm⟩)
    · obtain ⟨⟨hpos, _, hle⟩, h⟩ := Option.ite_none_right_eq_some.mp h
      exact Or.inr (Or.inr ⟨hin, hpos, hle, (Option.some.inj h).symm⟩)
  · rename_i hin
    obtain ⟨_, h⟩ := Option.ite_none_right_eq_some.mp h
    exact Or.inl ⟨by simpa using hin, (Option.some.inj h).symm⟩

theorem Channel.Ok.serve {c c' : Channel} {n : Nat} (hc : c.Ok) (hready : c.Ready)
    (h : c.serve n = some c') : c'.Ok := by
  rcases Channel.serve_cases h with ⟨_, rfl⟩ | ⟨_, hunread, hclosed, rfl⟩ | ⟨hin, _, _, rfl⟩
  · exact hc
  · exact ⟨hc.written, hc.str, fun _ => ⟨hclosed, hunread⟩⟩
  · refine ⟨?_, ?_, fun hend => absurd ((hready hin).1.symm.trans hend) (by simp)⟩
    · simp [Channel.readToString, hc.written]
    · simp [Channel.readToString, hc.str]

/-- A stream that can be read is read. -/
theorem Channel.serve_progress {c : Channel} (hready : c.Ready) : ∃ n c', c.serve n = some c' := by
  by_cases hin : c.inSet = true
  · have hreadable := (hready hin).2
    by_cases hunread : c.unread = []
    · have hclosed : c.closed = true := by simpa [Channel.readable, hunread] using hreadable
      exact ⟨0, _, by rw [Channel.serve, if_pos hin, if_pos hunread, if_pos ⟨hclosed, rfl⟩]⟩
    · have hlen : 0 < c.unread.length := List.length_pos_iff.mpr hunread
      refine ⟨1, _, by rw [Channel.serve, if_pos hin, if_neg hunread, if_pos ⟨?_, ?_, hlen⟩]⟩
      · exact Nat.one_pos
      · decide
  · exact ⟨0, c, by rw [Channel.serve, if_neg hin, if_pos rfl]⟩

/-- Each `read_to_string` leaves less to do. -/
theorem Channel.serve_left {c c' : Channel} {n : Nat} (hready : c.Ready)
    (h : c.serve n = some c') :
    (c.inSet = true → c'.left < c.left) ∧ (c.inSet = false → c' = c) := by
  rcases Channel.serve_cases h with ⟨hin, rfl⟩ | ⟨hin, hunread, _, rfl⟩ | ⟨hin, hpos, hle, rfl⟩
  · exact ⟨fun hin' => absurd (hin.symm.trans hin') (by simp), fun _ => rfl⟩
  · refine ⟨fun _ => ?_, fun hin' => absurd (hin.symm.trans hin') (by simp)⟩
    simp [Channel.left, (hready hin).1]
  · refine ⟨fun _ => ?_, fun hin' => absurd (hin.symm.trans hin') (by simp)⟩
    show (c.unread.drop n).length + (if c.atEnd then 0 else 1) < c.left
    rw [Channel.left, List.length_drop]
    omega

/-! ## The loop -/

/-- What holds at each place of the loop. -/
def State.AtPc (s : State) : Prop :=
  match s.pc with
  | .select => s.goesOn = true ∧ ∀ stream, (s.channel stream).inSet = !(s.channel stream).atEnd
  | .readStdout =>
    (∃ stream, (s.channel stream).inSet = true) ∧ ∀ stream, (s.channel stream).Ready
  | .readStderr => (s.channel .stderr).Ready
  | .wait => s.goesOn = false
  | .done ret => s.goesOn = false ∧ ∃ status, s.status = some status ∧ ret = returnCode status

/-- **The invariant** of the loop. -/
structure Inv (s : State) : Prop where
  channel : ∀ stream, (s.channel stream).Ok
  atPc : s.AtPc

theorem start_inv : Inv start where
  channel := fun _ => ⟨rfl, rfl, fun hend => absurd hend Bool.false_ne_true⟩
  atPc := ⟨rfl, fun _ => rfl⟩

theorem State.set_ok {s : State} {stream : Stream} {c : Channel}
    (hs : ∀ stream, (s.channel stream).Ok) (hc : c.Ok) :
    ∀ stream', ((s.set stream c).channel stream').Ok := by
  intro stream'
  by_cases heq : stream' = stream
  · rw [heq]
    simpa [State.set] using hc
  · simpa [State.set, heq] using hs stream'

/-- A step of the module changes nothing that the place in the loop depends on: the streams have the
same marks, and what could be read still can. -/
theorem State.AtPc.set {s : State} {stream : Stream} {c : Channel} (hs : s.AtPc)
    (hin : c.inSet = (s.channel stream).inSet) (hend : c.atEnd = (s.channel stream).atEnd)
    (hreadable : (s.channel stream).readable = true → c.readable = true) :
    (s.set stream c).AtPc := by
  have hsame : ∀ stream', ((s.set stream c).channel stream').inSet = (s.channel stream').inSet ∧
      ((s.set stream c).channel stream').atEnd = (s.channel stream').atEnd ∧
      ((s.channel stream').Ready → ((s.set stream c).channel stream').Ready) := by
    intro stream'
    by_cases heq : stream' = stream
    · subst heq
      simp only [State.set, Function.update_self]
      exact ⟨hin, hend, fun h hin' =>
        ⟨hend.trans (h (hin.symm.trans hin')).1, hreadable (h (hin.symm.trans hin')).2⟩⟩
    · simp [State.set, heq]
  have hgoes : (s.set stream c).goesOn = s.goesOn := by
    unfold State.goesOn
    rw [(hsame .stdout).2.1, (hsame .stderr).2.1]
  unfold State.AtPc at hs ⊢
  have hpc : (s.set stream c).pc = s.pc := rfl
  rw [hpc]
  cases h : s.pc with
  | select =>
    rw [h] at hs
    exact ⟨hgoes.trans hs.1, fun st => by rw [(hsame st).1, (hsame st).2.1, hs.2 st]⟩
  | readStdout =>
    rw [h] at hs
    obtain ⟨⟨st, hst⟩, hready⟩ := hs
    exact ⟨⟨st, (hsame st).1.trans hst⟩, fun st => (hsame st).2.2 (hready st)⟩
  | readStderr =>
    rw [h] at hs
    exact (hsame .stderr).2.2 hs
  | wait =>
    rw [h] at hs
    exact hgoes.trans hs
  | done ret =>
    rw [h] at hs
    exact ⟨hgoes.trans hs.1, hs.2⟩

/-- The loop goes on with the streams that are not marked, or ends if both are. -/
theorem State.loopEnd_atPc (s : State) : s.loopEnd.AtPc := by
  unfold State.loopEnd State.AtPc
  by_cases hgoes : s.goesOn = true
  · rw [if_pos hgoes]
    exact ⟨hgoes, fun _ => rfl⟩
  · rw [if_neg hgoes]
    exact Bool.eq_false_iff.mpr hgoes

/-- **One step** keeps the invariant. -/
theorem step_inv {s s' : State} {e : Event} (hs : Inv s) (h : step s e = some s') : Inv s' := by
  cases e with
  | write stream piece =>
    obtain ⟨⟨hclosed, _⟩, h⟩ := Option.ite_none_right_eq_some.mp h
    obtain rfl := Option.some.inj h
    refine ⟨State.set_ok hs.channel ((hs.channel stream).write hclosed piece),
      hs.atPc.set rfl rfl fun hreadable => ?_⟩
    rw [Channel.readable, hclosed, Bool.or_false, bne_iff_ne] at hreadable
    simp [Channel.readable, Channel.write, hreadable]
  | close stream =>
    obtain ⟨_, h⟩ := Option.ite_none_right_eq_some.mp h
    obtain rfl := Option.some.inj h
    exact ⟨State.set_ok hs.channel (hs.channel stream).close,
      hs.atPc.set rfl rfl fun _ => by simp [Channel.readable, Channel.close]⟩
  | exit status =>
    obtain ⟨hnone, h⟩ := Option.ite_none_right_eq_some.mp h
    obtain rfl := Option.some.inj h
    refine ⟨hs.channel, ?_⟩
    have hat := hs.atPc
    unfold State.AtPc at hat ⊢
    cases hpc : s.pc with
    | done ret =>
      simp only [hpc, hnone] at hat
      exact absurd hat.2 (by simp)
    | select | readStdout | readStderr | wait =>
      simp only [hpc] at hat
      exact hat
  | select =>
    simp only [step] at h
    cases hpc : s.pc with
    | select =>
      simp only [hpc] at h
      obtain ⟨hready, h⟩ := Option.ite_none_right_eq_some.mp h
      obtain rfl := Option.some.inj h
      have hat := hs.atPc
      simp only [State.AtPc, hpc] at hat
      refine ⟨fun stream => (hs.channel stream).select, ?_, fun stream hin => ?_⟩
      · rcases Bool.or_eq_true_iff.mp hready with hin | hin
        · exact ⟨.stdout, hin⟩
        · exact ⟨.stderr, hin⟩
      · obtain ⟨hset, hreadable⟩ := Bool.and_eq_true_iff.mp hin
        rw [hat.2 stream, Bool.not_eq_true'] at hset
        exact ⟨hset, hreadable⟩
    | readStdout | readStderr | wait | done ret => simp [hpc] at h
  | read n =>
    simp only [step] at h
    cases hpc : s.pc with
    | readStdout =>
      simp only [hpc] at h
      obtain ⟨c, hserve, rfl⟩ := Option.map_eq_some_iff.mp h
      have hat := hs.atPc
      simp only [State.AtPc, hpc] at hat
      refine ⟨State.set_ok hs.channel ((hs.channel .stdout).serve (hat.2 .stdout) hserve), ?_⟩
      simpa [State.AtPc, State.set] using hat.2 .stderr
    | readStderr =>
      simp only [hpc] at h
      obtain ⟨c, hserve, rfl⟩ := Option.map_eq_some_iff.mp h
      have hat := hs.atPc
      simp only [State.AtPc, hpc] at hat
      have hok : ∀ stream, ((s.set .stderr c).channel stream).Ok :=
        State.set_ok hs.channel ((hs.channel .stderr).serve hat hserve)
      exact ⟨fun stream => (hok stream).rebuild, State.loopEnd_atPc _⟩
    | select | wait | done ret => simp [hpc] at h
  | wait4 =>
    simp only [step] at h
    cases hpc : s.pc with
    | wait =>
      cases hstatus : s.status with
      | none => simp [hpc, hstatus] at h
      | some status =>
        simp only [hpc, hstatus, Option.some.injEq] at h
        have hat := hs.atPc
        simp only [State.AtPc, hpc] at hat
        rw [← h]
        exact ⟨hs.channel, hat, status, rfl, rfl⟩
    | select | readStdout | readStderr | done ret => simp [hpc] at h

/-- **Every run** keeps the invariant. -/
theorem run_start_inv {es : List Event} {s : State} (h : run step start es = some s) : Inv s :=
  run_inv Inv (fun _ _ _ hs _ => step_inv hs) start_inv (along_true step start es) h

/-! ## The end of the loop -/

/-- A pipe is at end of file. -/
def Channel.AtEof (c : Channel) : Prop := c.closed = true ∧ c.unread = []

/-- What is left to do: three calls for each byte and each end, the rest of the round, and the end of
the module. -/
def State.measure (s : State) : Nat :=
  (match s.pc with
    | .select => 3 * ((s.channel .stdout).left + (s.channel .stderr).left) + 3
    | .readStdout => 3 * ((s.channel .stdout).left + (s.channel .stderr).left) + 2
    | .readStderr => 3 * ((s.channel .stdout).left + (s.channel .stderr).left) +
        if (s.channel .stderr).inSet then 1 else 4
    | .wait | .done _ => 0) +
  if s.status = none then 1 else 0

theorem Channel.serve_closed {c c' : Channel} {n : Nat} (h : c.serve n = some c') :
    c'.closed = c.closed := by
  rcases Channel.serve_cases h with ⟨_, rfl⟩ | ⟨_, _, _, rfl⟩ | ⟨_, _, _, rfl⟩ <;> rfl

theorem State.set_closed {s : State} {stream : Stream} {c : Channel}
    (hs : ∀ stream, (s.channel stream).closed = true) (hc : c.closed = true) :
    ∀ stream', ((s.set stream c).channel stream').closed = true := by
  intro stream'
  by_cases heq : stream' = stream
  · rw [heq]
    simpa [State.set] using hc
  · simpa [State.set, heq] using hs stream'

/-- **One step behind the end of both pipes** leaves less to do. -/
theorem step_measure {s s' : State} {e : Event} (hs : Inv s)
    (hclosed : ∀ stream, (s.channel stream).closed = true) (hloop : ¬ s.pc.ended)
    (h : step s e = some s') :
    (∀ stream, (s'.channel stream).closed = true) ∧ s'.measure < s.measure := by
  cases e with
  | write stream piece =>
    obtain ⟨⟨hopen, _⟩, _⟩ := Option.ite_none_right_eq_some.mp h
    exact absurd (hopen.symm.trans (hclosed stream)) (by simp)
  | close stream =>
    obtain ⟨hopen, _⟩ := Option.ite_none_right_eq_some.mp h
    exact absurd (hopen.symm.trans (hclosed stream)) (by simp)
  | exit status =>
    obtain ⟨hnone, h⟩ := Option.ite_none_right_eq_some.mp h
    obtain rfl := Option.some.inj h
    refine ⟨hclosed, ?_⟩
    unfold State.measure
    rw [if_pos hnone, if_neg (Option.some_ne_none status)]
    exact Nat.lt_succ_self _
  | select =>
    simp only [step] at h
    cases hpc : s.pc with
    | select =>
      simp only [hpc] at h
      obtain ⟨_, h⟩ := Option.ite_none_right_eq_some.mp h
      obtain rfl := Option.some.inj h
      refine ⟨hclosed, ?_⟩
      have hleft : ∀ stream, (s.channel stream).select.left = (s.channel stream).left :=
        fun _ => rfl
      simp only [State.measure, hpc, hleft]
      omega
    | readStdout | readStderr | wait | done ret => simp [hpc] at h
  | read n =>
    simp only [step] at h
    have hat := hs.atPc
    cases hpc : s.pc with
    | readStdout =>
      simp only [hpc] at h
      simp only [State.AtPc, hpc] at hat
      obtain ⟨c, hserve, rfl⟩ := Option.map_eq_some_iff.mp h
      refine ⟨State.set_closed hclosed ((Channel.serve_closed hserve).trans (hclosed _)), ?_⟩
      obtain ⟨hless, hsame⟩ := Channel.serve_left (hat.2 .stdout) hserve
      have hstderr : (s.set .stdout c).channel .stderr = s.channel .stderr := by simp [State.set]
      have hstdout : (s.set .stdout c).channel .stdout = c := by simp [State.set]
      simp only [State.measure, hpc, hstderr, hstdout]
      have hstatus : (s.set .stdout c).status = s.status := rfl
      rw [hstatus]
      by_cases hin : (s.channel .stdout).inSet = true
      · have hlt := hless hin
        split <;> omega
      · -- only the other stream can be read
        obtain ⟨stream, hstream⟩ := hat.1
        have herr : (s.channel .stderr).inSet = true := by
          cases stream with
          | stdout => exact absurd hstream hin
          | stderr => exact hstream
        rw [hsame (Bool.eq_false_iff.mpr hin), if_pos herr]
        omega
    | readStderr =>
      simp only [hpc] at h
      simp only [State.AtPc, hpc] at hat
      obtain ⟨c, hserve, rfl⟩ := Option.map_eq_some_iff.mp h
      refine ⟨State.set_closed hclosed ((Channel.serve_closed hserve).trans (hclosed _)), ?_⟩
      obtain ⟨hless, hsame⟩ := Channel.serve_left hat hserve
      have hleft : ∀ stream, ((s.set .stderr c).loopEnd.channel stream).left =
          ((s.set .stderr c).channel stream).left := fun _ => rfl
      have hstdout : (s.set .stderr c).channel .stdout = s.channel .stdout := by simp [State.set]
      have hstderr : (s.set .stderr c).channel .stderr = c := by simp [State.set]
      have hbound : (s.set .stderr c).loopEnd.measure ≤
          3 * ((s.channel .stdout).left + c.left) + 3 + if s.status = none then 1 else 0 := by
        unfold State.measure
        rw [hleft, hleft, hstdout, hstderr]
        refine Nat.add_le_add ?_ (le_refl _)
        unfold State.loopEnd
        by_cases hgoes : (s.set .stderr c).goesOn = true
        · rw [if_pos hgoes]
        · rw [if_neg hgoes]
          exact Nat.zero_le _
      refine Nat.lt_of_le_of_lt hbound ?_
      simp only [State.measure, hpc]
      by_cases hin : (s.channel .stderr).inSet = true
      · have hlt := hless hin
        rw [if_pos hin]
        omega
      · rw [hsame (Bool.eq_false_iff.mpr hin), if_neg hin]
        omega
    | select | wait | done ret => simp [hpc] at h
  | wait4 =>
    simp only [step] at h
    cases hpc : s.pc with
    | wait =>
      rw [hpc] at hloop
      exact absurd trivial hloop
    | select | readStdout | readStderr | done ret => simp [hpc] at h

/-- **In the loop `comp_load` is not stuck** when both pipes are closed. -/
theorem step_progress {s : State} (hs : Inv s)
    (hclosed : ∀ stream, (s.channel stream).closed = true) (hloop : ¬ s.pc.ended) :
    ∃ e s', e.own ∧ step s e = some s' := by
  have hat := hs.atPc
  unfold State.AtPc at hat
  cases hpc : s.pc with
  | select =>
    simp only [hpc] at hat
    obtain ⟨hgoes, hset⟩ := hat
    have hready : ((s.channel .stdout).select.inSet || (s.channel .stderr).select.inSet) = true := by
      unfold State.goesOn at hgoes
      simp only [Channel.select, Channel.readable, hclosed, hset, Bool.or_true, Bool.and_true]
      rwa [Bool.not_and] at hgoes
    exact ⟨.select, _, trivial, by simp only [step, hpc, if_pos hready]; rfl⟩
  | readStdout =>
    simp only [hpc] at hat
    obtain ⟨n, c, hserve⟩ := Channel.serve_progress (hat.2 .stdout)
    exact ⟨.read n, _, trivial, by simp only [step, hpc, hserve, Option.map_some]; rfl⟩
  | readStderr =>
    simp only [hpc] at hat
    obtain ⟨n, c, hserve⟩ := Channel.serve_progress hat
    exact ⟨.read n, _, trivial, by simp only [step, hpc, hserve, Option.map_some]; rfl⟩
  | wait | done ret =>
    rw [hpc] at hloop
    exact absurd trivial hloop

theorem loop_ends {s : State} (hs : Inv s)
    (hclosed : ∀ stream, (s.channel stream).closed = true) :
    Inevitable step Event.own (fun s => s.pc.ended) s :=
  inevitable_of_measure (fun s => Inv s ∧ ∀ stream, (s.channel stream).closed = true) State.measure
    (fun _ hs hloop => step_progress hs.1 hs.2 hloop)
    (fun _ _ _ hs hloop h =>
      have hstep := step_measure hs.1 hs.2 hloop h
      ⟨⟨step_inv hs.1 h, hstep.1⟩, hstep.2⟩) s ⟨hs, hclosed⟩

/-- Behind the loop both streams were read to their end. -/
theorem Inv.atEof {s : State} (hs : Inv s) (hended : s.pc.ended) (stream : Stream) :
    (s.channel stream).AtEof := by
  have hgoes : s.goesOn = false := by
    have hat := hs.atPc
    unfold State.AtPc at hat
    cases hpc : s.pc with
    | wait =>
      simp only [hpc] at hat
      exact hat
    | done ret =>
      simp only [hpc] at hat
      exact hat.1
    | select | readStdout | readStderr =>
      rw [hpc] at hended
      exact hended.elim
  unfold State.goesOn at hgoes
  obtain ⟨hstdout, hstderr⟩ := Bool.and_eq_true_iff.mp (Bool.not_eq_eq_eq_not.mp hgoes)
  refine (hs.channel stream).atEnd ?_
  cases stream with
  | stdout => exact hstdout
  | stderr => exact hstderr

/-- Without NUL in the output, the string is all that was read. -/
theorem Channel.Ok.str_eq {c : Channel} (hc : c.Ok) (hnul : nul ∉ c.written) :
    c.str = c.pieces.flatten := by
  rw [hc.str]
  congr 1
  refine (List.map_congr_left fun piece hpiece => ?_).trans (List.map_id _)
  refine cstr_eq_self fun hmem => hnul ?_
  rw [hc.written]
  exact List.mem_append_left _ (List.mem_flatten.mpr ⟨piece, hpiece, hmem⟩)

/-- **The output of a loader module is collected completely**: behind the loop both pipes are at end
of file, and the strings are what the module has written to them. The loop ends when both are
closed. -/
theorem loop_collects {es : List Event} {s : State} (hrun : run step start es = some s)
    (hnul : ∀ stream, nul ∉ (s.channel stream).written) :
    (s.pc.ended → ∀ stream, (s.channel stream).AtEof ∧
      (s.channel stream).str = (s.channel stream).written) ∧
    ((∀ stream, (s.channel stream).closed = true) →
      Inevitable step Event.own (fun s => s.pc.ended) s) := by
  have hs := run_start_inv hrun
  refine ⟨fun hended stream => ?_, loop_ends hs⟩
  have heof := hs.atEof hended stream
  refine ⟨heof, ?_⟩
  rw [(hs.channel stream).str_eq (hnul stream), (hs.channel stream).written, heof.2,
    List.append_nil]

/-- A loader module that writes to both streams, in pieces, and closes them. -/
def talkingModule : List Event :=
  [.write .stdout ['o', 'k'], .select, .read 1, .write .stderr ['e'], .read 0, .close .stderr,
    .select, .read 1, .read 1, .close .stdout, .select, .read 0, .read 0]

/-- The rule for the loop, for that module. -/
theorem loop_collects_talkingModule : ∃ s, run step start talkingModule = some s ∧ s.pc = .wait ∧
    ∀ stream, (s.channel stream).AtEof ∧ (s.channel stream).str = (s.channel stream).written := by
  obtain ⟨s, hrun, hpc, hstdout, hstderr⟩ : ∃ s, run step start talkingModule = some s ∧
      s.pc = .wait ∧ (s.channel .stdout).written = ['o', 'k'] ∧
      (s.channel .stderr).written = ['e'] := ⟨_, rfl, rfl, rfl, rfl⟩
  refine ⟨s, hrun, hpc, (loop_collects hrun fun stream => ?_).1 (by rw [hpc]; trivial)⟩
  cases stream with
  | stdout => simp [hstdout, nul]
  | stderr => simp [hstderr, nul]

/-! ## The message of a failure -/

/-- What `comp_load` returns, and what it assigns to `*info` and `*errmsg`, if anything. -/
structure Result where
  ret : Int
  info : Option CStr
  errmsg : Option CStr
  deriving DecidableEq, Repr

/-- A string is assigned if it is not empty. -/
def assigned (str : CStr) : Option CStr := if str.length = 0 then none else some str

/-- The label `cleanup` of `comp_load`. -/
def cleanup (ret : Int) (intInfo intErrmsg : CStr) : Result :=
  ⟨ret, assigned intInfo, assigned intErrmsg⟩

/-- `comp_load`, where the loader module is started and the loop left in the state `s`. -/
def compLoadResult (uri : CStr) (s : State) (ret : Int) : Result :=
  if verifyUriScheme uri then cleanup ret (s.channel .stdout).str (s.channel .stderr).str
  else cleanup (-1) [] "Invalid URI scheme.".toList

/-- The URI scheme is invalid, the module exits with status 0, or one of the pieces that are read from
its standard error does not begin with NUL. -/
def HasMessage (uri : CStr) (s : State) : Prop :=
  verifyUriScheme uri = false ∨ s.status = some (.exited 0) ∨
    ∃ c rest, c ≠ nul ∧ c :: rest ∈ (s.channel .stderr).pieces

/-- The run of the loader module, as its caller sees it. -/
def State.loaderRun (s : State) (ret : Int) (copy : List Char) (left : Option (List Char)) :
    LoaderRun :=
  if ret = 0 then .success copy else .failure left (s.channel .stderr).str

theorem assigned_eq_none {str : CStr} : assigned str = none ↔ str = [] := by
  simp [assigned]

theorem returnCode_eq_zero {status : WaitStatus} : returnCode status = 0 ↔ status = .exited 0 := by
  cases status with
  | exited code =>
    by_cases hcode : code = 0
    · simp [returnCode, WaitStatus.isClean, hcode]
    · simp [returnCode, WaitStatus.isClean, hcode]
  | signaled => simp [returnCode, WaitStatus.isClean]

theorem cstr_eq_nil {mem : List Char} : cstr mem = [] ↔ ¬ ∃ c rest, c ≠ nul ∧ mem = c :: rest := by
  cases mem with
  | nil => simp [cstr]
  | cons c rest => by_cases hc : c = nul <;> simp [cstr, hc]

/-- Behind the loop `int_errmsg` is empty if every piece begins with NUL. -/
theorem Inv.errmsg_eq_nil {s : State} (hs : Inv s) :
    (s.channel .stderr).str = [] ↔
      ¬ ∃ c rest, c ≠ nul ∧ c :: rest ∈ (s.channel .stderr).pieces := by
  rw [(hs.channel .stderr).str, List.flatten_eq_nil_iff]
  constructor
  · rintro hall ⟨c, rest, hc, hmem⟩
    exact cstr_eq_nil.mp (hall _ (List.mem_map_of_mem hmem)) ⟨c, rest, hc, rfl⟩
  · intro hnone str hstr
    obtain ⟨piece, hpiece, rfl⟩ := List.mem_map.mp hstr
    refine cstr_eq_nil.mpr ?_
    rintro ⟨c, rest, hc, rfl⟩
    exact hnone ⟨c, rest, hc, hpiece⟩

theorem Inv.returns {s : State} {ret : Int} (hs : Inv s) (hpc : s.pc = .done ret) :
    ∃ status, s.status = some status ∧ ret = returnCode status := by
  have hat := hs.atPc
  simp only [State.AtPc, hpc] at hat
  exact hat.2

/-- The result has a message, or none is needed, if there is one to be had. -/
theorem compLoadResult_errmsg {uri : CStr} {s : State} {ret : Int} (hs : Inv s)
    (hpc : s.pc = .done ret) :
    ((compLoadResult uri s ret).ret ≠ 0 → (compLoadResult uri s ret).errmsg ≠ none) ↔
      HasMessage uri s := by
  obtain ⟨status, hstatus, rfl⟩ := hs.returns hpc
  unfold compLoadResult HasMessage
  by_cases hscheme : verifyUriScheme uri = true
  · rw [if_pos hscheme]
    simp only [cleanup, Ne, assigned_eq_none, hs.errmsg_eq_nil, returnCode_eq_zero, hscheme, hstatus,
      Option.some.injEq, Bool.true_eq_false, false_or, not_not]
    exact or_iff_not_imp_left.symm
  · rw [if_neg hscheme]
    simp [cleanup, assigned, hscheme]

/-- `comp_load` as its callers see it fails if the result is not zero, with its message. -/
theorem compLoad_loaderRun {os : Os} {dest : String} {uri : CStr} {s : State} {ret : Int}
    {copy : List Char} {left : Option (List Char)} {sys sys' : Sys}
    {r : Except Stop (Except (Option CStr) Unit)}
    (hmodule : os.loaderModule dest uri = s.loaderRun ret copy left)
    (h : (compLoad os dest uri).Runs sys r sys') :
    r = .ok (if (compLoadResult uri s ret).ret = 0 then .ok ()
      else .error (compLoadResult uri s ret).errmsg) := by
  unfold compLoad at h
  unfold compLoadResult
  by_cases hscheme : verifyUriScheme uri = true
  · rw [if_pos hscheme, hmodule] at h
    rw [if_pos hscheme]
    unfold State.loaderRun at h
    by_cases hret : ret = 0
    · simp only [if_pos hret, Routine.runs_bind, Routine.runs_modify, Routine.runs_pure] at h
      obtain ⟨_, _, _, rfl, _⟩ | ⟨_, ⟨hbad, _⟩, _⟩ := h
      · simp [cleanup, hret]
      · exact absurd hbad (by simp)
    · simp only [if_neg hret, Routine.runs_bind, Routine.runs_modify, Routine.runs_pure] at h
      obtain ⟨_, _, _, rfl, _⟩ | ⟨_, ⟨hbad, _⟩, _⟩ := h
      · simp [cleanup, assigned, hret]
      · exact absurd hbad (by simp)
  · rw [if_neg hscheme] at h ⊢
    obtain ⟨rfl, _⟩ := Routine.runs_pure.mp h
    rfl

/-- `prepare_config_command_line` prints an unassigned pointer if the parmfile cannot be loaded and
there is no message. -/
theorem prepareConfigCommandLine_overrun {os : Os} {boot : CfgBentry} {sys : Sys} :
    (∃ sys', (prepareConfigCommandLine os boot).Runs sys (.error .overrun) sys') ↔
      boot.parmfile ≠ [] ∧ ∃ sys', (compLoad os sysloadFilenameParmfile
        (prefixRoot boot.root boot.parmfile)).Runs sys (.ok (.error none)) sys' := by
  unfold prepareConfigCommandLine
  by_cases hparm : boot.parmfile = []
  · simp [hparm]
  rw [if_pos hparm]
  constructor
  · rintro ⟨sys', h⟩
    refine ⟨hparm, ?_⟩
    rcases Routine.runs_bind.mp h with ⟨r, sys₁, hload, h⟩ | ⟨_, hload, _⟩
    · rcases r with (_ | msg) | _
      · exact ⟨sys₁, hload⟩
      · exact absurd (Routine.runs_throw.mp h).1 (by simp)
      · obtain ⟨msg, hmsg⟩ := composeCommandline_error os h
        exact absurd hmsg (by simp)
    · obtain ⟨hbad, _⟩ | ⟨_, hbad, _⟩ := compLoad_runs os hload <;> exact absurd hbad (by simp)
  · rintro ⟨_, sys', hload⟩
    exact ⟨sys', Routine.runs_bind.mpr (Or.inl ⟨_, _, hload, Routine.runs_throw.mpr ⟨rfl, rfl⟩⟩)⟩

/-- **A failure has a message** if the URI scheme is invalid, or if the loader module prints one.
Otherwise `prepare_config_command_line` prints a pointer that was never assigned. -/
theorem errmsg_assigned_iff {uri : CStr} {es : List Event} {s : State} {ret : Int}
    (hrun : run step start es = some s) (hpc : s.pc = .done ret) :
    (((compLoadResult uri s ret).ret ≠ 0 → (compLoadResult uri s ret).errmsg ≠ none) ↔
      HasMessage uri s) ∧
    ∀ (os : Os) (boot : CfgBentry) (copy : List Char) (left : Option (List Char)) (sys : Sys),
      boot.parmfile ≠ [] → prefixRoot boot.root boot.parmfile = uri →
      os.loaderModule sysloadFilenameParmfile uri = s.loaderRun ret copy left →
      ((¬ ∃ sys', (prepareConfigCommandLine os boot).Runs sys (.error .overrun) sys') ↔
        HasMessage uri s) := by
  have hmessage := @compLoadResult_errmsg uri s ret (run_start_inv hrun) hpc
  refine ⟨hmessage, fun os boot copy left sys hparm huri hmodule => ?_⟩
  rw [prepareConfigCommandLine_overrun, ← hmessage, huri]
  obtain ⟨r, sys', hload⟩ := compLoad_total os sysloadFilenameParmfile uri sys
  have hr := compLoad_loaderRun hmodule hload
  constructor
  · intro hnone hret herrmsg
    rw [if_neg hret, herrmsg] at hr
    exact hnone ⟨hparm, sys', hr ▸ hload⟩
  · rintro hassigned ⟨_, sys₁, hload₁⟩
    have hr₁ := compLoad_loaderRun hmodule hload₁
    by_cases hret : (compLoadResult uri s ret).ret = 0
    · rw [if_pos hret] at hr₁
      exact absurd hr₁ (by simp)
    · rw [if_neg hret] at hr₁
      exact hassigned hret (Except.error.inj (Except.ok.inj hr₁)).symm

/-- A loader module that fails without a word. -/
def silentModule : List Event :=
  [.close .stdout, .close .stderr, .exit (.exited 1), .select, .read 0, .read 0, .wait4]

/-- A boot entry with a parmfile. -/
def parmfileBoot : CfgBentry := { CfgBentry.init with parmfile := "ftp://host/parmfile".toList }

/-- The system with that loader module. -/
def silentOs : Os := { Os.willing with loaderModule := fun _ _ => .failure none [] }

theorem silentModule_runs : ∃ s, run step start silentModule = some s ∧ s.pc = .done (-1) ∧
    s.loaderRun (-1) [] none = .failure none [] ∧
    (compLoadResult parmfileBoot.parmfile s (-1)) = ⟨-1, none, none⟩ :=
  ⟨_, rfl, rfl, rfl, rfl⟩

/-- The rule holds of the run of the silent module. -/
theorem errmsg_assigned_iff_silentModule : ∃ s, run step start silentModule = some s ∧
    (((compLoadResult parmfileBoot.parmfile s (-1)).ret ≠ 0 →
        (compLoadResult parmfileBoot.parmfile s (-1)).errmsg ≠ none) ↔
      HasMessage parmfileBoot.parmfile s) := by
  obtain ⟨s, hrun, hpc, _⟩ := silentModule_runs
  exact ⟨s, hrun, (errmsg_assigned_iff hrun hpc).1⟩

/-- **A silent failure**: nothing is assigned, and `prepare_config_command_line` prints the pointer. -/
theorem silentModule_unassigned : ∃ s, run step start silentModule = some s ∧ s.pc = .done (-1) ∧
    (compLoadResult parmfileBoot.parmfile s (-1)).ret ≠ 0 ∧
    (compLoadResult parmfileBoot.parmfile s (-1)).errmsg = none ∧
    silentOs.loaderModule sysloadFilenameParmfile parmfileBoot.parmfile =
      s.loaderRun (-1) [] none ∧
    ∃ sys', (prepareConfigCommandLine silentOs parmfileBoot).Runs Sys.boot (.error .overrun) sys' := by
  obtain ⟨s, hrun, hpc, hmodule, hresult⟩ := silentModule_runs
  refine ⟨s, hrun, hpc, by rw [hresult]; simp, by rw [hresult], hmodule.symm, ?_⟩
  refine prepareConfigCommandLine_overrun.mpr ⟨by simp [parmfileBoot], ?_⟩
  have huri : prefixRoot parmfileBoot.root parmfileBoot.parmfile = parmfileBoot.parmfile := rfl
  obtain ⟨r, sys', hload⟩ := compLoad_total silentOs sysloadFilenameParmfile parmfileBoot.parmfile
    Sys.boot
  have hr := compLoad_loaderRun hmodule.symm hload
  rw [hresult, if_neg (by simp)] at hr
  exact ⟨sys', huri ▸ hr ▸ hload⟩

end Sysload.Collect
