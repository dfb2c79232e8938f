import Sysload.Config
import Sysload.Lib.Run
import Mathlib.Data.Fin.Basic
import Mathlib.Data.List.FinRange

/-!
# The loop over the user interfaces (`ui_control.c`)

`userinterface()` starts the user interface modules as child processes and waits for the first of
them that exits successfully with a boot entry on its standard output. Parent and clients run side
by side: a step is a system call of the parent or of a client, and the position of the parent in its
loop is part of the state (`Pc`).

* A client writes its output to its own pipe, in any number of pieces, and exits.
* `kill(pid, 0)` finds a client until the parent has reaped it.
* The descriptors of the pipes are in the order of the clients, and below `FD_SETSIZE`.
* `parsedWhole` remembers that the collected string was parsed when nothing was left to read; the C
  code has no such record, and nothing here depends on it.

Source: `src/core/ui_control.h`; `src/core/ui_control.c`, `build_waitset`,
`remove_terminated_clients`, `read_from_client`, `check_input_from_client` and the loop of
`userinterface`. Out of scope are `search_for_client` and a `read` that fails.

Results:
* `step_inv`: a reaped client is on record, and accounted for.
* **`selection_not_lost`**: in a run in which no client is reaped too early, every selection at the
  head of the loop is parsed or still waited for.
* `reaped_by_another`: a client that is reaped when another one is serviced is lost.
-/

namespace Sysload.UiControl

/-! ## Clients and parent -/

/-- How a process has ended: with an exit code, or by a signal. -/
inductive WaitStatus where
  | exited (code : Nat)
  | signaled
  deriving DecidableEq, Repr

/-- `WIFEXITED(status) && WEXITSTATUS(status) == 0`. -/
def WaitStatus.isClean : WaitStatus → Bool
  | exited code => code == 0
  | signaled => false

/-- A client process: it has some output left to write, has exited, or was reaped by its parent. -/
inductive Process where
  | running (toWrite : List Char)
  | zombie (status : WaitStatus)
  | reaped (status : WaitStatus)
  deriving DecidableEq, Repr

/-- The status of a process that has ended. -/
def Process.status? : Process → Option WaitStatus
  | running _ => none
  | zombie status | reaped status => some status

/-- The process has ended, and was not reaped yet. -/
def Process.isZombie : Process → Bool
  | zombie _ => true
  | running _ | reaped _ => false

/-- `enum ui_status`. -/
inductive UiStatus where
  | running
  | cleanExit
  | problemExit
  deriving DecidableEq, Repr

/-- `struct ui_info`, with the process and the unread bytes of its pipe. -/
structure UiInfo where
  process : Process
  pipe : List Char
  collectedStr : CStr
  status : UiStatus
  parsedWhole : Bool
  deriving DecidableEq, Repr

/-- Where the parent is: at the head of the loop, in `ui_select` with a wait set, going through the
descriptors that are ready, in `remove_terminated_clients` or behind it for one of them, or behind the
loop. -/
inductive Pc (n : Nat) where
  | head
  | select (waitset : Fin n → Bool)
  | scan (ready : List (Fin n))
  | reap (cnr : Fin n) (ready : List (Fin n))
  | parse (cnr : Fin n) (ready : List (Fin n))
  | leave (selected : Option (Fin n))

/-- The parent and its `n` clients. -/
structure State (n : Nat) where
  pc : Pc n
  clients : Fin n → UiInfo
  endtime : Nat

/-- The steps of clients and parent. -/
inductive Event (n : Nat) where
  | write (i : Fin n) (piece : List Char)
  | exit (i : Fin n) (status : WaitStatus)
  | build
  | ready
  | sigusr1
  | alarm
  | selectFailed
  | scanned
  | read
  | reap (i : Fin n)
  | reapedAll
  | parse

variable {n : Nat}

/-- `build_waitset`: the clients that exist. -/
def buildWaitset (clients : Fin n → UiInfo) (i : Fin n) : Bool :=
  match (clients i).process with
  | .running _ | .zombie _ => true
  | .reaped _ => false

/-- A `read` of the pipe does not block: there are bytes, or the client has closed its end. -/
def UiInfo.readable (c : UiInfo) : Bool := c.pipe != [] || c.process.status?.isSome

/-- `read_from_client`. The string that is appended ends at the first NUL. -/
def UiInfo.readFromClient (c : UiInfo) : UiInfo :=
  { c with
    collectedStr := c.collectedStr ++ cstr (c.pipe.take cfgStrMaxLen)
    pipe := c.pipe.drop cfgStrMaxLen }

/-- `waitpid` returns the client. -/
def UiInfo.reap (c : UiInfo) (status : WaitStatus) : UiInfo :=
  { c with
    process := .reaped status
    status := if status.isClean then .cleanExit else .problemExit }

/-- The collected string is parsed. -/
def UiInfo.parsed (c : UiInfo) : UiInfo :=
  { c with parsedWhole := c.parsedWhole || c.pipe == [] }

/-- Client `i` changes to `c`. -/
def State.setClient (s : State n) (i : Fin n) (c : UiInfo) : State n :=
  { s with clients := Function.update s.clients i c }

variable (parseSysloadBootEntry : CStr → Bool)

/-- One step. -/
def step (s : State n) (e : Event n) : Option (State n) :=
  match e with
  | .write i piece =>
    match (s.clients i).process with
    | .running toWrite =>
      if piece ≠ [] ∧ toWrite.take piece.length = piece then
        some (s.setClient i { s.clients i with
          process := .running (toWrite.drop piece.length)
          pipe := (s.clients i).pipe ++ piece })
      else none
    | _ => none
  | .exit i status =>
    if (s.clients i).process = .running [] then
      some (s.setClient i { s.clients i with process := .zombie status })
    else none
  | .build =>
    match s.pc with
    | .head => some { s with pc := .select (buildWaitset s.clients) }
    | _ => none
  | .ready =>
    match s.pc with
    | .select waitset =>
      let ready := (List.finRange n).filter fun i => waitset i && (s.clients i).readable
      if ready = [] then none else some { s with pc := .scan ready }
    | _ => none
  | .sigusr1 =>
    match s.pc with
    | .select _ => some { s with pc := .head, endtime := 0 }
    | _ => none
  | .alarm =>
    match s.pc with
    | .select _ => if 0 < s.endtime then some { s with pc := .leave none } else none
    | _ => none
  | .selectFailed =>
    match s.pc with
    | .select _ => some { s with pc := .leave none }
    | _ => none
  | .scanned =>
    match s.pc with
    | .scan [] => some { s with pc := .head }
    | _ => none
  | .read =>
    match s.pc with
    | .scan (cnr :: rest) =>
      if (s.clients cnr).readable then
        some { s.setClient cnr (s.clients cnr).readFromClient with pc := .reap cnr rest }
      else none
    | _ => none
  | .reap i =>
    match s.pc, (s.clients i).process with
    | .reap _ _, .zombie status => some (s.setClient i ((s.clients i).reap status))
    | _, _ => none
  | .reapedAll =>
    match s.pc with
    | .reap cnr rest =>
      if ∀ i, (s.clients i).process.isZombie = false then
        some { s with pc := .parse cnr rest }
      else none
    | _ => none
  | .parse =>
    match s.pc with
    | .parse cnr rest =>
      if (s.clients cnr).status = .cleanExit then
        if parseSysloadBootEntry (s.clients cnr).collectedStr then
          some { s.setClient cnr (s.clients cnr).parsed with pc := .leave (some cnr) }
        else some { s.setClient cnr (s.clients cnr).parsed with pc := .scan rest }
      else some { s with pc := .scan rest }
    | _ => none

/-- The state after all clients were started. -/
def State.start (outputs : Fin n → List Char) (timeout : Nat) : State n where
  pc := .head
  clients i := ⟨.running (outputs i), [], [], .running, false⟩
  endtime := timeout

/-! ## What is not lost -/

/-- Every client that exited with status 0, and has unread bytes in its pipe or whose output was not
parsed as a whole, is in the next wait set. -/
def State.NoSelectionLost (s : State n) : Prop :=
  ∀ i status, (s.clients i).process.status? = some status → status.isClean = true →
    (s.clients i).pipe ≠ [] ∨ (s.clients i).parsedWhole = false →
      buildWaitset s.clients i = true

/-- A client that is reaped after a successful exit is either being serviced, and its output was
read, or its turn in this pass over the descriptors is still to come. -/
def State.ReapsInTime (s : State n) (e : Event n) : Prop :=
  ∀ i status cnr rest, e = .reap i → s.pc = .reap cnr rest →
    (s.clients i).process = .zombie status → status.isClean = true →
      (i = cnr ∧ (s.clients i).pipe = []) ∨ i ∈ rest

/-- The bytes a process has left to write. -/
def Process.toWrite : Process → List Char
  | running toWrite => toWrite
  | zombie _ | reaped _ => []

/-- The status that the parent has on record for a process. -/
def Process.uiStatus : Process → UiStatus
  | running _ | zombie _ => .running
  | reaped status => if status.isClean then .cleanExit else .problemExit

/-- The client was reaped after a successful exit. -/
def UiInfo.ReapedClean (c : UiInfo) : Prop :=
  ∃ status, c.process = .reaped status ∧ status.isClean = true

/-- Client `i` is accounted for, from where the parent is: its output was parsed as a whole, or it
is being serviced and its output was read, or its turn is still to come. -/
def Pc.Accounts (i : Fin n) (c : UiInfo) (pc : Pc n) : Prop :=
  (c.pipe = [] ∧ c.parsedWhole = true) ∨
    match pc with
    | .head | .select _ => False
    | .scan ready => i ∈ ready
    | .reap cnr rest | .parse cnr rest => (i = cnr ∧ c.pipe = []) ∨ i ∈ rest
    | .leave _ => True

/-- What is kept of a client: its output can be read at once, the record of the parent is right, and
a client that is gone is accounted for. -/
structure Kept (pc : Pc n) (i : Fin n) (c : UiInfo) : Prop where
  room : c.pipe.length + c.process.toWrite.length ≤ cfgStrMaxLen
  record : c.status = c.process.uiStatus
  accounted : c.ReapedClean → pc.Accounts i c

/-- The invariant of the loop. -/
def Inv (s : State n) : Prop := ∀ i, Kept s.pc i (s.clients i)

theorem Kept.of_accounts {pc pc' : Pc n} {i : Fin n} {c : UiInfo} (h : Kept pc i c)
    (hpc : pc.Accounts i c → pc'.Accounts i c) : Kept pc' i c :=
  ⟨h.room, h.record, fun hc => hpc (h.accounted hc)⟩

/-- A client and the position of the parent change. -/
theorem Inv.setClient {s : State n} (h : Inv s) {i : Fin n} {c : UiInfo} {pc : Pc n}
    (hi : Kept pc i c) (hpc : ∀ j, j ≠ i → ∀ c', s.pc.Accounts j c' → pc.Accounts j c')
    (endtime : Nat) : Inv ⟨pc, Function.update s.clients i c, endtime⟩ := by
  intro j
  by_cases hj : j = i
  · subst hj
    show Kept pc j (Function.update s.clients j c j)
    rw [Function.update_self]
    exact hi
  · show Kept pc j (Function.update s.clients i c j)
    rw [Function.update_of_ne hj]
    exact (h j).of_accounts (hpc j hj _)

/-- Only the position of the parent changes. -/
theorem Inv.setPc {s : State n} (h : Inv s) {pc : Pc n}
    (hpc : ∀ i c, s.pc.Accounts i c → pc.Accounts i c) (endtime : Nat) :
    Inv ⟨pc, s.clients, endtime⟩ := fun i => (h i).of_accounts (hpc i _)

theorem inv_start {outputs : Fin n → List Char} {timeout : Nat}
    (h : ∀ i, (outputs i).length ≤ cfgStrMaxLen) : Inv (State.start outputs timeout) := by
  intro i
  refine ⟨by simpa [State.start, Process.toWrite] using h i, rfl, ?_⟩
  rintro ⟨status, hbad, _⟩
  exact absurd hbad (by simp [State.start])

/-! ## Steps keep the invariant -/

/-- A client that is not reaped has nothing to be accounted for. -/
theorem not_reapedClean {c : UiInfo} (h : ∀ status, c.process ≠ .reaped status) :
    ¬ c.ReapedClean := fun ⟨status, hreaped, _⟩ => h status hreaped

theorem write_inv {s s' : State n} {i : Fin n} {piece : List Char} (hs : Inv s)
    (h : step parseSysloadBootEntry s (.write i piece) = some s') : Inv s' := by
  unfold step at h
  cases hp : (s.clients i).process with
  | zombie status | reaped status => simp [hp] at h
  | running toWrite =>
    simp only [hp] at h
    split at h
    · rename_i hpiece
      cases h
      refine hs.setClient ⟨?_, ?_, fun hc => ?_⟩ (fun _ _ _ hacc => hacc) s.endtime
      · have hroom := (hs i).room
        have hlen : piece.length ≤ toWrite.length := by
          have := congrArg List.length hpiece.2
          rw [List.length_take] at this
          omega
        rw [hp] at hroom
        simp only [Process.toWrite, List.length_append, List.length_drop] at hroom ⊢
        omega
      · exact (hs i).record.trans (by rw [hp]; rfl)
      · exact absurd hc (not_reapedClean (by simp))
    · exact absurd h (by simp)

theorem exit_inv {s s' : State n} {i : Fin n} {status : WaitStatus} (hs : Inv s)
    (h : step parseSysloadBootEntry s (.exit i status) = some s') : Inv s' := by
  simp only [step] at h
  split at h
  · rename_i hp
    cases h
    refine hs.setClient ⟨?_, ?_, fun hc => ?_⟩ (fun _ _ _ hacc => hacc) s.endtime
    · have hroom := (hs i).room
      rw [hp] at hroom
      exact hroom
    · exact (hs i).record.trans (by rw [hp]; rfl)
    · exact absurd hc (not_reapedClean (by simp))
  · exact absurd h (by simp)

/-- The read takes everything there is, as the output of a client is short enough. -/
theorem read_inv {s s' : State n} (hs : Inv s)
    (h : step parseSysloadBootEntry s .read = some s') : Inv s' := by
  simp only [step] at h
  split at h
  · rename_i cnr rest hpc
    split at h
    · cases h
      have hempty : (s.clients cnr).readFromClient.pipe = [] :=
        List.drop_eq_nil_of_le (by have := (hs cnr).room; omega)
      have hroom : (s.clients cnr).readFromClient.pipe.length +
          (s.clients cnr).process.toWrite.length ≤ cfgStrMaxLen := by
        have := (hs cnr).room
        rw [hempty, List.length_nil]
        omega
      have hkept : Kept (Pc.reap cnr rest) cnr (s.clients cnr).readFromClient :=
        ⟨hroom, (hs cnr).record, fun _ => Or.inr (Or.inl ⟨rfl, hempty⟩)⟩
      refine hs.setClient hkept (fun j hj c hacc => ?_) s.endtime
      rw [hpc] at hacc
      rcases hacc with hdone | hmem
      · exact Or.inl hdone
      · exact Or.inr (Or.inr ((List.mem_cons.mp hmem).resolve_left hj))
    · exact absurd h (by simp)
  · exact absurd h (by simp)

/-- **Reaping in time** leaves no client unaccounted for. -/
theorem reap_inv {s s' : State n} {i : Fin n} (hs : Inv s) (hin : s.ReapsInTime (.reap i))
    (h : step parseSysloadBootEntry s (.reap i) = some s') : Inv s' := by
  simp only [step] at h
  split at h
  · rename_i cnr rest status hpc hp
    cases h
    refine hs.setClient ⟨?_, ?_, ?_⟩ (fun _ _ _ hacc => hacc) s.endtime
    · have hroom := (hs i).room
      rw [hp] at hroom
      exact hroom
    · rfl
    · rintro ⟨status', hreaped, hclean⟩
      cases hreaped
      rw [hpc]
      exact Or.inr (hin i status cnr rest rfl hpc hp hclean)
  · exact absurd h (by simp)

theorem parse_inv {s s' : State n} (hs : Inv s)
    (h : step parseSysloadBootEntry s .parse = some s') : Inv s' := by
  simp only [step] at h
  split at h
  · rename_i cnr rest hpc
    have hparsed : ∀ c, (Pc.parse cnr rest).Accounts cnr c →
        (Pc.scan rest).Accounts cnr c.parsed := by
      rintro c (⟨hempty, hwhole⟩ | ⟨_, hempty⟩ | hmem)
      · exact Or.inl ⟨hempty, by simp [UiInfo.parsed, hwhole]⟩
      · exact Or.inl ⟨hempty, by simp [UiInfo.parsed, hempty]⟩
      · exact Or.inr hmem
    have hother : ∀ j, j ≠ cnr → ∀ c, s.pc.Accounts j c → (Pc.scan rest).Accounts j c := by
      intro j hj c hacc
      rw [hpc] at hacc
      rcases hacc with hdone | ⟨heq, _⟩ | hmem
      · exact Or.inl hdone
      · exact absurd heq hj
      · exact Or.inr hmem
    split at h
    · split at h
      · cases h
        have hkept : Kept (Pc.leave (some cnr)) cnr (s.clients cnr).parsed :=
          ⟨(hs cnr).room, (hs cnr).record, fun _ => Or.inr trivial⟩
        exact hs.setClient hkept (fun _ _ _ _ => Or.inr trivial) s.endtime
      · cases h
        have hkept : Kept (Pc.scan rest) cnr (s.clients cnr).parsed :=
          ⟨(hs cnr).room, (hs cnr).record, fun hc => hparsed _ (hpc ▸ (hs cnr).accounted hc)⟩
        exact hs.setClient hkept hother s.endtime
    · rename_i hstatus
      cases h
      intro j
      by_cases hj : j = cnr
      · subst hj
        refine ⟨(hs j).room, (hs j).record, ?_⟩
        rintro ⟨status, hreaped, hclean⟩
        refine absurd ((hs j).record.trans ?_) hstatus
        rw [hreaped]
        exact if_pos hclean
      · exact (hs j).of_accounts (hother j hj _)
  · exact absurd h (by simp)

/-- In `ui_select` and at the head of the loop, and before an empty rest of the descriptors, there is
nothing to come. -/
theorem accounts_of_select {waitset : Fin n → Bool} {i : Fin n} {c : UiInfo}
    (h : (Pc.select waitset).Accounts i c) (pc : Pc n) : pc.Accounts i c :=
  h.elim Or.inl False.elim

theorem accounts_of_head {i : Fin n} {c : UiInfo} (h : Pc.head.Accounts i c) (pc : Pc n) :
    pc.Accounts i c := h.elim Or.inl False.elim

theorem accounts_of_scan_nil {i : Fin n} {c : UiInfo} (h : (Pc.scan []).Accounts i c) (pc : Pc n) :
    pc.Accounts i c := h.elim Or.inl fun hmem => absurd hmem List.not_mem_nil

/-- The steps of the parent that change nothing but its position. -/
theorem parent_inv {s s' : State n} {e : Event n} (hs : Inv s)
    (he : e = .build ∨ e = .ready ∨ e = .sigusr1 ∨ e = .alarm ∨ e = .selectFailed ∨ e = .scanned ∨
      e = .reapedAll) (h : step parseSysloadBootEntry s e = some s') : Inv s' := by
  suffices ∃ pc endtime, s' = ⟨pc, s.clients, endtime⟩ ∧
      ∀ i c, s.pc.Accounts i c → pc.Accounts i c by
    obtain ⟨pc, endtime, rfl, hpc⟩ := this
    exact hs.setPc hpc endtime
  cases hs : s.pc with
  | head =>
    refine ⟨s'.pc, s'.endtime, ?_, fun i c hacc => accounts_of_head hacc _⟩
    rcases he with rfl | rfl | rfl | rfl | rfl | rfl | rfl <;> simp [step, hs] at h
    rw [← h]
  | select waitset =>
    refine ⟨s'.pc, s'.endtime, ?_, fun i c hacc => accounts_of_select hacc _⟩
    rcases he with rfl | rfl | rfl | rfl | rfl | rfl | rfl <;> simp only [step, hs] at h
    · exact absurd h (by simp)
    · split at h
      · exact absurd h (by simp)
      · rw [← Option.some.inj h]
    · rw [← Option.some.inj h]
    · split at h
      · rw [← Option.some.inj h]
      · exact absurd h (by simp)
    · rw [← Option.some.inj h]
    · exact absurd h (by simp)
    · exact absurd h (by simp)
  | scan ready =>
    rcases he with rfl | rfl | rfl | rfl | rfl | rfl | rfl <;> simp only [step, hs] at h
    case inr.inr.inr.inr.inr.inl =>
      split at h
      · rename_i hnil
        cases hnil
        exact ⟨s'.pc, s'.endtime, by rw [← Option.some.inj h],
          fun i c hacc => accounts_of_scan_nil hacc _⟩
      · exact absurd h (by simp)
    all_goals exact absurd h (by simp)
  | reap cnr rest =>
    rcases he with rfl | rfl | rfl | rfl | rfl | rfl | rfl <;> simp only [step, hs] at h
    case inr.inr.inr.inr.inr.inr =>
      split at h
      · refine ⟨.parse cnr rest, s'.endtime, by rw [← Option.some.inj h], fun i c hacc => hacc⟩
      · exact absurd h (by simp)
    all_goals exact absurd h (by simp)
  | parse cnr rest =>
    rcases he with rfl | rfl | rfl | rfl | rfl | rfl | rfl <;> simp [step, hs] at h
  | leave selected =>
    rcases he with rfl | rfl | rfl | rfl | rfl | rfl | rfl <;> simp [step, hs] at h

/-- **Every step keeps the invariant**, if no client is reaped too early. -/
theorem step_inv {s s' : State n} {e : Event n} (hs : Inv s) (hin : s.ReapsInTime e)
    (h : step parseSysloadBootEntry s e = some s') : Inv s' := by
  cases e with
  | write i piece => exact write_inv parseSysloadBootEntry hs h
  | exit i status => exact exit_inv parseSysloadBootEntry hs h
  | read => exact read_inv parseSysloadBootEntry hs h
  | reap i => exact reap_inv parseSysloadBootEntry hs hin h
  | parse => exact parse_inv parseSysloadBootEntry hs h
  | build | ready | sigusr1 | alarm | selectFailed | scanned | reapedAll =>
    exact parent_inv parseSysloadBootEntry hs (by simp) h

/-- At the head of the loop a client that is accounted for was parsed. -/
theorem noSelectionLost_of_inv {s : State n} (hs : Inv s) (hhead : s.pc = .head) :
    s.NoSelectionLost := by
  intro i status hstatus hclean hopen
  unfold buildWaitset
  cases hp : (s.clients i).process with
  | running toWrite | zombie status' => rfl
  | reaped status' =>
    rw [hp] at hstatus
    cases hstatus
    have hacc := (hs i).accounted ⟨status, hp, hclean⟩
    rw [hhead] at hacc
    rcases hacc with ⟨hempty, hwhole⟩ | hfalse
    · rcases hopen with hpipe | hparsed
      · exact absurd hempty hpipe
      · exact absurd (hwhole.symm.trans hparsed) (by simp)
    · exact hfalse.elim

/-- **No selection is lost** in a run in which no client is reaped too early: at the head of the loop
every client that exited with status 0, and has unread bytes or whose output was not parsed as a
whole, is in the next wait set. -/
theorem selection_not_lost {outputs : Fin n → List Char} {timeout : Nat} {es : List (Event n)}
    {s : State n} (hlen : ∀ i, (outputs i).length ≤ cfgStrMaxLen)
    (hin : Along (step parseSysloadBootEntry) State.ReapsInTime (State.start outputs timeout) es)
    (hrun : run (step parseSysloadBootEntry) (State.start outputs timeout) es = some s)
    (hhead : s.pc = .head) : s.NoSelectionLost :=
  noSelectionLost_of_inv
    (run_inv Inv (fun _ _ _ hs hin h => step_inv parseSysloadBootEntry hs hin h) (inv_start hlen)
      hin hrun) hhead

/-- A run of two clients: client 0 is serviced when its output and its exit are there, and then client 1
writes its output and exits. -/
def promptRun : List (Event 2) :=
  [.write 0 ['a'], .exit 0 (.exited 0), .build, .ready, .read, .reap 0, .reapedAll, .parse, .scanned,
    .write 1 ['b'], .exit 1 (.exited 0)]

/-- What the clients of the run write. -/
def promptOutputs (i : Fin 2) : List Char := if i = 0 then ['a'] else ['b']

theorem reapsInTime_of_ne {s : State n} {e : Event n} (he : ∀ i, e ≠ .reap i) :
    s.ReapsInTime e := fun i _ _ _ heq => absurd heq (he i)

/-- Client 1 is in the next wait set. -/
theorem selection_not_lost_promptRun :
    ∃ s, run (step fun _ => false) (State.start promptOutputs 0) promptRun = some s ∧
      (s.clients 1).process = .zombie (.exited 0) ∧ buildWaitset s.clients 1 = true := by
  obtain ⟨s, hrun, hhead, hzombie, hpipe⟩ :
      ∃ s, run (step fun _ => false) (State.start promptOutputs 0) promptRun = some s ∧
        s.pc = .head ∧ (s.clients 1).process = .zombie (.exited 0) ∧ (s.clients 1).pipe = ['b'] :=
    ⟨_, rfl, rfl, rfl, rfl⟩
  have hin : Along (step fun _ => false) State.ReapsInTime (State.start promptOutputs 0)
      promptRun := by
    refine .cons (reapsInTime_of_ne (by simp)) rfl <| .cons (reapsInTime_of_ne (by simp)) rfl <|
      .cons (reapsInTime_of_ne (by simp)) rfl <| .cons (reapsInTime_of_ne (by simp)) rfl <|
      .cons (reapsInTime_of_ne (by simp)) rfl <| .cons ?_ rfl <|
      .cons (reapsInTime_of_ne (by simp)) rfl <| .cons (reapsInTime_of_ne (by simp)) rfl <|
      .cons (reapsInTime_of_ne (by simp)) rfl <| .cons (reapsInTime_of_ne (by simp)) rfl <|
      .cons (reapsInTime_of_ne (by simp)) rfl trivial
    -- client 0 is the one that is serviced
    intro i status cnr rest hevent hpc _ _
    cases hevent
    cases hpc
    exact Or.inl ⟨rfl, rfl⟩
  have hkept := @selection_not_lost 2 (fun _ => false) promptOutputs 0 promptRun s
    (by decide) hin hrun hhead
  refine ⟨s, hrun, hzombie, hkept 1 (.exited 0) ?_ rfl (Or.inl ?_)⟩
  · rw [hzombie]
    rfl
  · rw [hpipe]
    exact List.cons_ne_nil _ _

/-- A run of two clients: client 1 writes its output and exits while client 0 is serviced. -/
def overtakenRun : List (Event 2) :=
  [.build, .write 0 ['a'], .ready, .write 1 ['b'], .exit 1 (.exited 0), .read, .reap 1, .reapedAll,
    .parse, .scanned]

/-- **A client that is reaped when another one is serviced is lost**: it exited with status 0, its
output is in the pipe, and it is not waited for. -/
theorem reaped_by_another :
    ∃ s, run (step fun _ => false)
        (State.start (fun i : Fin 2 => if i = 0 then ['a', 'a'] else ['b']) 0) overtakenRun = some s ∧
      s.pc = .head ∧ ¬ s.NoSelectionLost := by
  refine ⟨_, rfl, rfl, fun h => ?_⟩
  have hwaiting := h 1 (.exited 0) rfl rfl (Or.inl (List.cons_ne_nil 'b' []))
  exact absurd hwaiting Bool.false_ne_true

end Sysload.UiControl
