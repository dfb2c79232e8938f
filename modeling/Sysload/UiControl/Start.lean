import Sysload.UiControl
import Mathlib.Data.List.Basic

/-!
# The processes behind `userinterface()` (`ui_control.c`)

`userinterface()` forks a process for each user interface and calls `execl` in it. A child whose
`execl` fails goes on in the same function, on a copy of the table of clients, and ends in the code
that cleans up. This is the function with all its processes: the main process, the children that
were not replaced by a user interface, and the signals they send.

* An entry of the table is marked as running before `fork` is called, and gets the result of `fork`,
  whatever it is, as its `pid`.
* In the main process a client that has ended may be reaped in the loop and, twice, on the way out.
* `kill(pid, 0)`, which sends no signal, is left out.

Source: `src/core/ui_control.c`, `userinterface`. Out of scope are the pipes, and user interfaces
that fork.

Results:
* `cleanStep_sends`: the code that cleans up signals the entries that are marked as running.
* **`signals_disciplined`**: in a run in which no `fork` fails, and no `execl` but that of the first
  user interface, only the main process sends signals, and only to clients that it forked.
* `child_terminates_sibling`: what happens otherwise.
-/

namespace Sysload.UiStart

open UiControl (UiStatus)

/-- `struct ui_info`, without the pipe. -/
structure UiInfo where
  pid : Int
  status : UiStatus
  deriving DecidableEq, Repr

/-- The signals that `userinterface()` sends. -/
inductive Signal where
  | sigterm
  | sigkill
  deriving DecidableEq, Repr

/-- Where a process is in `userinterface()`: before the pipe of client `i`, before its `fork`, before
the `execl` of the child, in the loop, or cleaning up. -/
inductive Stage where
  | start (i : Nat)
  | fork (i : Nat)
  | exec (i : Nat)
  | loop
  | term (i : Nat)
  | reapTerm
  | pause
  | kill (i : Nat)
  | reapKill
  | done
  deriving DecidableEq, Repr

/-- A process in `userinterface()`, with its own table of clients. -/
structure Proc where
  table : List UiInfo
  stage : Stage
  deriving DecidableEq, Repr

/-- A signal that was sent. -/
structure Sent where
  byChild : Bool
  pid : Int
  signal : Signal
  deriving DecidableEq, Repr

/-- All processes, the children that were forked, and the signals that were sent. -/
structure State where
  main : Proc
  children : List Proc
  forked : List Int
  sent : List Sent
  deriving DecidableEq, Repr

/-- The steps of the processes. `clean none` is a step of the main process on its way out, `clean
(some k)` one of a child. -/
inductive Event where
  | pipe (ok : Bool)
  | fork (pid : Int)
  | forkFailed
  | started
  | exec (k : Nat) (ok : Bool)
  | reap (j : Nat) (status : UiStatus)
  | leave
  | clean (process : Option Nat)
  deriving DecidableEq, Repr

/-- Client `i` gets a status. -/
def setStatus (table : List UiInfo) (i : Nat) (status : UiStatus) : List UiInfo :=
  table.modify i fun u => { u with status := status }

/-- Client `i` gets a `pid`. -/
def setPid (table : List UiInfo) (i : Nat) (pid : Int) : List UiInfo :=
  table.modify i fun u => { u with pid := pid }

/-- `kill(u[i].pid, signal)` for a client that is marked as running. -/
def killRunning (table : List UiInfo) (i : Nat) (signal : Signal) : List (Int × Signal) :=
  match table[i]? with
  | some u => if u.status = .running then [(u.pid, signal)] else []
  | none => []

/-- A step of the code that cleans up, with the signals it sends. -/
def Proc.cleanStep (p : Proc) : Option (Proc × List (Int × Signal)) :=
  match p.stage with
  | .term i =>
    if i < p.table.length then
      some ({ p with stage := .term (i + 1) }, killRunning p.table i .sigterm)
    else some ({ p with stage := .reapTerm }, [])
  | .reapTerm => some ({ p with stage := .pause }, [])
  | .pause => some ({ p with stage := .kill 0 }, [])
  | .kill i =>
    if i < p.table.length then
      some ({ p with stage := .kill (i + 1) }, killRunning p.table i .sigkill)
    else some ({ p with stage := .reapKill }, [])
  | .reapKill => some ({ p with stage := .done }, [])
  | _ => none

/-- One step. -/
def step (s : State) (e : Event) : Option State :=
  match e with
  | .pipe ok =>
    match s.main.stage with
    | .start i =>
      if i < s.main.table.length then
        if ok then some { s with main := ⟨setStatus s.main.table i .running, .fork i⟩ }
        else some { s with main := { s.main with stage := .term 0 } }
      else none
    | _ => none
  | .fork pid =>
    match s.main.stage with
    | .fork i =>
      if 0 < pid then
        some { s with
          main := ⟨setPid s.main.table i pid, .start (i + 1)⟩
          children := s.children ++ [⟨setPid s.main.table i 0, .exec i⟩]
          forked := pid :: s.forked }
      else none
    | _ => none
  | .forkFailed =>
    match s.main.stage with
    | .fork i => some { s with main := ⟨setPid s.main.table i (-1), .term 0⟩ }
    | _ => none
  | .started =>
    match s.main.stage with
    | .start i =>
      if i < s.main.table.length then none else some { s with main := { s.main with stage := .loop } }
    | _ => none
  | .exec k ok =>
    match s.children[k]? with
    | some ⟨table, .exec i⟩ =>
      if ok then some { s with children := s.children.eraseIdx k }
      else some { s with children := s.children.set k ⟨setStatus table i .problemExit, .term 0⟩ }
    | _ => none
  | .reap j status =>
    match s.main.stage with
    | .loop | .reapTerm | .reapKill =>
      if status = .running then none
      else some { s with main := { s.main with table := setStatus s.main.table j status } }
    | _ => none
  | .leave =>
    match s.main.stage with
    | .loop => some { s with main := { s.main with stage := .term 0 } }
    | _ => none
  | .clean none =>
    s.main.cleanStep.map fun r =>
      { s with main := r.1, sent := s.sent ++ r.2.map fun m => ⟨false, m.1, m.2⟩ }
  | .clean (some k) =>
    s.children[k]?.bind fun p => p.cleanStep.map fun r =>
      { s with children := s.children.set k r.1, sent := s.sent ++ r.2.map fun m => ⟨true, m.1, m.2⟩ }

/-- The state at the beginning, for `count` user interfaces. -/
def State.init (count : Nat) : State where
  main := ⟨List.replicate count ⟨0, .problemExit⟩, .start 0⟩
  children := []
  forked := []
  sent := []

/-! ## Who is marked as running -/

theorem getElem?_setStatus {table : List UiInfo} {i j : Nat} {status : UiStatus} {u : UiInfo}
    (h : (setStatus table i status)[j]? = some u) :
    ∃ u₀, table[j]? = some u₀ ∧ u = if i = j then { u₀ with status := status } else u₀ := by
  rw [setStatus, List.getElem?_modify] at h
  obtain ⟨u₀, hu₀, rfl⟩ := Option.map_eq_some_iff.mp h
  exact ⟨u₀, hu₀, rfl⟩

theorem getElem?_setPid {table : List UiInfo} {i j : Nat} {pid : Int} {u : UiInfo}
    (h : (setPid table i pid)[j]? = some u) :
    ∃ u₀, table[j]? = some u₀ ∧ u = if i = j then { u₀ with pid := pid } else u₀ := by
  rw [setPid, List.getElem?_modify] at h
  obtain ⟨u₀, hu₀, rfl⟩ := Option.map_eq_some_iff.mp h
  exact ⟨u₀, hu₀, rfl⟩

/-- Client `j` of a table is marked as running, with this `pid`. -/
def Marked (table : List UiInfo) (j : Nat) (pid : Int) : Prop := table[j]? = some ⟨pid, .running⟩

/-- A client that is marked after another status was set was marked before. -/
theorem Marked.of_setStatus {table : List UiInfo} {i j : Nat} {status : UiStatus} {pid : Int}
    (hstatus : status ≠ .running) (h : Marked (setStatus table i status) j pid) :
    i ≠ j ∧ Marked table j pid := by
  obtain ⟨u₀, hu₀, heq⟩ := getElem?_setStatus h
  by_cases hij : i = j
  · rw [if_pos hij] at heq
    exact absurd (UiInfo.mk.inj heq).2.symm hstatus
  · rw [if_neg hij] at heq
    exact ⟨hij, hu₀.trans (congrArg some heq.symm)⟩

theorem Marked.of_setRunning {table : List UiInfo} {i j : Nat} {pid : Int} (hij : i ≠ j)
    (h : Marked (setStatus table i .running) j pid) : Marked table j pid := by
  obtain ⟨u₀, hu₀, heq⟩ := getElem?_setStatus h
  rw [if_neg hij] at heq
  exact hu₀.trans (congrArg some heq.symm)

theorem Marked.of_setPid {table : List UiInfo} {i j : Nat} {pid new : Int}
    (h : Marked (setPid table i new) j pid) : (i = j ∧ pid = new) ∨ (i ≠ j ∧ Marked table j pid) := by
  obtain ⟨u₀, hu₀, heq⟩ := getElem?_setPid h
  by_cases hij : i = j
  · rw [if_pos hij] at heq
    exact Or.inl ⟨hij, (UiInfo.mk.inj heq).1⟩
  · rw [if_neg hij] at heq
    exact Or.inr ⟨hij, hu₀.trans (congrArg some heq.symm)⟩

/-! ## Cleaning up -/

/-- The process cleans up. -/
def Stage.isCleaning : Stage → Bool
  | .term _ | .reapTerm | .pause | .kill _ | .reapKill | .done => true
  | .start _ | .fork _ | .exec _ | .loop => false

theorem mem_killRunning {table : List UiInfo} {i : Nat} {signal : Signal} {m : Int × Signal}
    (h : m ∈ killRunning table i signal) : Marked table i m.1 := by
  unfold killRunning at h
  split at h
  · rename_i u hu
    split at h
    · rename_i hrunning
      obtain rfl := List.mem_singleton.mp h
      rw [Marked, hu, ← hrunning]
    · exact absurd h List.not_mem_nil
  · exact absurd h List.not_mem_nil

/-- **The code that cleans up signals the clients that are marked as running**, and nothing else. -/
theorem cleanStep_sends {p p' : Proc} {l : List (Int × Signal)} (h : p.cleanStep = some (p', l)) :
    p'.table = p.table ∧ p.stage.isCleaning = true ∧ p'.stage.isCleaning = true ∧
      ∀ m ∈ l, ∃ j, Marked p.table j m.1 := by
  unfold Proc.cleanStep at h
  cases hp : p.stage with
  | start i | fork i | exec i | loop | done => simp [hp] at h
  | reapTerm | pause | reapKill =>
    simp only [hp, Option.some.injEq, Prod.mk.injEq] at h
    obtain ⟨rfl, rfl⟩ := h
    exact ⟨rfl, rfl, rfl, fun m hm => absurd hm List.not_mem_nil⟩
  | term i | kill i =>
    simp only [hp] at h
    split at h
    · simp only [Option.some.injEq, Prod.mk.injEq] at h
      obtain ⟨rfl, rfl⟩ := h
      exact ⟨rfl, rfl, rfl, fun m hm => ⟨i, mem_killRunning hm⟩⟩
    · simp only [Option.some.injEq, Prod.mk.injEq] at h
      obtain ⟨rfl, rfl⟩ := h
      exact ⟨rfl, rfl, rfl, fun m hm => absurd hm List.not_mem_nil⟩

/-! ## Signals go to clients -/

/-- The signal was sent by the main process, to a client that it forked. -/
def Disciplined (forked : List Int) (m : Sent) : Prop :=
  m.byChild = false ∧ 0 < m.pid ∧ m.pid ∈ forked

/-- No `fork` fails, and no `execl` but that of the first user interface. -/
def StartsCleanly (s : State) : Event → Prop
  | .forkFailed => False
  | .exec k false => ∀ p, s.children[k]? = some p → p.stage = .exec 0
  | _ => True

/-- The main process marks the clients that it forked; a client whose `fork` is about to be called is
marked as well, and the ones after it are not. -/
structure MainInv (forked : List Int) (p : Proc) : Prop where
  marked : ∀ j pid, Marked p.table j pid → (0 < pid ∧ pid ∈ forked) ∨ p.stage = .fork j
  start : ∀ i, p.stage = .start i → ∀ j pid, Marked p.table j pid → j < i
  fork : ∀ i, p.stage = .fork i → ∀ j pid, Marked p.table j pid → j ≤ i

/-- A child marks no client after its own, and none at all when it cleans up. -/
def ChildInv (p : Proc) : Prop :=
  (∃ i, p.stage = .exec i ∧ ∀ j pid, Marked p.table j pid → j ≤ i) ∨
    (p.stage.isCleaning = true ∧ ∀ j pid, ¬ Marked p.table j pid)

/-- The invariant of all processes. -/
structure Inv (s : State) : Prop where
  main : MainInv s.forked s.main
  children : ∀ p ∈ s.children, ChildInv p
  sent : ∀ m ∈ s.sent, Disciplined s.forked m

theorem inv_init (count : Nat) : Inv (State.init count) := by
  have hnone : ∀ j pid, ¬ Marked (List.replicate count ⟨0, .problemExit⟩) j pid := by
    intro j pid h
    have := List.eq_of_mem_replicate (List.mem_of_getElem? h)
    cases this
  exact ⟨⟨fun j pid h => absurd h (hnone j pid), fun _ _ j pid h => absurd h (hnone j pid),
      fun _ _ j pid h => absurd h (hnone j pid)⟩,
    fun p hp => absurd hp List.not_mem_nil, fun m hm => absurd hm List.not_mem_nil⟩

/-- The main process behind the start of the clients: nothing is left of `start` and `fork`. -/
theorem MainInv.behind {forked : List Int} {p : Proc} (hstart : ∀ i, p.stage ≠ .start i)
    (hfork : ∀ i, p.stage ≠ .fork i)
    (h : ∀ j pid, Marked p.table j pid → 0 < pid ∧ pid ∈ forked) : MainInv forked p :=
  ⟨fun j pid hm => Or.inl (h j pid hm), fun i hi => absurd hi (hstart i),
    fun i hi => absurd hi (hfork i)⟩

/-- What the main process has marked, when it is not about to call `fork`. -/
theorem MainInv.known {forked : List Int} {p : Proc} (hp : MainInv forked p)
    (hfork : ∀ i, p.stage ≠ .fork i) {j : Nat} {pid : Int} (h : Marked p.table j pid) :
    0 < pid ∧ pid ∈ forked := (hp.marked j pid h).resolve_right (hfork j)

theorem pipe_inv {s s' : State} {ok : Bool} (hs : Inv s) (h : step s (.pipe ok) = some s') :
    Inv s' := by
  simp only [step] at h
  split at h
  · rename_i i hstage
    have hknown : ∀ j pid, Marked s.main.table j pid → 0 < pid ∧ pid ∈ s.forked := fun j pid hm =>
      hs.main.known (by rw [hstage]; simp) hm
    split at h
    · split at h
      · cases h
        refine ⟨⟨fun j pid hm => ?_, fun k hk => absurd hk (by simp), fun k hk j pid hm => ?_⟩, hs.children,
          hs.sent⟩
        · by_cases hij : i = j
          · exact Or.inr (by rw [hij])
          · exact Or.inl (hknown j pid (hm.of_setRunning hij))
        · cases hk
          by_cases hij : i = j
          · omega
          · have := hs.main.start i hstage j pid (hm.of_setRunning hij)
            omega
      · cases h
        exact ⟨.behind (by simp) (by simp) hknown, hs.children, hs.sent⟩
    · cases h
  · cases h

theorem fork_inv {s s' : State} {pid : Int} (hs : Inv s) (h : step s (.fork pid) = some s') :
    Inv s' := by
  simp only [step] at h
  split at h
  · rename_i i hstage
    split at h
    · rename_i hpos
      cases h
      refine ⟨⟨fun j q hm => Or.inl ?_, fun k hk j q hm => ?_,
        fun k hk => absurd hk (by simp)⟩, ?_,
        fun m hm => ?_⟩
      · rcases hm.of_setPid with ⟨_, rfl⟩ | ⟨hij, hm⟩
        · exact ⟨hpos, List.mem_cons_self⟩
        · have hknown := (hs.main.marked j q hm).resolve_right
            (by rw [hstage]; exact fun heq => hij (Stage.fork.inj heq))
          exact ⟨hknown.1, List.mem_cons_of_mem _ hknown.2⟩
      · cases hk
        rcases hm.of_setPid with ⟨rfl, _⟩ | ⟨_, hm⟩
        · omega
        · have := hs.main.fork i hstage j q hm
          omega
      · intro p hp
        rcases List.mem_append.mp hp with hp | hp
        · exact hs.children p hp
        · obtain rfl := List.mem_singleton.mp hp
          refine Or.inl ⟨i, rfl, fun j q hm => ?_⟩
          rcases hm.of_setPid with ⟨rfl, _⟩ | ⟨_, hm⟩
          · exact Nat.le_refl _
          · exact hs.main.fork i hstage j q hm
      · obtain ⟨hmain, hpos', hmem⟩ := hs.sent m hm
        exact ⟨hmain, hpos', List.mem_cons_of_mem _ hmem⟩
    · cases h
  · cases h

theorem exec_inv {s s' : State} {k : Nat} {ok : Bool} (hs : Inv s) (hin : StartsCleanly s (.exec k ok))
    (h : step s (.exec k ok) = some s') : Inv s' := by
  simp only [step] at h
  split at h
  · rename_i table i hchild
    cases ok with
    | true =>
      cases h
      exact ⟨hs.main, fun p hp => hs.children p (List.mem_of_mem_eraseIdx hp), hs.sent⟩
    | false =>
      cases h
      refine ⟨hs.main, fun p hp => ?_, hs.sent⟩
      rcases List.mem_or_eq_of_mem_set hp with hp | rfl
      · exact hs.children p hp
      · -- The child of the first user interface has marked nothing but itself.
        obtain rfl : i = 0 := Stage.exec.inj (hin _ hchild)
        refine Or.inr ⟨rfl, fun j pid hm => ?_⟩
        obtain ⟨hne, hm⟩ := hm.of_setStatus (by simp)
        rcases hs.children _ (List.mem_of_getElem? hchild) with ⟨i', hi', hle⟩ | ⟨hclean, _⟩
        · cases hi'
          have := hle j pid hm
          omega
        · cases hclean
  · cases h

theorem clean_inv {s s' : State} {process : Option Nat} (hs : Inv s)
    (h : step s (.clean process) = some s') : Inv s' := by
  cases process with
  | none =>
    obtain ⟨⟨p', l⟩, hstep, rfl⟩ := Option.map_eq_some_iff.mp h
    obtain ⟨htable, hbefore, hafter, hl⟩ := cleanStep_sends hstep
    have hknown : ∀ j pid, Marked s.main.table j pid → 0 < pid ∧ pid ∈ s.forked := fun j pid hm =>
      hs.main.known (fun i hi => by rw [hi] at hbefore; cases hbefore) hm
    refine ⟨.behind (fun i hi => ?_) (fun i hi => ?_) fun j pid hm => hknown j pid (htable ▸ hm),
      hs.children, fun m hm => ?_⟩
    · have hi : p'.stage = .start i := hi
      rw [hi] at hafter
      cases hafter
    · have hi : p'.stage = .fork i := hi
      rw [hi] at hafter
      cases hafter
    · rcases List.mem_append.mp hm with hm | hm
      · exact hs.sent m hm
      · obtain ⟨x, hx, rfl⟩ := List.mem_map.mp hm
        obtain ⟨j, hj⟩ := hl x hx
        exact ⟨rfl, hknown j _ hj⟩
  | some k =>
    obtain ⟨p, hp, h⟩ := Option.bind_eq_some_iff.mp h
    obtain ⟨⟨p', l⟩, hstep, rfl⟩ := Option.map_eq_some_iff.mp h
    obtain ⟨htable, hbefore, hafter, hl⟩ := cleanStep_sends hstep
    have hnone : ∀ j pid, ¬ Marked p.table j pid := by
      rcases hs.children p (List.mem_of_getElem? hp) with ⟨i, hi, _⟩ | ⟨_, hnone⟩
      · rw [hi] at hbefore
        cases hbefore
      · exact hnone
    refine ⟨hs.main, fun q hq => ?_, fun m hm => ?_⟩
    · rcases List.mem_or_eq_of_mem_set hq with hq | rfl
      · exact hs.children q hq
      · exact Or.inr ⟨hafter, fun j pid hm => hnone j pid (htable ▸ hm)⟩
    · rcases List.mem_append.mp hm with hm | hm
      · exact hs.sent m hm
      · obtain ⟨x, hx, _⟩ := List.mem_map.mp hm
        obtain ⟨j, hj⟩ := hl x hx
        exact absurd hj (hnone j _)

/-- **Every step keeps the invariant**, if the user interfaces start cleanly. -/
theorem step_inv {s s' : State} {e : Event} (hs : Inv s) (hin : StartsCleanly s e)
    (h : step s e = some s') : Inv s' := by
  cases e with
  | pipe ok => exact pipe_inv hs h
  | fork pid => exact fork_inv hs h
  | forkFailed => exact hin.elim
  | exec k ok => exact exec_inv hs hin h
  | clean process => exact clean_inv hs h
  | started =>
    simp only [step] at h
    split at h
    · rename_i i hstage
      split at h
      · cases h
      · cases h
        exact ⟨.behind (by simp) (by simp) fun j pid hm => hs.main.known (by rw [hstage]; simp) hm,
          hs.children, hs.sent⟩
    · cases h
  | reap j status =>
    simp only [step] at h
    split at h
    case h_4 => cases h
    all_goals
      rename_i hstage
      split at h
      · cases h
      · rename_i hstatus
        cases h
        exact ⟨.behind (by simp [hstage]) (by simp [hstage]) fun i pid hm =>
          hs.main.known (by rw [hstage]; simp) (hm.of_setStatus hstatus).2, hs.children, hs.sent⟩
  | leave =>
    simp only [step] at h
    split at h
    · rename_i hstage
      cases h
      exact ⟨.behind (by simp) (by simp) fun j pid hm => hs.main.known (by rw [hstage]; simp) hm,
        hs.children, hs.sent⟩
    · cases h

/-- **Signals are disciplined** in a run in which the user interfaces start cleanly: every signal was
sent by the main process, to the positive `pid` of a client that it forked. -/
theorem signals_disciplined {count : Nat} {es : List Event} {s : State}
    (hin : Along step StartsCleanly (State.init count) es)
    (hrun : run step (State.init count) es = some s) : ∀ m ∈ s.sent, Disciplined s.forked m :=
  (run_inv Inv (fun _ _ _ hs hin h => step_inv hs hin h) (inv_init count) hin hrun).sent

/-- Two user interfaces; the module of the first cannot be executed, the second is terminated. -/
def firstMissingRun : List Event :=
  [.pipe true, .fork 7, .exec 0 false, .pipe true, .fork 8, .exec 1 true, .started, .clean (some 0),
    .clean (some 0), .clean (some 0), .reap 0 .problemExit, .leave, .clean none, .clean none]

theorem signals_disciplined_firstMissingRun :
    ∃ s, run step (State.init 2) firstMissingRun = some s ∧ s.sent = [⟨false, 8, .sigterm⟩] ∧
      ∀ m ∈ s.sent, Disciplined s.forked m := by
  refine ⟨_, rfl, rfl, @signals_disciplined 2 firstMissingRun _ ?_ rfl⟩
  exact .cons trivial rfl <| .cons trivial rfl <|
    .cons (fun p hp => by cases hp; rfl) rfl <| .cons trivial rfl <| .cons trivial rfl <|
    .cons trivial rfl <| .cons trivial rfl <| .cons trivial rfl <| .cons trivial rfl <|
    .cons trivial rfl <| .cons trivial rfl <| .cons trivial rfl <| .cons trivial rfl <|
    .cons trivial rfl trivial

/-- **A user interface that cannot be executed terminates another one**: the child that was to become
the second user interface sends `SIGTERM` to the first. -/
theorem child_terminates_sibling :
    ∃ s, run step (State.init 2)
        [.pipe true, .fork 7, .exec 0 true, .pipe true, .fork 8, .exec 0 false, .clean (some 0)] =
          some s ∧
      ¬ ∀ m ∈ s.sent, Disciplined s.forked m := by
  refine ⟨_, rfl, fun h => ?_⟩
  have hsent := h ⟨true, 7, .sigterm⟩ (by decide)
  exact absurd hsent.1 (by decide)

end Sysload.UiStart
