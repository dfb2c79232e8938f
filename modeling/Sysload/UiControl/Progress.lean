import Mathlib.Algebra.BigOperators.Fin
import Mathlib.Algebra.Order.BigOperators.Group.Finset
import Sysload.UiControl

/-!
# The end of the loop over the user interfaces (`userinterface`)

Nothing in the loop waits for one client alone, and nothing turns over and over: a round of the loop
reads bytes or reaps a client. So the loop comes to an end when the clients do.

* A round pays with what its clients have left to do (`State.energy`). At `ui_select` it is sure that
  the round will find something to do, and it is done when the last descriptor was served: in between
  the payment is pending (`State.pending`).
* `SIGUSR1` makes the parent go round once more.

When the timeout is switched off and the last client is gone without a selection, the wait set is
empty: the parent waits for a signal that no client is left to send (`State.Abandoned`).

Source: `src/core/ui_control.c`, the loop of `userinterface`. Out of scope is real time.

Results:
* `step_measure`: every step, but that of the signal, leaves less to do.
* `progress`: who can go on where the parent is.
* **`userinterface_ends`**: how long a run is at most, and where it is stuck.
-/

namespace Sysload.UiControl

variable {n : Nat}

/-! ## What a step can do -/

section Steps

variable (parseSysloadBootEntry : CStr → Bool)

/-- The descriptors that `ui_select` reports. -/
def State.readyOf (s : State n) (waitset : Fin n → Bool) : List (Fin n) :=
  (List.finRange n).filter fun i => waitset i && (s.clients i).readable

/-- The steps, one by one. -/
inductive Stepped : State n → Event n → State n → Prop
  | write {s : State n} {i : Fin n} {piece toWrite : List Char}
    (hrunning : (s.clients i).process = .running toWrite) (hne : piece ≠ [])
    (htake : toWrite.take piece.length = piece) :
    Stepped s (.write i piece) (s.setClient i { s.clients i with
      process := .running (toWrite.drop piece.length)
      pipe := (s.clients i).pipe ++ piece })
  | exit {s : State n} {i : Fin n} (status : WaitStatus)
    (hrunning : (s.clients i).process = .running []) :
    Stepped s (.exit i status) (s.setClient i { s.clients i with process := .zombie status })
  | build {s : State n} (hpc : s.pc = .head) :
    Stepped s .build { s with pc := .select (buildWaitset s.clients) }
  | ready {s : State n} {waitset : Fin n → Bool} (hpc : s.pc = .select waitset)
    (hne : s.readyOf waitset ≠ []) : Stepped s .ready { s with pc := .scan (s.readyOf waitset) }
  | sigusr1 {s : State n} {waitset : Fin n → Bool} (hpc : s.pc = .select waitset) :
    Stepped s .sigusr1 { s with pc := .head, endtime := 0 }
  | alarm {s : State n} {waitset : Fin n → Bool} (hpc : s.pc = .select waitset)
    (hpos : 0 < s.endtime) : Stepped s .alarm { s with pc := .leave none }
  | selectFailed {s : State n} {waitset : Fin n → Bool} (hpc : s.pc = .select waitset) :
    Stepped s .selectFailed { s with pc := .leave none }
  | scanned {s : State n} (hpc : s.pc = .scan []) : Stepped s .scanned { s with pc := .head }
  | read {s : State n} {cnr : Fin n} {rest : List (Fin n)} (hpc : s.pc = .scan (cnr :: rest))
    (hreadable : (s.clients cnr).readable = true) :
    Stepped s .read
      { s.setClient cnr (s.clients cnr).readFromClient with pc := .reap cnr rest }
  | reap {s : State n} {i cnr : Fin n} {rest : List (Fin n)} {status : WaitStatus}
    (hpc : s.pc = .reap cnr rest) (hzombie : (s.clients i).process = .zombie status) :
    Stepped s (.reap i) (s.setClient i ((s.clients i).reap status))
  | reapedAll {s : State n} {cnr : Fin n} {rest : List (Fin n)} (hpc : s.pc = .reap cnr rest)
    (hall : ∀ i, (s.clients i).process.isZombie = false) :
    Stepped s .reapedAll { s with pc := .parse cnr rest }
  | selected {s : State n} {cnr : Fin n} {rest : List (Fin n)} (hpc : s.pc = .parse cnr rest) :
    Stepped s .parse
      { s.setClient cnr (s.clients cnr).parsed with pc := .leave (some cnr) }
  | rejected {s : State n} {cnr : Fin n} {rest : List (Fin n)} (hpc : s.pc = .parse cnr rest) :
    Stepped s .parse { s.setClient cnr (s.clients cnr).parsed with pc := .scan rest }
  | failed {s : State n} {cnr : Fin n} {rest : List (Fin n)} (hpc : s.pc = .parse cnr rest) :
    Stepped s .parse { s with pc := .scan rest }

variable {parseSysloadBootEntry}

theorem stepped_of_step {s s' : State n} {e : Event n}
    (h : step parseSysloadBootEntry s e = some s') : Stepped s e s' := by
  cases e with
  | write i piece =>
    simp only [step] at h
    split at h
    · rename_i toWrite hrunning
      obtain ⟨⟨hne, htake⟩, h⟩ := Option.ite_none_right_eq_some.mp h
      exact Option.some.inj h ▸ .write hrunning hne htake
    · cases h
  | exit i status =>
    obtain ⟨hrunning, h⟩ := Option.ite_none_right_eq_some.mp h
    exact Option.some.inj h ▸ .exit status hrunning
  | build =>
    simp only [step] at h
    split at h
    · rename_i hpc
      exact Option.some.inj h ▸ .build hpc
    · cases h
  | ready =>
    simp only [step] at h
    split at h
    · rename_i waitset hpc
      obtain ⟨hne, h⟩ := Option.ite_none_left_eq_some.mp h
      exact Option.some.inj h ▸ .ready hpc hne
    · cases h
  | sigusr1 =>
    simp only [step] at h
    split at h
    · rename_i waitset hpc
      exact Option.some.inj h ▸ .sigusr1 hpc
    · cases h
  | alarm =>
    simp only [step] at h
    split at h
    · rename_i waitset hpc
      obtain ⟨hpos, h⟩ := Option.ite_none_right_eq_some.mp h
      exact Option.some.inj h ▸ .alarm hpc hpos
    · cases h
  | selectFailed =>
    simp only [step] at h
    split at h
    · rename_i waitset hpc
      exact Option.some.inj h ▸ .selectFailed hpc
    · cases h
  | scanned =>
    simp only [step] at h
    split at h
    · rename_i hpc
      exact Option.some.inj h ▸ .scanned hpc
    · cases h
  | read =>
    simp only [step] at h
    split at h
    · rename_i cnr rest hpc
      obtain ⟨hreadable, h⟩ := Option.ite_none_right_eq_some.mp h
      exact Option.some.inj h ▸ .read hpc hreadable
    · cases h
  | reap i =>
    simp only [step] at h
    split at h
    · rename_i cnr rest status hpc hzombie
      exact Option.some.inj h ▸ .reap hpc hzombie
    · cases h
  | reapedAll =>
    simp only [step] at h
    split at h
    · rename_i cnr rest hpc
      obtain ⟨hall, h⟩ := Option.ite_none_right_eq_some.mp h
      exact Option.some.inj h ▸ .reapedAll hpc hall
    · cases h
  | parse =>
    simp only [step] at h
    split at h
    · rename_i cnr rest hpc
      split at h
      · split at h
        · exact Option.some.inj h ▸ .selected hpc
        · exact Option.some.inj h ▸ .rejected hpc
      · exact Option.some.inj h ▸ .failed hpc
    · cases h

end Steps

/-! ## What is left to do -/

/-- The client has something that a round of the loop takes away. -/
def UiInfo.live (c : UiInfo) : Bool := c.pipe != [] || c.process.isZombie

/-- What a client has left to do: to write its output, to have it read, to exit, and to be reaped. -/
def UiInfo.energy (c : UiInfo) : Nat :=
  4 * c.process.toWrite.length + 2 * c.pipe.length +
    match c.process with
    | .running _ => 4
    | .zombie _ => 2
    | .reaped _ => 0

/-- What all clients have left to do. -/
def State.energy (s : State n) : Nat := ∑ i, (s.clients i).energy

/-- In this round there is still something to be taken away. Behind the loop nothing is. -/
def State.pending (s : State n) : Bool :=
  match s.pc with
  | .head | .select _ => false
  | .scan ready | .parse _ ready => ready.any fun i => (s.clients i).live
  | .reap _ ready =>
    (ready.any fun i => (s.clients i).pipe != []) ||
      (List.finRange n).any fun i => (s.clients i).process.isZombie
  | .leave _ => true

/-- The rest of the round. -/
def Pc.phase : Pc n → Nat
  | .head => 2
  | .select _ => 1
  | .scan ready => 3 * ready.length + 3
  | .reap _ rest => 3 * rest.length + 5
  | .parse _ rest => 3 * rest.length + 4
  | .leave _ => 0

/-- What is left to do, in steps. -/
def State.measure (s : State n) : Nat :=
  (3 * n + 3) * (s.energy - s.pending.toNat) + s.pc.phase

/-- What a signal may add. -/
def Event.cost : Event n → Nat
  | .sigusr1 => 2
  | _ => 0

/-! ### The measure -/

theorem energy_setClient (s : State n) (i : Fin n) (c : UiInfo) :
    (s.setClient i c).energy + (s.clients i).energy = s.energy + c.energy := by
  have hold := Finset.add_sum_erase Finset.univ (fun j => (s.clients j).energy) (Finset.mem_univ i)
  have hnew := Finset.add_sum_erase Finset.univ (fun j => ((s.setClient i c).clients j).energy)
    (Finset.mem_univ i)
  have hrest : ∑ j ∈ Finset.univ.erase i, ((s.setClient i c).clients j).energy =
      ∑ j ∈ Finset.univ.erase i, (s.clients j).energy := by
    refine Finset.sum_congr rfl fun j hj => ?_
    simp only [State.setClient, Function.update_of_ne (Finset.ne_of_mem_erase hj)]
  have hself : (s.setClient i c).clients i = c := Function.update_self ..
  simp only [hself, hrest] at hnew
  simp only [State.energy]
  omega

section Measure

variable {s s' : State n}

/-- **A step that takes something away.** -/
theorem measure_of_energy (henergy : s'.energy + 2 ≤ s.energy)
    (hphase : s'.pc.phase ≤ s.pc.phase) : s'.measure < s.measure := by
  have hbool := Bool.toNat_le s.pending
  have hless : s'.energy - s'.pending.toNat + 1 ≤ s.energy - s.pending.toNat := by omega
  have hmul := Nat.mul_le_mul_left (3 * n + 3) hless
  rw [Nat.mul_add] at hmul
  unfold State.measure
  omega

/-- **A step of the round.** -/
theorem measure_of_phase (henergy : s'.energy = s.energy)
    (hpending : s.pending = true → s'.pending = true) (hphase : s'.pc.phase < s.pc.phase) :
    s'.measure < s.measure := by
  have hbool : s.pending.toNat ≤ s'.pending.toNat := by
    cases h : s.pending with
    | false => exact Nat.zero_le _
    | true => rw [hpending h]
  have hless : s'.energy - s'.pending.toNat ≤ s.energy - s.pending.toNat := by omega
  have hmul := Nat.mul_le_mul_left (3 * n + 3) hless
  unfold State.measure
  omega

/-- **A round begins**, with something to do. -/
theorem measure_of_ready (henergy : s'.energy = s.energy) (hnot : s.pending = false)
    (hpending : s'.pending = true) (hpos : 0 < s.energy)
    (hphase : s'.pc.phase < s.pc.phase + (3 * n + 3)) : s'.measure < s.measure := by
  have hmul : (3 * n + 3) * (s.energy - 1) + (3 * n + 3) = (3 * n + 3) * s.energy := by
    rw [← Nat.mul_succ]
    congr 1
    omega
  unfold State.measure
  rw [hnot, hpending, henergy, Bool.toNat_true, Bool.toNat_false, Nat.sub_zero]
  omega

end Measure

/-! ## The descriptors of a round -/

/-- The wait set has the clients that are not reaped, and the clients that are still to be served can
be read. -/
def State.Listed (s : State n) : Prop :=
  match s.pc with
  | .head | .leave _ => True
  | .select waitset => ∀ i, waitset i = buildWaitset s.clients i
  | .scan ready | .reap _ ready | .parse _ ready =>
    ready.Nodup ∧ ∀ i ∈ ready, (s.clients i).readable = true

/-- A client that can be read, or that a wait set has, stays so when another one is served. -/
theorem listed_setClient {s : State n} (hs : s.Listed) {i : Fin n} {c : UiInfo}
    (hreadable : (s.clients i).readable = true → c.readable = true)
    (hgone : (∃ waitset, s.pc = .select waitset) →
      buildWaitset (s.setClient i c).clients i = buildWaitset s.clients i) :
    (s.setClient i c).Listed := by
  have hall : ∀ j, (s.clients j).readable = true →
      ((s.setClient i c).clients j).readable = true := by
    intro j hj
    by_cases heq : j = i
    · subst heq
      simpa only [State.setClient, Function.update_self] using hreadable hj
    · simpa only [State.setClient, Function.update_of_ne heq] using hj
  have hpc : (s.setClient i c).pc = s.pc := rfl
  unfold State.Listed at hs ⊢
  rw [hpc]
  split <;> rename_i heq <;> rw [heq] at hs
  · trivial
  · trivial
  · intro j
    rw [hs j]
    by_cases hj : j = i
    · subst hj
      exact (hgone ⟨_, heq⟩).symm
    · unfold buildWaitset
      simp only [State.setClient, Function.update_of_ne hj]
  all_goals exact ⟨hs.1, fun j hj => hall j (hs.2 j hj)⟩

theorem nodup_readyOf (s : State n) (waitset : Fin n → Bool) : (s.readyOf waitset).Nodup :=
  (List.nodup_finRange n).filter _

theorem mem_readyOf {s : State n} {waitset : Fin n → Bool} {i : Fin n} :
    i ∈ s.readyOf waitset ↔ waitset i = true ∧ (s.clients i).readable = true := by
  simp [State.readyOf, List.mem_filter]

theorem length_readyOf (s : State n) (waitset : Fin n → Bool) :
    (s.readyOf waitset).length ≤ n :=
  (List.length_filter_le _ _).trans (List.length_finRange).le

/-- **The descriptors stay as they are listed.** -/
theorem step_listed {s s' : State n} {e : Event n} (hs : s.Listed) (h : Stepped s e s') :
    s'.Listed := by
  cases h with
  | @write i piece toWrite hrunning hne htake =>
    refine listed_setClient hs (fun _ => ?_) fun _ => ?_
    · simp [UiInfo.readable, hne]
    · simp [buildWaitset, State.setClient, hrunning]
  | exit status hrunning =>
    refine listed_setClient hs (fun _ => ?_) fun _ => ?_
    · simp [UiInfo.readable, Process.status?]
    · simp [buildWaitset, State.setClient, hrunning]
  | build => exact fun _ => rfl
  | @ready waitset hpc hne =>
    exact ⟨nodup_readyOf s waitset, fun i hi => (mem_readyOf.mp hi).2⟩
  | sigusr1 | alarm | selectFailed | scanned | selected => trivial
  | @read cnr rest hpc hreadable =>
    simp only [State.Listed, hpc, List.nodup_cons, List.forall_mem_cons] at hs
    refine ⟨hs.1.2, fun j hj => ?_⟩
    have hne : j ≠ cnr := fun heq => hs.1.1 (heq ▸ hj)
    simpa only [State.setClient, Function.update_of_ne hne] using hs.2.2 j hj
  | @reap i cnr rest status hpc hzombie =>
    refine listed_setClient hs (fun _ => ?_) ?_
    · simp [UiInfo.readable, UiInfo.reap, Process.status?]
    · rintro ⟨waitset, hselect⟩
      cases hpc.symm.trans hselect
  | reapedAll hpc =>
    simpa only [State.Listed, hpc] using hs
  | @rejected cnr rest hpc =>
    have hlisted := listed_setClient hs (i := cnr) (c := (s.clients cnr).parsed) (fun h => h) ?_
    · simpa only [State.Listed, State.setClient, hpc] using hlisted
    · rintro ⟨waitset, hselect⟩
      cases hpc.symm.trans hselect
  | failed hpc =>
    simpa only [State.Listed, hpc] using hs

/-! ## Every step leaves less to do -/

/-- What does not change at one client changes at none. -/
theorem clients_setClient {β : Type} (f : UiInfo → β) {s : State n} {i : Fin n} {c : UiInfo}
    (h : f c = f (s.clients i)) (j : Fin n) : f ((s.setClient i c).clients j) = f (s.clients j) := by
  by_cases hj : j = i
  · subst hj
    simpa only [State.setClient, Function.update_self] using h
  · simp only [State.setClient, Function.update_of_ne hj]

/-- The energy of a client that changes. -/
theorem energy_drops {s : State n} {i : Fin n} {c : UiInfo}
    (h : c.energy + 2 ≤ (s.clients i).energy) : (s.setClient i c).energy + 2 ≤ s.energy := by
  have hsum := energy_setClient s i c
  omega

theorem energy_same {s : State n} {i : Fin n} {c : UiInfo} (h : c.energy = (s.clients i).energy) :
    (s.setClient i c).energy = s.energy := by
  have hsum := energy_setClient s i c
  omega

/-- A read takes something away, if there is something. -/
theorem energy_readFromClient {c : UiInfo} (h : c.pipe ≠ []) :
    c.readFromClient.energy + 2 ≤ c.energy := by
  have hpos := List.length_pos_of_ne_nil h
  have hlen : c.readFromClient.pipe.length + 1 ≤ c.pipe.length := by
    rw [UiInfo.readFromClient, List.length_drop]
    have hmax : 0 < cfgStrMaxLen := by decide
    omega
  have hprocess : c.readFromClient.process = c.process := rfl
  unfold UiInfo.energy
  rw [hprocess]
  omega

/-- Where there is something to take away, the clients have something to do. -/
theorem energy_pos {s : State n} {i : Fin n} (h : (s.clients i).live = true) : 0 < s.energy := by
  have hle : (s.clients i).energy ≤ s.energy :=
    Finset.single_le_sum (f := fun j => (s.clients j).energy) (fun _ _ => Nat.zero_le _)
      (Finset.mem_univ i)
  refine Nat.lt_of_lt_of_le ?_ hle
  rcases Bool.or_eq_true_iff.mp h with hpipe | hzombie
  · have hpos := List.length_pos_of_ne_nil (bne_iff_ne.mp hpipe)
    unfold UiInfo.energy
    omega
  · unfold UiInfo.energy
    cases hprocess : (s.clients i).process with
    | zombie status => simp
    | running toWrite | reaped status => simp [hprocess, Process.isZombie] at hzombie

/-- A client in the wait set that can be read has something to take away. -/
theorem live_of_ready {s : State n} {waitset : Fin n → Bool} (hs : s.Listed)
    (hpc : s.pc = .select waitset) {i : Fin n} (hi : i ∈ s.readyOf waitset) :
    (s.clients i).live = true := by
  obtain ⟨hset, hreadable⟩ := mem_readyOf.mp hi
  simp only [State.Listed, hpc] at hs
  rw [hs i] at hset
  rcases Bool.or_eq_true_iff.mp hreadable with hpipe | hended
  · exact Bool.or_eq_true_iff.mpr (.inl hpipe)
  · refine Bool.or_eq_true_iff.mpr (.inr ?_)
    cases hprocess : (s.clients i).process with
    | zombie status => rfl
    | running toWrite => simp [hprocess, Process.status?] at hended
    | reaped status => simp [buildWaitset, hprocess] at hset

/-- **Every step leaves less to do**, but that of the signal. -/
theorem step_measure {s s' : State n} {e : Event n} (hs : s.Listed) (h : Stepped s e s') :
    s'.measure + 1 ≤ s.measure + e.cost := by
  cases h with
  | @write i piece toWrite hrunning hne htake =>
    refine measure_of_energy (energy_drops ?_) (le_refl _)
    have hpos := List.length_pos_of_ne_nil hne
    have hlen : piece.length ≤ toWrite.length := by
      have htaken := congrArg List.length htake
      rw [List.length_take] at htaken
      omega
    simp only [UiInfo.energy, hrunning, Process.toWrite, List.length_append, List.length_drop]
    omega
  | exit status hrunning =>
    refine measure_of_energy (energy_drops ?_) (le_refl _)
    simp only [UiInfo.energy, hrunning, Process.toWrite, List.length_nil]
    omega
  | build hpc =>
    refine measure_of_phase rfl (fun hpending => ?_) ?_
    · simp [State.pending, hpc] at hpending
    · simp [Pc.phase, hpc]
  | @ready waitset hpc hne =>
    obtain ⟨i, hi⟩ := List.exists_mem_of_ne_nil _ hne
    have hlive := live_of_ready hs hpc hi
    refine measure_of_ready rfl ?_ (List.any_eq_true.mpr ⟨i, hi, hlive⟩) (energy_pos hlive) ?_
    · simp [State.pending, hpc]
    · have hlen := length_readyOf s waitset
      simp only [Pc.phase, hpc]
      omega
  | sigusr1 hpc =>
    have hpending : State.pending ⟨.head, s.clients, 0⟩ = s.pending := by
      simp [State.pending, hpc]
    show State.measure ⟨.head, s.clients, 0⟩ + 1 ≤ s.measure + 2
    unfold State.measure
    rw [hpending, hpc]
    exact le_refl _
  | alarm hpc | selectFailed hpc =>
    refine measure_of_phase rfl (fun _ => rfl) ?_
    simp [Pc.phase, hpc]
  | scanned hpc =>
    refine measure_of_phase rfl (fun hpending => ?_) ?_
    · simp [State.pending, hpc] at hpending
    · simp [Pc.phase, hpc]
  | @read cnr rest hpc hreadable =>
    have hphase : (Pc.reap cnr rest).phase < s.pc.phase := by
      simp only [Pc.phase, hpc, List.length_cons]
      omega
    by_cases hpipe : (s.clients cnr).pipe = []
    · -- the client is at its end, and is reaped next if it was not reaped yet
      have hsame : (s.clients cnr).readFromClient.pipe = (s.clients cnr).pipe := by
        rw [UiInfo.readFromClient, hpipe, List.drop_nil]
      have hpipes := clients_setClient UiInfo.pipe hsame
      have hprocesses := @clients_setClient n _ UiInfo.process s cnr
        (s.clients cnr).readFromClient rfl
      refine measure_of_phase (energy_same ?_) (fun hpending => ?_) hphase
      · simp only [UiInfo.energy, hsame]
        rfl
      · simp only [State.pending, hpc, List.any_eq_true, UiInfo.live, Bool.or_eq_true] at hpending ⊢
        simp only [hpipes, hprocesses]
        obtain ⟨i, hi, hlive | hzombie⟩ := hpending
        · rcases List.mem_cons.mp hi with rfl | hi
          · simp [hpipe] at hlive
          · exact .inl ⟨i, hi, hlive⟩
        · exact .inr ⟨i, List.mem_finRange i, hzombie⟩
    · exact measure_of_energy (energy_drops (energy_readFromClient hpipe)) hphase.le
  | @reap i cnr rest status hpc hzombie =>
    refine measure_of_energy (energy_drops ?_) (le_refl _)
    simp only [UiInfo.energy, UiInfo.reap, hzombie, Process.toWrite]
    omega
  | @reapedAll cnr rest hpc hall =>
    refine measure_of_phase rfl (fun hpending => ?_) ?_
    · simp only [State.pending, hpc, Bool.or_eq_true, List.any_eq_true] at hpending ⊢
      rcases hpending with ⟨i, hi, hpipe⟩ | ⟨i, _, hzombie⟩
      · exact ⟨i, hi, Bool.or_eq_true_iff.mpr (.inl hpipe)⟩
      · exact absurd hzombie (by simp [hall i])
    · simp [Pc.phase, hpc]
  | @selected cnr rest hpc =>
    refine measure_of_phase (energy_same rfl) (fun _ => rfl) ?_
    simp [Pc.phase, hpc]
  | @rejected cnr rest hpc =>
    refine measure_of_phase (energy_same rfl) (fun hpending => ?_) ?_
    · have hlives := @clients_setClient n _ UiInfo.live s cnr (s.clients cnr).parsed rfl
      simp only [State.pending, hpc, List.any_eq_true] at hpending ⊢
      obtain ⟨i, hi, hlive⟩ := hpending
      exact ⟨i, hi, (hlives i).trans hlive⟩
    · simp [Pc.phase, hpc]
  | failed hpc =>
    refine measure_of_phase rfl (fun hpending => ?_) ?_
    · simpa only [State.pending, hpc] using hpending
    · simp [Pc.phase, hpc]

/-! ## Who can go on -/

/-- Nothing is left that could wake the parent. -/
def State.Abandoned (s : State n) : Prop :=
  (∃ waitset, s.pc = .select waitset) ∧ s.endtime = 0 ∧
    ∀ i, ∃ status, (s.clients i).process = .reaped status

/-- The steps that are up to the clients, the parent and the alarm. -/
def Event.own : Event n → Prop
  | .sigusr1 | .selectFailed => False
  | _ => True

section Progress

variable {parseSysloadBootEntry : CStr → Bool} {s s' : State n}

/-- A client that is running can go on. -/
theorem running_goes_on {i : Fin n} {toWrite : List Char}
    (hrunning : (s.clients i).process = .running toWrite) :
    ∃ e s', Event.own e ∧ step parseSysloadBootEntry s e = some s' := by
  cases toWrite with
  | nil => exact ⟨.exit i .signaled, _, trivial, if_pos hrunning⟩
  | cons c rest =>
    refine ⟨.write i (c :: rest), s.setClient i { s.clients i with
      process := .running ((c :: rest).drop (c :: rest).length)
      pipe := (s.clients i).pipe ++ c :: rest }, trivial, ?_⟩
    simp only [step, hrunning]
    rw [if_pos ⟨List.cons_ne_nil _ _, List.take_length⟩]

/-- **Somebody can go on** in the loop, unless nothing is left to wait for. -/
theorem progress (hs : s.Listed) (hloop : ∀ selected, s.pc ≠ .leave selected) :
    s.Abandoned ∨ ∃ e s', Event.own e ∧ step parseSysloadBootEntry s e = some s' := by
  cases hpc : s.pc with
  | head => exact .inr ⟨.build, _, trivial, by simp only [step, hpc]; rfl⟩
  | select waitset =>
    by_cases hgone : ∀ i, ∃ status, (s.clients i).process = .reaped status
    · by_cases hzero : s.endtime = 0
      · exact .inl ⟨⟨waitset, hpc⟩, hzero, hgone⟩
      · refine .inr ⟨.alarm, { s with pc := .leave none }, trivial, ?_⟩
        simp only [step, hpc, if_pos (Nat.pos_of_ne_zero hzero)]
    · obtain ⟨i, hi⟩ := not_forall.mp hgone
      cases hprocess : (s.clients i).process with
      | running toWrite => exact .inr (running_goes_on hprocess)
      | reaped status => exact absurd ⟨status, hprocess⟩ hi
      | zombie status =>
        -- it is in the wait set, and at its end
        simp only [State.Listed, hpc] at hs
        have hmem : i ∈ s.readyOf waitset := by
          refine mem_readyOf.mpr ⟨?_, ?_⟩
          · rw [hs i, buildWaitset, hprocess]
          · simp [UiInfo.readable, hprocess, Process.status?]
        refine .inr ⟨.ready, { s with pc := .scan (s.readyOf waitset) }, trivial, ?_⟩
        simp only [step, hpc]
        exact if_neg (List.ne_nil_of_mem hmem)
  | scan ready =>
    cases ready with
    | nil => exact .inr ⟨.scanned, _, trivial, by simp only [step, hpc]; rfl⟩
    | cons cnr rest =>
      simp only [State.Listed, hpc] at hs
      refine .inr ⟨.read, { s.setClient cnr (s.clients cnr).readFromClient with
        pc := .reap cnr rest }, trivial, ?_⟩
      simp only [step, hpc, if_pos (hs.2 cnr List.mem_cons_self)]
  | reap cnr rest =>
    by_cases hall : ∀ i, (s.clients i).process.isZombie = false
    · refine .inr ⟨.reapedAll, { s with pc := .parse cnr rest }, trivial, ?_⟩
      simp only [step, hpc, if_pos hall]
    · obtain ⟨i, hi⟩ := not_forall.mp hall
      cases hprocess : (s.clients i).process with
      | zombie status =>
        refine .inr ⟨.reap i, s.setClient i ((s.clients i).reap status), trivial, ?_⟩
        simp only [step, hpc, hprocess]
      | running toWrite | reaped status => exact absurd (by rw [hprocess]; rfl) hi
  | parse cnr rest =>
    refine .inr ⟨.parse, ?_⟩
    simp only [step, hpc]
    split
    · split
      · exact ⟨_, trivial, rfl⟩
      · exact ⟨_, trivial, rfl⟩
    · exact ⟨_, trivial, rfl⟩
  | leave selected => exact absurd hpc (hloop selected)

/-- Nobody can, where nothing is left. -/
theorem abandoned_stuck (hs : s.Listed) (h : s.Abandoned) {e : Event n} (he : e.own) :
    step parseSysloadBootEntry s e ≠ some s' := by
  intro hstep
  obtain ⟨⟨waitset, hpc⟩, hzero, hgone⟩ := h
  cases stepped_of_step hstep with
  | @write i _ _ hrunning =>
    obtain ⟨status, hreaped⟩ := hgone i
    cases hreaped.symm.trans hrunning
  | @exit i _ hrunning =>
    obtain ⟨status, hreaped⟩ := hgone i
    cases hreaped.symm.trans hrunning
  | @ready _ hselect hne =>
    obtain ⟨i, hi⟩ := List.exists_mem_of_ne_nil _ hne
    obtain rfl := Pc.select.inj (hpc.symm.trans hselect)
    obtain ⟨hset, _⟩ := mem_readyOf.mp hi
    obtain ⟨status, hreaped⟩ := hgone i
    simp only [State.Listed, hpc] at hs
    simp [hs i, buildWaitset, hreaped] at hset
  | alarm _ hpos => exact absurd hpos (by omega)
  | sigusr1 | selectFailed => exact he
  | build h | scanned h | read h | reap h | reapedAll h | selected h | rejected h | failed h =>
    cases hpc.symm.trans h

end Progress

/-- **The loop comes to an end with its clients.** For all outputs, in whatever pieces they come, and
all orders of the steps: a run has a bounded number of steps, and two more for each `SIGUSR1`; and
while the parent is in the loop somebody can go on, until the last client is gone and the timeout is
off: then nobody can. -/
theorem userinterface_ends {parseSysloadBootEntry : CStr → Bool} {outputs : Fin n → List Char}
    {timeout : Nat} {es : List (Event n)} {s : State n}
    (hrun : run (step parseSysloadBootEntry) (State.start outputs timeout) es = some s) :
    es.length ≤ (3 * n + 3) * (∑ i, (4 * (outputs i).length + 4)) + 2 + (es.map Event.cost).sum ∧
      ((∃ selected, s.pc = .leave selected) ∨
        (s.Abandoned ↔ ¬ ∃ e s', Event.own e ∧ step parseSysloadBootEntry s e = some s')) := by
  have hstart : (State.start outputs timeout).Listed := trivial
  have hstep : ∀ (s : State n) (e : Event n) (s' : State n), s.Listed →
      step parseSysloadBootEntry s e = some s' →
      s'.Listed ∧ s'.measure + 1 ≤ s.measure + e.cost := fun s e s' hs h =>
    ⟨step_listed hs (stepped_of_step h), step_measure hs (stepped_of_step h)⟩
  have hlisted : s.Listed := run_inv State.Listed (fun s e s' hs _ h => (hstep s e s' hs h).1) hstart
    (along_true _ _ _) hrun
  constructor
  · have hlen := run_length_le State.Listed State.measure Event.cost hstep hstart hrun
    have hmeasure : (State.start outputs timeout).measure =
        (3 * n + 3) * (∑ i, (4 * (outputs i).length + 4)) + 2 := by
      simp [State.measure, State.energy, State.pending, State.start, UiInfo.energy,
        Process.toWrite, Pc.phase]
    omega
  · by_cases hleft : ∃ selected, s.pc = .leave selected
    · exact .inl hleft
    · refine .inr ⟨fun h => ?_, fun hnone => ?_⟩
      · rintro ⟨e, s', he, hs'⟩
        exact abandoned_stuck hlisted h he hs'
      · exact (progress hlisted fun selected h => hleft ⟨selected, h⟩).resolve_right hnone

/-- A client that exits with an error before it has written anything. -/
def failingRun : List (Event 1) :=
  [.build, .exit (Fin.last 0) (.exited 1), .ready, .read, .reap (Fin.last 0), .reapedAll, .parse,
    .scanned, .build]

theorem userinterface_ends_failingRun :
    ∃ s, run (step fun _ => true) (State.start (fun _ => []) 0) failingRun = some s ∧
      s.Abandoned ∧ ¬ ∃ e s', Event.own e ∧ step (fun _ => true) s e = some s' := by
  obtain ⟨s, hrun⟩ : ∃ s, run (step fun _ => true) (State.start (fun _ => []) 0) failingRun =
      some s := ⟨_, rfl⟩
  have habandoned : s.Abandoned := by
    obtain rfl := Option.some.inj hrun
    refine ⟨⟨_, rfl⟩, rfl, fun i => ⟨.exited 1, ?_⟩⟩
    obtain rfl : i = Fin.last 0 := Subsingleton.elim i _
    rfl
  refine ⟨s, hrun, habandoned, ?_⟩
  rcases (userinterface_ends hrun).2 with ⟨selected, hleft⟩ | hstuck
  · obtain ⟨⟨waitset, hpc⟩, _⟩ := habandoned
    cases hpc.symm.trans hleft
  · exact hstuck.mp habandoned

end Sysload.UiControl
