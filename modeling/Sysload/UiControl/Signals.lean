import Sysload.UiControl

/-!
# Signals and the result of `userinterface()` (`ui_control.c`)

The loop of `UiControl.lean`, with the signals `SIGALRM` and `SIGUSR1` at any point of it and with
what `userinterface()` returns.

* `ui_select` sets the alarm before it calls `select`, so a signal may also come between the two.
  `Phase` tells whether the parent is blocked in `select`, or `select` was interrupted and
  `rcvd_sig` is still to be examined.
* The handler overwrites `rcvd_sig`, which is a static variable: it starts with what an earlier call
  has left there, and so does the alarm.
* `parse_sysload_boot_entry` keeps a state of its own between two calls (`ρ`).
* `alarmed` and `stopRequested` remember that the signals were delivered; nothing depends on them.

Source: `src/core/ui_control.c`, `default_sig_hdlr`, `ui_select`, `ui_timeout` and the loop of
`userinterface`. Out of scope are other signals, and real time: an alarm may come at any moment.

Results:
* `step_changes`: what a step of the loop can do to a client.
* `run_resultInv`: the entry that is returned is the default, after an alarm, or was parsed from the
  output of a client that exited with status 0.
* **`timeout_stays_stopped`**: in a run in which `SIGUSR1` comes while the parent waits in `select`,
  and no `SIGALRM` comes on top of it, the default is not returned any more.
* `stop_overtaken`: a `SIGUSR1` that comes before `select` is lost.
-/

namespace Sysload.UiControl

variable {n : Nat} {ρ : Type}

/-- The signals with a handler. -/
inductive Signal where
  | sigalrm
  | sigusr1
  deriving DecidableEq, Repr

/-- Where the parent is with respect to `select`. -/
inductive Phase where
  | outside
  | blocked
  | interrupted
  deriving DecidableEq, Repr

/-- What `userinterface()` returns: `CFG_RETURN_OK` with a boot entry, which is the default or comes
from a client, or `CFG_RETURN_ERROR`. -/
inductive Result where
  | timedOut (boot : CfgBentry)
  | selected (boot : CfgBentry)
  | failed
  deriving DecidableEq, Repr

/-- The boot entry of a successful return. -/
def Result.boot? : Result → Option CfgBentry
  | timedOut boot | selected boot => some boot
  | failed => none

/-- The loop, with what the signals have to do with it. -/
structure SigState (n : Nat) (ρ : Type) where
  loop : State n
  phase : Phase
  rcvdSig : Option Signal
  armed : Bool
  parser : ρ
  result : Option Result
  returned : Bool
  alarmed : Bool
  stopRequested : Bool

/-- The steps of clients and parent, and the delivery of signals. -/
inductive SigEvent (n : Nat) where
  | loop (e : Event n)
  | build
  | select
  | ready
  | check
  | selectFailed
  | parse
  | sigalrm
  | sigusr1
  | ret

/-- The steps of the loop that have nothing to do with signals or with the result. -/
def Event.isPlain : Event n → Bool
  | .write _ _ | .exit _ _ | .scanned | .read | .reap _ | .reapedAll => true
  | .build | .ready | .sigusr1 | .alarm | .selectFailed | .parse => false

/-- `ui_timeout`. -/
def uiTimeout (config : CfgToplevel) : Result :=
  if 0 ≤ config.bootDefault then
    match config.bentryList[config.bootDefault.toNat]? with
    | some boot => .timedOut boot
    | none => .failed
  else .failed

/-- `default_sig_hdlr`, and the end of a `select` that was waiting. -/
def SigState.deliver (s : SigState n ρ) (sig : Signal) : SigState n ρ :=
  { s with
    rcvdSig := some sig
    phase := if s.phase = .outside then .outside else .interrupted }

variable (config : CfgToplevel) (parse : ρ → CStr → Option CfgBentry × ρ)

/-- One step. Nothing happens after the return. -/
def sigStep (s : SigState n ρ) (e : SigEvent n) : Option (SigState n ρ) :=
  if s.returned then none
  else match e with
  | .loop e =>
    if e.isPlain then (step (fun _ => false) s.loop e).map fun loop => { s with loop := loop }
    else none
  | .build =>
    (step (fun _ => false) s.loop .build).map fun loop =>
      { s with loop := loop, armed := 0 < loop.endtime }
  | .select =>
    match s.loop.pc, s.phase with
    | .select _, .outside => some { s with phase := .blocked }
    | _, _ => none
  | .ready =>
    if s.phase = .blocked then
      (step (fun _ => false) s.loop .ready).map fun loop =>
        { s with loop := loop, phase := .outside }
    else none
  | .check =>
    if s.phase = .interrupted then
      if s.rcvdSig = some .sigusr1 then
        (step (fun _ => false) s.loop .sigusr1).map fun loop =>
          { s with loop := loop, phase := .outside }
      else
        some { s with
          loop := { s.loop with pc := .leave none }
          phase := .outside
          result := some (uiTimeout config) }
    else none
  | .selectFailed =>
    if s.phase = .blocked then
      (step (fun _ => false) s.loop .selectFailed).map fun loop =>
        { s with loop := loop, phase := .outside, result := some .failed }
    else none
  | .parse =>
    match s.loop.pc with
    | .parse cnr _ =>
      if (s.loop.clients cnr).status = .cleanExit then
        let r := parse s.parser (s.loop.clients cnr).collectedStr
        (step (fun _ => r.1.isSome) s.loop .parse).map fun loop =>
          { s with loop := loop, parser := r.2, result := r.1.map .selected }
      else (step (fun _ => false) s.loop .parse).map fun loop => { s with loop := loop }
    | _ => none
  | .sigalrm =>
    if s.armed then some { s.deliver .sigalrm with armed := false, alarmed := true } else none
  | .sigusr1 => some { s.deliver .sigusr1 with stopRequested := true }
  | .ret =>
    match s.loop.pc with
    | .leave _ => some { s with returned := true }
    | _ => none

/-- The state before the loop, with what an earlier call has left behind. -/
def SigState.start (outputs : Fin n → List Char) (config : CfgToplevel) (rcvdSig : Option Signal)
    (armed : Bool) (parser : ρ) : SigState n ρ where
  loop := State.start outputs config.timeout.toNat
  phase := .outside
  rcvdSig := rcvdSig
  armed := armed
  parser := parser
  result := none
  returned := false
  alarmed := false
  stopRequested := false

/-! ## What a client has written -/

/-- What a step can do to a client. -/
inductive Changes : UiInfo → UiInfo → Prop
  | write (c : UiInfo) (piece toWrite : List Char) (hrunning : c.process = .running toWrite)
      (hpiece : toWrite.take piece.length = piece) :
      Changes c { c with process := .running (toWrite.drop piece.length), pipe := c.pipe ++ piece }
  | exit (c : UiInfo) (status : WaitStatus) (hrunning : c.process = .running []) :
      Changes c { c with process := .zombie status }
  | read (c : UiInfo) : Changes c c.readFromClient
  | reap (c : UiInfo) (status : WaitStatus) (hzombie : c.process = .zombie status) :
      Changes c (c.reap status)
  | parsed (c : UiInfo) : Changes c c.parsed

/-- **A step changes at most one client**, in one of these ways. -/
theorem step_changes {p : CStr → Bool} {s s' : State n} {e : Event n} (h : step p s e = some s') :
    s'.clients = s.clients ∨
      ∃ i c, s'.clients = Function.update s.clients i c ∧ Changes (s.clients i) c := by
  cases e with
  | write i piece =>
    simp only [step] at h
    split at h
    · rename_i toWrite hrunning
      split at h
      · rename_i hpiece
        cases h
        exact Or.inr ⟨i, _, rfl, .write _ piece toWrite hrunning hpiece.2⟩
      · exact absurd h (by simp)
    · exact absurd h (by simp)
  | exit i status =>
    simp only [step] at h
    split at h
    · rename_i hrunning
      cases h
      exact Or.inr ⟨i, _, rfl, .exit _ status hrunning⟩
    · exact absurd h (by simp)
  | read =>
    simp only [step] at h
    split at h
    · rename_i cnr rest _
      split at h
      · cases h
        exact Or.inr ⟨cnr, _, rfl, .read _⟩
      · exact absurd h (by simp)
    · exact absurd h (by simp)
  | reap i =>
    simp only [step] at h
    split at h
    · rename_i cnr rest status _ hzombie
      cases h
      exact Or.inr ⟨i, _, rfl, .reap _ status hzombie⟩
    · exact absurd h (by simp)
  | parse =>
    simp only [step] at h
    split at h
    · rename_i cnr rest _
      split at h
      · split at h <;> cases h <;> exact Or.inr ⟨cnr, _, rfl, .parsed _⟩
      · cases h
        exact Or.inl rfl
    · exact absurd h (by simp)
  | build | ready | sigusr1 | alarm | selectFailed | scanned | reapedAll =>
    simp only [step] at h
    split at h
    · first
        | cases h
          exact Or.inl rfl
        | split at h
          · first
              | cases h
                exact Or.inl rfl
              | exact absurd h (by simp)
          · first
              | cases h
                exact Or.inl rfl
              | exact absurd h (by simp)
    · exact absurd h (by simp)

/-- What was collected, what is in the pipe and what is left to write make up the output of a client,
and the parent has its status right. -/
structure Written (output : List Char) (c : UiInfo) : Prop where
  output : c.collectedStr ++ c.pipe ++ c.process.toWrite = output
  record : c.status = c.process.uiStatus

theorem Written.changes {output : List Char} {c c' : UiInfo} (hnul : nul ∉ output)
    (hc : Written output c) (h : Changes c c') : Written output c' := by
  obtain ⟨houtput, hrecord⟩ := hc
  cases h with
  | write piece toWrite hrunning hpiece =>
    rw [hrunning] at houtput hrecord
    refine ⟨?_, hrecord⟩
    rw [← houtput]
    show c.collectedStr ++ (c.pipe ++ piece) ++ toWrite.drop piece.length =
      c.collectedStr ++ c.pipe ++ toWrite
    conv => rhs; rw [← List.take_append_drop piece.length toWrite, hpiece]
    simp
  | exit status hrunning =>
    rw [hrunning] at houtput hrecord
    exact ⟨houtput, hrecord⟩
  | read =>
    refine ⟨?_, hrecord⟩
    have hcstr : cstr (c.pipe.take cfgStrMaxLen) = c.pipe.take cfgStrMaxLen := by
      refine cstr_eq_self fun hmem => hnul ?_
      rw [← houtput]
      exact List.mem_append_left _ (List.mem_append_right _ (List.mem_of_mem_take hmem))
    rw [← houtput]
    show c.collectedStr ++ cstr (c.pipe.take cfgStrMaxLen) ++ c.pipe.drop cfgStrMaxLen ++
      c.process.toWrite = c.collectedStr ++ c.pipe ++ c.process.toWrite
    rw [hcstr, List.append_assoc c.collectedStr, List.take_append_drop]
  | reap status hzombie =>
    rw [hzombie] at houtput
    exact ⟨houtput, rfl⟩
  | parsed => exact ⟨houtput, hrecord⟩

/-- The clients of a state have the outputs `outputs`. -/
def State.Writes (outputs : Fin n → List Char) (s : State n) : Prop :=
  ∀ i, Written (outputs i) (s.clients i)

theorem step_writes {outputs : Fin n → List Char} {p : CStr → Bool} {s s' : State n} {e : Event n}
    (hnul : ∀ i, nul ∉ outputs i) (hs : s.Writes outputs) (h : step p s e = some s') :
    s'.Writes outputs := by
  rcases step_changes h with hsame | ⟨i, c, hupdate, hc⟩
  · unfold State.Writes
    rw [hsame]
    exact hs
  · intro j
    rw [hupdate]
    by_cases hj : j = i
    · subst hj
      rw [Function.update_self]
      exact (hs j).changes (hnul j) hc
    · rw [Function.update_of_ne hj]
      exact hs j

/-! ## Only clean clients decide -/

/-- The entry was parsed, in a good state of the parser, from the output of a client that exited with
status 0. -/
def ParsedFrom (outputs : Fin n → List Char) (parse : ρ → CStr → Option CfgBentry × ρ)
    (good : ρ → Prop) (clients : Fin n → UiInfo) (boot : CfgBentry) : Prop :=
  ∃ i p str, (clients i).process = .reaped (.exited 0) ∧ str <+: outputs i ∧ good p ∧
    (parse p str).1 = some boot

/-- Where the output of a client that exited with status 0 is parsed, the parser is in a good state. -/
def ParsesIn (good : ρ → Prop) (s : SigState n ρ) : SigEvent n → Prop
  | .parse => ∀ cnr rest, s.loop.pc = .parse cnr rest → (s.loop.clients cnr).status = .cleanExit →
      good s.parser
  | _ => True

/-- The entry is the default, and the index of the default is in range. -/
def IsDefault (config : CfgToplevel) (boot : CfgBentry) : Prop :=
  0 ≤ config.bootDefault ∧ config.bentryList[config.bootDefault.toNat]? = some boot

/-- The invariant for the result. -/
structure ResultInv (good : ρ → Prop) (outputs : Fin n → List Char) (s : SigState n ρ) : Prop where
  writes : s.loop.Writes outputs
  interrupt : s.phase = .interrupted → s.rcvdSig = some .sigusr1 ∨ s.alarmed = true
  timedOut : ∀ boot, s.result = some (.timedOut boot) → s.alarmed = true ∧ IsDefault config boot
  selected : ∀ boot, s.result = some (.selected boot) →
    ParsedFrom outputs parse good s.loop.clients boot

variable {config parse} {good : ρ → Prop}

/-- A client that was reaped stays reaped. -/
theorem Changes.reaped {c c' : UiInfo} {status : WaitStatus} (h : Changes c c')
    (hc : c.process = .reaped status) : c'.process = .reaped status := by
  cases h with
  | write piece toWrite hrunning _ => exact absurd (hc.symm.trans hrunning) (by simp)
  | exit status hrunning => exact absurd (hc.symm.trans hrunning) (by simp)
  | reap status hzombie => exact absurd (hc.symm.trans hzombie) (by simp)
  | read => exact hc
  | parsed => exact hc

theorem ParsedFrom.step {outputs : Fin n → List Char} {boot : CfgBentry} {p : CStr → Bool}
    {s s' : State n} {e : Event n} (h : ParsedFrom outputs parse good s.clients boot)
    (hstep : step p s e = some s') : ParsedFrom outputs parse good s'.clients boot := by
  obtain ⟨i, q, str, hreaped, hstr, hgood, hparse⟩ := h
  refine ⟨i, q, str, ?_, hstr, hgood, hparse⟩
  rcases step_changes hstep with hsame | ⟨j, c, hupdate, hc⟩
  · rw [hsame]
    exact hreaped
  · rw [hupdate]
    by_cases hij : i = j
    · subst hij
      rw [Function.update_self]
      exact hc.reaped hreaped
    · rw [Function.update_of_ne hij]
      exact hreaped

/-- A step of the loop keeps the invariant when it leaves signals and result alone. -/
theorem ResultInv.loop {outputs : Fin n → List Char} {s s' : SigState n ρ} {p : CStr → Bool}
    {e : Event n} (hnul : ∀ i, nul ∉ outputs i) (hs : ResultInv config parse good outputs s)
    (hstep : step p s.loop e = some s'.loop)
    (hphase : s'.phase = .interrupted → s.phase = .interrupted) (hsig : s'.rcvdSig = s.rcvdSig)
    (halarmed : s'.alarmed = s.alarmed) (hresult : s'.result = s.result) :
    ResultInv config parse good outputs s' where
  writes := step_writes hnul hs.writes hstep
  interrupt hi := by
    rw [hsig, halarmed]
    exact hs.interrupt (hphase hi)
  timedOut boot h := by
    rw [halarmed]
    exact hs.timedOut boot (hresult ▸ h)
  selected boot h := (hs.selected boot (hresult ▸ h)).step hstep

theorem uiTimeout_timedOut {boot : CfgBentry} (h : uiTimeout config = .timedOut boot) :
    IsDefault config boot := by
  unfold uiTimeout at h
  split at h
  · rename_i hle
    split at h
    · rename_i b hb
      cases h
      exact ⟨hle, hb⟩
    · cases h
  · cases h

theorem uiTimeout_ne_selected (boot : CfgBentry) : uiTimeout config ≠ .selected boot := by
  unfold uiTimeout
  split
  · split <;> simp
  · simp

/-- A handler keeps the invariant. -/
theorem ResultInv.deliver {outputs : Fin n → List Char} {s s' : SigState n ρ} {sig : Signal}
    (hs : ResultInv config parse good outputs s) (hloop : s'.loop = s.loop)
    (hsig : s'.rcvdSig = some sig) (hresult : s'.result = s.result)
    (halarmed : s.alarmed = true → s'.alarmed = true)
    (hnew : sig = .sigusr1 ∨ s'.alarmed = true) : ResultInv config parse good outputs s' where
  writes := hloop ▸ hs.writes
  interrupt _ := by
    rcases hnew with rfl | hal
    · exact Or.inl hsig
    · exact Or.inr hal
  timedOut boot h :=
    let ⟨hal, hdefault⟩ := hs.timedOut boot (hresult ▸ h)
    ⟨halarmed hal, hdefault⟩
  selected boot h := hloop ▸ hs.selected boot (hresult ▸ h)

/-- A client with a clean exit on record was reaped after an exit with status 0. -/
theorem Written.exited {output : List Char} {c : UiInfo} (hc : Written output c)
    (h : c.status = .cleanExit) : c.process = .reaped (.exited 0) := by
  have hrecord := hc.record.symm.trans h
  cases hp : c.process with
  | running _ | zombie _ => rw [hp] at hrecord; cases hrecord
  | reaped status =>
    rw [hp] at hrecord
    cases status with
    | signaled => cases hrecord
    | exited code =>
      cases code with
      | zero => rfl
      | succ code => cases hrecord

theorem sigStep_resultInv {outputs : Fin n → List Char} {s s' : SigState n ρ} {e : SigEvent n}
    (hnul : ∀ i, nul ∉ outputs i) (hs : ResultInv config parse good outputs s)
    (hgood : ParsesIn good s e)
    (h : sigStep config parse s e = some s') : ResultInv config parse good outputs s' := by
  unfold sigStep at h
  split at h
  · exact absurd h (by simp)
  cases e with
  | loop e =>
    simp only at h
    split at h
    · obtain ⟨loop, hloop, rfl⟩ := Option.map_eq_some_iff.mp h
      exact hs.loop hnul hloop id rfl rfl rfl
    · exact absurd h (by simp)
  | build =>
    obtain ⟨loop, hloop, rfl⟩ := Option.map_eq_some_iff.mp h
    exact hs.loop hnul hloop id rfl rfl rfl
  | select =>
    simp only at h
    split at h
    · cases h
      exact ⟨hs.writes, fun hi => absurd hi (by simp), hs.timedOut, hs.selected⟩
    · exact absurd h (by simp)
  | ready =>
    simp only at h
    split at h
    · obtain ⟨loop, hloop, rfl⟩ := Option.map_eq_some_iff.mp h
      exact hs.loop hnul hloop (fun hi => absurd hi (by simp)) rfl rfl rfl
    · exact absurd h (by simp)
  | check =>
    simp only at h
    split at h
    · rename_i hphase
      split at h
      · obtain ⟨loop, hloop, rfl⟩ := Option.map_eq_some_iff.mp h
        exact hs.loop hnul hloop (fun hi => absurd hi (by simp)) rfl rfl rfl
      · rename_i hsig
        cases h
        refine ⟨hs.writes, fun hi => absurd hi (by simp), fun boot hboot => ?_, fun boot hboot => ?_⟩
        · exact ⟨(hs.interrupt hphase).resolve_left hsig,
            uiTimeout_timedOut (Option.some.inj hboot)⟩
        · exact absurd (Option.some.inj hboot) (uiTimeout_ne_selected boot)
    · exact absurd h (by simp)
  | selectFailed =>
    simp only at h
    split at h
    · obtain ⟨loop, hloop, rfl⟩ := Option.map_eq_some_iff.mp h
      exact ⟨step_writes hnul hs.writes hloop, fun hi => absurd hi (by simp),
        fun boot hboot => absurd hboot (by simp), fun boot hboot => absurd hboot (by simp)⟩
    · exact absurd h (by simp)
  | parse =>
    simp only at h
    split at h
    · rename_i cnr rest hpc
      split at h
      · rename_i hclean
        obtain ⟨loop, hloop, rfl⟩ := Option.map_eq_some_iff.mp h
        refine ⟨step_writes hnul hs.writes hloop, hs.interrupt, fun boot hboot => ?_,
          fun boot hboot => ?_⟩
        · obtain ⟨b, _, hb⟩ := Option.map_eq_some_iff.mp hboot
          cases hb
        · obtain ⟨b, hparse, hb⟩ := Option.map_eq_some_iff.mp hboot
          cases hb
          have hbefore : ParsedFrom outputs parse good s.loop.clients boot := by
            refine ⟨cnr, s.parser, (s.loop.clients cnr).collectedStr, (hs.writes cnr).exited hclean,
              ?_, hgood cnr rest hpc hclean, hparse⟩
            rw [← (hs.writes cnr).output, List.append_assoc]
            exact List.prefix_append _ _
          exact hbefore.step hloop
      · obtain ⟨loop, hloop, rfl⟩ := Option.map_eq_some_iff.mp h
        exact hs.loop hnul hloop id rfl rfl rfl
    · exact absurd h (by simp)
  | sigalrm =>
    simp only at h
    split at h
    · cases h
      exact hs.deliver rfl rfl rfl (fun _ => rfl) (Or.inr rfl)
    · exact absurd h (by simp)
  | sigusr1 =>
    cases h
    exact hs.deliver rfl rfl rfl id (Or.inl rfl)
  | ret =>
    simp only at h
    split at h
    · cases h
      exact ⟨hs.writes, hs.interrupt, hs.timedOut, hs.selected⟩
    · exact absurd h (by simp)

/-- **The result of a run** in which the parser is in a good state wherever the output of a client
that exited with status 0 is parsed. -/
theorem run_resultInv {outputs : Fin n → List Char} {rcvdSig : Option Signal} {armed : Bool}
    {parser : ρ} {es : List (SigEvent n)} {s : SigState n ρ} (hnul : ∀ i, nul ∉ outputs i)
    (hgood : Along (sigStep config parse) (ParsesIn good)
      (.start outputs config rcvdSig armed parser) es)
    (hrun : run (sigStep config parse) (.start outputs config rcvdSig armed parser) es = some s) :
    ResultInv config parse good outputs s := by
  have hstart : ResultInv config parse good outputs
      (.start outputs config rcvdSig armed parser : SigState n ρ) :=
    ⟨fun _ => ⟨rfl, rfl⟩, fun h => absurd h (by simp [SigState.start]),
      fun _ h => absurd h (by simp [SigState.start]), fun _ h => absurd h (by simp [SigState.start])⟩
  exact run_inv (ResultInv config parse good outputs)
    (fun _ _ _ hs hgood h => sigStep_resultInv hnul hs hgood h) hstart hgood hrun

/-! ## A stopped timeout -/

/-- The parent is in `ui_select`. -/
def Pc.isSelect : Pc n → Bool
  | .select _ => true
  | _ => false

/-- The parent is behind the loop. -/
def Pc.isLeave : Pc n → Bool
  | .leave _ => true
  | _ => false

/-- The request to stop the timeout will be noticed: it comes while the parent waits in `select` or
before it has looked at `rcvd_sig`, or there is no timeout any more, or something else was decided.
And no alarm overwrites a request that was not noticed yet. -/
def StopNoticed (s : SigState n ρ) : SigEvent n → Prop
  | .sigusr1 => s.phase ≠ .outside ∨ s.loop.endtime = 0 ∨
      (s.loop.pc.isLeave = true ∧ ∀ boot, s.result ≠ some (.timedOut boot))
  | .sigalrm => ¬ (s.phase = .interrupted ∧ s.rcvdSig = some .sigusr1)
  | _ => True

/-- The invariant for the timeout. -/
structure StopInv (s : SigState n ρ) : Prop where
  waiting : s.phase ≠ .outside → s.loop.pc.isSelect = true
  alarm : s.loop.pc.isSelect = true → s.armed = true → 0 < s.loop.endtime
  interrupt : s.phase = .interrupted → s.rcvdSig = some .sigusr1 ∨ 0 < s.loop.endtime
  stopped : s.stopRequested = true → (s.phase = .interrupted ∧ s.rcvdSig = some .sigusr1) ∨
    s.loop.endtime = 0 ∨ s.loop.pc.isLeave = true
  timedOut : ∀ boot, s.result = some (.timedOut boot) →
    s.stopRequested = false ∧ 0 < s.loop.endtime ∧ s.loop.pc.isLeave = true

theorem not_isSelect_of_isLeave {pc : Pc n} (h : pc.isLeave = true) : ¬ pc.isSelect = true := by
  cases pc <;> simp [Pc.isLeave, Pc.isSelect] at *

/-- A plain step does not enter or leave `ui_select`, and does not touch the timeout. -/
theorem step_plain {p : CStr → Bool} {s s' : State n} {e : Event n} (hplain : e.isPlain = true)
    (h : step p s e = some s') : s'.endtime = s.endtime ∧ s'.pc.isSelect = s.pc.isSelect ∧
      s'.pc.isLeave = s.pc.isLeave := by
  cases e with
  | build | ready | sigusr1 | alarm | selectFailed | parse => cases hplain
  | write i piece =>
    simp only [step] at h
    split at h
    · split at h
      · cases h
        exact ⟨rfl, rfl, rfl⟩
      · cases h
    · cases h
  | exit i status =>
    simp only [step] at h
    split at h
    · cases h
      exact ⟨rfl, rfl, rfl⟩
    · cases h
  | scanned | reap =>
    simp only [step] at h
    split at h
    · rename_i hpc
      cases h
      exact ⟨rfl, by simp [State.setClient, hpc, Pc.isSelect],
        by simp [State.setClient, hpc, Pc.isLeave]⟩
    · cases h
  | read | reapedAll =>
    simp only [step] at h
    split at h
    · rename_i hpc
      split at h
      · cases h
        exact ⟨rfl, by simp [hpc, Pc.isSelect], by simp [hpc, Pc.isLeave]⟩
      · cases h
    · cases h

/-- A step that starts in no `select`, and does not decide anything, keeps the invariant. -/
theorem StopInv.of_same {s s' : SigState n ρ} (hs : StopInv s) (hphase : s'.phase = s.phase)
    (hsig : s'.rcvdSig = s.rcvdSig) (harmed : s'.armed = s.armed) (hresult : s'.result = s.result)
    (hstop : s'.stopRequested = s.stopRequested)
    (hsame : s'.loop.endtime = s.loop.endtime ∧ s'.loop.pc.isSelect = s.loop.pc.isSelect ∧
      s'.loop.pc.isLeave = s.loop.pc.isLeave) : StopInv s' := by
  obtain ⟨hend, hselect, hleave⟩ := hsame
  constructor
  · rw [hphase, hselect]
    exact hs.waiting
  · rw [hselect, harmed, hend]
    exact hs.alarm
  · rw [hphase, hsig, hend]
    exact hs.interrupt
  · rw [hstop, hphase, hsig, hend, hleave]
    exact hs.stopped
  · rw [hresult, hstop, hend, hleave]
    exact hs.timedOut

/-- Outside `select`, what was requested is seen from the timeout or from the position alone. -/
theorem StopInv.stopped_outside {s : SigState n ρ} (hs : StopInv s) (hphase : s.phase ≠ .interrupted)
    (hstop : s.stopRequested = true) : s.loop.endtime = 0 ∨ s.loop.pc.isLeave = true :=
  (hs.stopped hstop).resolve_left fun h => hphase h.1

/-- Where the parent is not in `ui_select`, `select` does not wait. -/
theorem StopInv.phase_outside {s : SigState n ρ} (hs : StopInv s)
    (hpc : s.loop.pc.isSelect = false) : s.phase = .outside := by
  by_contra hne
  exact absurd (hs.waiting hne) (by simp [hpc])

/-- Before the loop is left, the default was not decided on. -/
theorem StopInv.not_timedOut {s : SigState n ρ} (hs : StopInv s)
    (hpc : s.loop.pc.isLeave = false) (boot : CfgBentry) : s.result ≠ some (.timedOut boot) :=
  fun h => absurd (hs.timedOut boot h).2.2 (by simp [hpc])

theorem check_stopInv {s s' : SigState n ρ} (hs : StopInv s) (hrunning : s.returned = false)
    (h : sigStep config parse s .check = some s') : StopInv s' := by
  simp only [sigStep, hrunning, Bool.false_eq_true, if_false] at h
  split at h
  · rename_i hphase
    have hselect : s.loop.pc.isSelect = true := hs.waiting (by rw [hphase]; simp)
    split at h
    · obtain ⟨loop, hloop, rfl⟩ := Option.map_eq_some_iff.mp h
      simp only [step] at hloop
      split at hloop
      · rename_i waitset hpc
        cases hloop
        exact ⟨fun hne => absurd rfl hne, fun hsel => absurd hsel (by simp [Pc.isSelect]),
          fun hi => absurd hi (by simp), fun _ => Or.inr (Or.inl rfl),
          fun boot hboot => absurd hboot (hs.not_timedOut (by simp [hpc, Pc.isLeave]) boot)⟩
      · cases hloop
    · rename_i hsig
      cases h
      have hend : 0 < s.loop.endtime := (hs.interrupt hphase).resolve_left hsig
      have hstop : s.stopRequested = false := by
        by_contra hne
        rcases hs.stopped (by simpa using hne) with hnotice | hzero | hleave
        · exact hsig hnotice.2
        · omega
        · exact not_isSelect_of_isLeave hleave hselect
      exact ⟨fun hne => absurd rfl hne, fun hsel => absurd hsel (by simp [Pc.isSelect]),
        fun hi => absurd hi (by simp), fun _ => Or.inr (Or.inr rfl),
        fun boot _ => ⟨hstop, hend, rfl⟩⟩
  · cases h

theorem parse_stopInv {s s' : SigState n ρ} (hs : StopInv s) (hrunning : s.returned = false)
    (h : sigStep config parse s .parse = some s') : StopInv s' := by
  simp only [sigStep, hrunning, Bool.false_eq_true, if_false] at h
  split at h
  · rename_i cnr rest hpc
    have hselect : s.loop.pc.isSelect = false := by simp [hpc, Pc.isSelect]
    have hleave : s.loop.pc.isLeave = false := by simp [hpc, Pc.isLeave]
    have hphase := hs.phase_outside hselect
    have hstopped : s.stopRequested = true → s.loop.endtime = 0 := fun hstop =>
      (hs.stopped_outside (by rw [hphase]; simp) hstop).resolve_right (by simp [hleave])
    split at h
    · rename_i hclean
      obtain ⟨loop, hloop, rfl⟩ := Option.map_eq_some_iff.mp h
      simp only [step, hpc, if_pos hclean] at hloop
      have hresult : ∀ (r : Option CfgBentry) boot,
          r.map Result.selected ≠ some (.timedOut boot) := fun r boot => by cases r <;> simp
      split at hloop
      · cases hloop
        exact ⟨fun hne => absurd hphase hne, fun hsel => absurd hsel (by simp [Pc.isSelect]),
          fun hi => absurd (hphase.symm.trans hi) (by simp), fun _ => Or.inr (Or.inr rfl),
          fun boot hboot => absurd hboot (hresult _ boot)⟩
      · cases hloop
        exact ⟨fun hne => absurd hphase hne, fun hsel => absurd hsel (by simp [Pc.isSelect]),
          fun hi => absurd (hphase.symm.trans hi) (by simp),
          fun hstop => Or.inr (Or.inl (hstopped hstop)),
          fun boot hboot => absurd hboot (hresult _ boot)⟩
    · rename_i hclean
      obtain ⟨loop, hloop, rfl⟩ := Option.map_eq_some_iff.mp h
      simp only [step, hpc, if_neg hclean] at hloop
      cases hloop
      exact ⟨fun hne => absurd hphase hne, fun hsel => absurd hsel (by simp [Pc.isSelect]),
        fun hi => absurd (hphase.symm.trans hi) (by simp),
        fun hstop => Or.inr (Or.inl (hstopped hstop)),
        fun boot hboot => absurd hboot (hs.not_timedOut hleave boot)⟩
  · cases h

theorem signal_stopInv {s s' : SigState n ρ} {e : SigEvent n} (hs : StopInv s)
    (hin : StopNoticed s e) (he : e = .sigalrm ∨ e = .sigusr1) (hrunning : s.returned = false)
    (h : sigStep config parse s e = some s') : StopInv s' := by
  have hphase : ∀ sig, (s.deliver sig).phase ≠ .outside → s.phase ≠ .outside := by
    intro sig hne heq
    exact hne (by simp [SigState.deliver, heq])
  rcases he with rfl | rfl <;>
    simp only [sigStep, hrunning, Bool.false_eq_true, if_false] at h
  · split at h
    · rename_i harmed
      cases h
      have hsel : s.phase ≠ .outside → 0 < s.loop.endtime := fun hne =>
        hs.alarm (hs.waiting hne) harmed
      refine ⟨fun hne => hs.waiting (hphase .sigalrm hne), fun _ hfalse => absurd hfalse (by simp),
        fun hi => Or.inr (hsel (hphase .sigalrm (by rw [hi]; simp))), fun hstop => ?_, hs.timedOut⟩
      rcases hs.stopped hstop with hnotice | hzero | hleave
      · exact absurd hnotice hin
      · exact Or.inr (Or.inl hzero)
      · exact Or.inr (Or.inr hleave)
    · cases h
  · cases h
    refine ⟨fun hne => hs.waiting (hphase .sigusr1 hne), hs.alarm, fun _ => Or.inl rfl, fun _ => ?_,
      fun boot hboot => ?_⟩
    · rcases hin with hne | hzero | hleave
      · exact Or.inl ⟨by simp [SigState.deliver, hne], rfl⟩
      · exact Or.inr (Or.inl hzero)
      · exact Or.inr (Or.inr hleave.1)
    · obtain ⟨_, hend, hleave⟩ := hs.timedOut boot hboot
      rcases hin with hne | hzero | hother
      · exact absurd (hs.waiting hne) (not_isSelect_of_isLeave hleave)
      · omega
      · exact absurd hboot (hother.2 boot)

/-- **Every step keeps the invariant for the timeout**, if a request to stop it is noticed. -/
theorem sigStep_stopInv {s s' : SigState n ρ} {e : SigEvent n} (hs : StopInv s)
    (hin : StopNoticed s e) (h : sigStep config parse s e = some s') : StopInv s' := by
  have hrunning : s.returned = false := by
    by_contra hne
    simp only [sigStep, if_pos (Bool.not_eq_false _ ▸ hne : s.returned = true)] at h
    cases h
  cases e with
  | check => exact check_stopInv hs hrunning h
  | parse => exact parse_stopInv hs hrunning h
  | sigalrm => exact signal_stopInv hs hin (Or.inl rfl) hrunning h
  | sigusr1 => exact signal_stopInv hs hin (Or.inr rfl) hrunning h
  | loop e =>
    simp only [sigStep, hrunning, Bool.false_eq_true, if_false] at h
    split at h
    · rename_i hplain
      obtain ⟨loop, hloop, rfl⟩ := Option.map_eq_some_iff.mp h
      exact hs.of_same rfl rfl rfl rfl rfl (step_plain hplain hloop)
    · cases h
  | build =>
    simp only [sigStep, hrunning, Bool.false_eq_true, if_false] at h
    obtain ⟨loop, hloop, rfl⟩ := Option.map_eq_some_iff.mp h
    simp only [step] at hloop
    split at hloop
    · rename_i hpc
      cases hloop
      have hphase := hs.phase_outside (by simp [hpc, Pc.isSelect])
      refine ⟨fun hne => absurd hphase hne, fun _ harmed => by simpa using harmed,
        fun hi => absurd (hphase.symm.trans hi) (by simp), fun hstop => Or.inr (Or.inl ?_),
        fun boot hboot => absurd hboot (hs.not_timedOut (by simp [hpc, Pc.isLeave]) boot)⟩
      exact (hs.stopped_outside (by rw [hphase]; simp) hstop).resolve_right
        (by simp [hpc, Pc.isLeave])
    · cases hloop
  | select =>
    simp only [sigStep, hrunning, Bool.false_eq_true, if_false] at h
    split at h
    · rename_i waitset hpc hphase
      cases h
      exact ⟨fun _ => by simp [hpc, Pc.isSelect], hs.alarm, fun hi => absurd hi (by simp),
        fun hstop => Or.inr (hs.stopped_outside (by rw [hphase]; simp) hstop), hs.timedOut⟩
    · cases h
  | ready =>
    simp only [sigStep, hrunning, Bool.false_eq_true, if_false] at h
    split at h
    · rename_i hphase
      obtain ⟨loop, hloop, rfl⟩ := Option.map_eq_some_iff.mp h
      simp only [step] at hloop
      split at hloop
      · rename_i waitset hpc
        split at hloop
        · cases hloop
        · cases hloop
          have hleave : s.loop.pc.isLeave = false := by simp [hpc, Pc.isLeave]
          refine ⟨fun hne => absurd rfl hne, fun hsel => absurd hsel (by simp [Pc.isSelect]),
            fun hi => absurd hi (by simp), fun hstop => Or.inr (Or.inl ?_),
            fun boot hboot => absurd hboot (hs.not_timedOut hleave boot)⟩
          exact (hs.stopped_outside (by rw [hphase]; simp) hstop).resolve_right (by simp [hleave])
      · cases hloop
    · cases h
  | selectFailed =>
    simp only [sigStep, hrunning, Bool.false_eq_true, if_false] at h
    split at h
    · obtain ⟨loop, hloop, rfl⟩ := Option.map_eq_some_iff.mp h
      simp only [step] at hloop
      split at hloop
      · cases hloop
        exact ⟨fun hne => absurd rfl hne, fun hsel => absurd hsel (by simp [Pc.isSelect]),
          fun hi => absurd hi (by simp), fun _ => Or.inr (Or.inr rfl),
          fun boot hboot => absurd hboot (by simp)⟩
      · cases hloop
    · cases h
  | ret =>
    simp only [sigStep, hrunning, Bool.false_eq_true, if_false] at h
    split at h
    · cases h
      exact ⟨hs.waiting, hs.alarm, hs.interrupt, hs.stopped, hs.timedOut⟩
    · cases h

variable (config parse)

/-- **A stopped timeout stays stopped** in a run in which every request to stop it is noticed: when
`userinterface()` returns after a `SIGUSR1`, it does not return the default for a timeout. -/
theorem timeout_stays_stopped {outputs : Fin n → List Char} {rcvdSig : Option Signal} {armed : Bool}
    {parser : ρ} {es : List (SigEvent n)} {s : SigState n ρ}
    (hin : Along (sigStep config parse) StopNoticed (.start outputs config rcvdSig armed parser) es)
    (hrun : run (sigStep config parse) (.start outputs config rcvdSig armed parser) es = some s)
    (hstop : s.stopRequested = true) (boot : CfgBentry) : s.result ≠ some (.timedOut boot) := by
  have hstart : StopInv (.start outputs config rcvdSig armed parser : SigState n ρ) :=
    ⟨fun hne => absurd rfl hne,
      fun hsel => absurd hsel (by simp [SigState.start, State.start, Pc.isSelect]),
      fun hi => absurd hi (by simp [SigState.start]),
      fun hfalse => absurd hfalse (by simp [SigState.start]),
      fun _ hboot => absurd hboot (by simp [SigState.start])⟩
  have hinv := run_inv StopInv (fun _ _ _ hs hin h => sigStep_stopInv hs hin h) hstart hin hrun
  intro hboot
  exact absurd (hinv.timedOut boot hboot).1 (by simp [hstop])

/-- A configuration with one entry, which is booted after five seconds. -/
def oneEntryConfig : CfgToplevel := { CfgToplevel.init with timeout := 5, bentryList := [.init] }

/-- The timeout is stopped while the parent waits, and the alarm comes before the next `select`. -/
def stoppedRun : List (SigEvent 0) := [.build, .select, .sigusr1, .check, .sigalrm, .build, .select]

theorem timeout_stays_stopped_stoppedRun :
    ∃ s : SigState 0 Unit, run (sigStep oneEntryConfig fun _ _ => (none, ()))
        (.start (fun _ => []) oneEntryConfig none false ()) stoppedRun = some s ∧
      s.result ≠ some (.timedOut .init) := by
  refine ⟨_, rfl, @timeout_stays_stopped 0 Unit oneEntryConfig (fun _ _ => (none, ())) (fun _ => [])
    none false () stoppedRun _ ?_ rfl rfl .init⟩
  exact .cons trivial rfl <| .cons trivial rfl <| .cons (Or.inl (by decide)) rfl <|
    .cons trivial rfl <| .cons (fun h => absurd h.1 (by decide)) rfl <| .cons trivial rfl <|
    .cons trivial rfl trivial

/-- **A `SIGUSR1` that comes before `select` is lost**: the alarm overwrites it, and the default is
returned although the timeout was stopped. -/
theorem stop_overtaken :
    ∃ s : SigState 0 Unit, run (sigStep oneEntryConfig fun _ _ => (none, ()))
        (.start (fun _ => []) oneEntryConfig none false ())
        [.sigusr1, .build, .select, .sigalrm, .check, .ret] = some s ∧
      s.stopRequested = true ∧ s.returned = true ∧ s.result = some (.timedOut .init) :=
  ⟨_, rfl, rfl, rfl, rfl⟩

end Sysload.UiControl
