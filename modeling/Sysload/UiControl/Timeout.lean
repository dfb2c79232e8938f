import Sysload.UiControl.Signals

/-!
# The timeout of a call of `userinterface()` (`ui_control.c`)

The alarm is set anew whenever the parent waits, and with a timeout of zero it is taken back. So
neither an alarm of an earlier call nor the signal that an earlier call has left in `rcvd_sig` ends a
call without a timeout.

Source: `src/core/ui_control.c`, `ui_select` and `ui_timeout`.

Results:
* `sigStep_timing`: what holds of alarm, `rcvd_sig` and timeout before a step holds behind it.
* **`timedOut_timeout`**: the default is only returned if the call began with a timeout.
* **`seesStop_timing`**: behind the step that finds a request to stop the timeout there is none.
-/

namespace Sysload.UiControl

variable {n : Nat} {ρ : Type}

/-- In this run a request to stop the timeout is seen: behind an interrupted `select` the parent finds
`SIGUSR1` in `rcvd_sig`. -/
def SeesStop (config : CfgToplevel) (parse : ρ → CStr → Option CfgBentry × ρ) (start : SigState n ρ)
    (es : List (SigEvent n)) : Prop :=
  ∃ before after s, es = before ++ .check :: after ∧
    run (sigStep config parse) start before = some s ∧ s.rcvdSig = some .sigusr1

/-- Alarm, `rcvd_sig` and timeout of a call that began with `timeout`. -/
structure Timing (timeout : Nat) (s : SigState n ρ) : Prop where
  endtime : s.loop.endtime ≤ timeout
  waiting : s.phase ≠ .outside → s.loop.pc.isSelect = true
  alarm : s.loop.pc.isSelect = true → s.armed = true → 0 < s.loop.endtime
  interrupt : s.phase = .interrupted → s.rcvdSig = some .sigusr1 ∨ 0 < s.loop.endtime
  timedOut : ∀ boot, s.result = some (.timedOut boot) →
    0 < s.loop.endtime ∧ s.loop.pc.isLeave = true
  returned : s.returned = true → s.loop.pc.isLeave = true

section Step

variable {config : CfgToplevel} {parse : ρ → CStr → Option CfgBentry × ρ} {timeout : Nat}
  {s s' : SigState n ρ}

/-- Where the parent is not in `ui_select`, `select` does not wait. -/
theorem Timing.outside (hs : Timing timeout s) (hpc : s.loop.pc.isSelect = false) :
    s.phase = .outside := by
  by_contra hne
  exact absurd (hs.waiting hne) (by simp [hpc])

/-- Before the loop is left, the default was not decided on. -/
theorem Timing.not_timedOut (hs : Timing timeout s) (hpc : s.loop.pc.isLeave = false)
    (boot : CfgBentry) : s.result ≠ some (.timedOut boot) :=
  fun h => absurd (hs.timedOut boot h).2 (by simp [hpc])

/-- A step of the parent that leaves signals and timeout alone, outside `select`. -/
theorem Timing.of_outside (hs : Timing timeout s) (hphase : s'.phase = .outside)
    (hend : s'.loop.endtime = s.loop.endtime)
    (halarm : s'.loop.pc.isSelect = true → s'.armed = true → 0 < s'.loop.endtime)
    (hresult : ∀ boot, s'.result ≠ some (.timedOut boot)) (hrunning : s'.returned = false) :
    Timing timeout s' where
  endtime := hend ▸ hs.endtime
  waiting hne := absurd hphase hne
  alarm := halarm
  interrupt hi := absurd (hphase.symm.trans hi) (by simp)
  timedOut boot h := absurd h (hresult boot)
  returned h := absurd (hrunning.symm.trans h) (by simp)

/-- A step that leaves signals and timeout alone. -/
theorem Timing.of_same (hs : Timing timeout s) (hphase : s'.phase = s.phase)
    (hsig : s'.rcvdSig = s.rcvdSig) (harmed : s'.armed = s.armed) (hresult : s'.result = s.result)
    (hend : s'.loop.endtime = s.loop.endtime)
    (hselect : s'.loop.pc.isSelect = s.loop.pc.isSelect)
    (hleave : s'.loop.pc.isLeave = s.loop.pc.isLeave)
    (hreturned : s'.returned = true → s'.loop.pc.isLeave = true) : Timing timeout s' where
  endtime := hend ▸ hs.endtime
  waiting h := hselect ▸ hs.waiting (hphase ▸ h)
  alarm h h' := hend ▸ hs.alarm (hselect ▸ h) (harmed ▸ h')
  interrupt h := by
    rw [hsig, hend]
    exact hs.interrupt (hphase ▸ h)
  timedOut boot h := by
    rw [hend, hleave]
    exact hs.timedOut boot (hresult ▸ h)
  returned := hreturned

theorem check_timing (hs : Timing timeout s) (hrunning : s.returned = false)
    (h : sigStep config parse s .check = some s') : Timing timeout s' := by
  simp only [sigStep, hrunning, Bool.false_eq_true, if_false] at h
  split at h
  · rename_i hphase
    split at h
    · -- the timeout is switched off
      obtain ⟨loop, hloop, rfl⟩ := Option.map_eq_some_iff.mp h
      simp only [step] at hloop
      split at hloop
      · rename_i waitset hpc
        cases hloop
        exact ⟨Nat.zero_le _, fun hne => absurd rfl hne,
          fun hsel => absurd hsel (by simp [Pc.isSelect]), fun hi => absurd hi (by simp),
          fun boot hboot => absurd hboot (hs.not_timedOut (by simp [hpc, Pc.isLeave]) boot),
          fun hret => absurd hret (by simp)⟩
      · cases hloop
    · rename_i hsig
      cases h
      have hend : 0 < s.loop.endtime := (hs.interrupt hphase).resolve_left hsig
      exact ⟨hs.endtime, fun hne => absurd rfl hne, fun hsel => absurd hsel (by simp [Pc.isSelect]),
        fun hi => absurd hi (by simp), fun _ _ => ⟨hend, rfl⟩, fun _ => rfl⟩
  · cases h

theorem signal_timing {e : SigEvent n} (hs : Timing timeout s)
    (he : e = .sigalrm ∨ e = .sigusr1) (hrunning : s.returned = false)
    (h : sigStep config parse s e = some s') : Timing timeout s' := by
  have hphase : ∀ sig, (s.deliver sig).phase ≠ .outside → s.phase ≠ .outside := by
    intro sig hne heq
    exact hne (by simp [SigState.deliver, heq])
  rcases he with rfl | rfl <;>
    simp only [sigStep, hrunning, Bool.false_eq_true, if_false] at h
  · split at h
    · rename_i harmed
      cases h
      refine ⟨hs.endtime, fun hne => hs.waiting (hphase .sigalrm hne),
        fun _ hfalse => absurd hfalse (by simp), fun hi => ?_, hs.timedOut, hs.returned⟩
      have hselect := hs.waiting (hphase .sigalrm (by rw [hi]; simp))
      exact Or.inr (hs.alarm hselect harmed)
    · cases h
  · cases h
    exact ⟨hs.endtime, fun hne => hs.waiting (hphase .sigusr1 hne), hs.alarm, fun _ => Or.inl rfl,
      hs.timedOut, hs.returned⟩

theorem parse_timing (hs : Timing timeout s) (hrunning : s.returned = false)
    (h : sigStep config parse s .parse = some s') : Timing timeout s' := by
  simp only [sigStep, hrunning, Bool.false_eq_true, if_false] at h
  split at h
  · rename_i cnr rest hpc
    have hphase := hs.outside (by simp [hpc, Pc.isSelect])
    have hresult : ∀ (r : Option CfgBentry) boot,
        r.map Result.selected ≠ some (.timedOut boot) := fun r boot => by cases r <;> simp
    split at h
    · rename_i hclean
      obtain ⟨loop, hloop, rfl⟩ := Option.map_eq_some_iff.mp h
      simp only [step, hpc, if_pos hclean] at hloop
      split at hloop
      · cases hloop
        exact hs.of_outside hphase rfl (fun hsel => absurd hsel (by simp [Pc.isSelect]))
          (hresult _) rfl
      · cases hloop
        exact hs.of_outside hphase rfl (fun hsel => absurd hsel (by simp [Pc.isSelect]))
          (hresult _) rfl
    · rename_i hclean
      obtain ⟨loop, hloop, rfl⟩ := Option.map_eq_some_iff.mp h
      simp only [step, hpc, if_neg hclean] at hloop
      cases hloop
      exact hs.of_outside hphase rfl (fun hsel => absurd hsel (by simp [Pc.isSelect]))
        (hs.not_timedOut (by simp [hpc, Pc.isLeave])) rfl
  · cases h

/-- **Every step keeps** what holds of alarm, `rcvd_sig` and timeout. -/
theorem sigStep_timing {e : SigEvent n} (hs : Timing timeout s)
    (h : sigStep config parse s e = some s') : Timing timeout s' := by
  have hrunning : s.returned = false := by
    by_contra hne
    simp only [sigStep, if_pos (Bool.not_eq_false _ ▸ hne : s.returned = true)] at h
    cases h
  cases e with
  | check => exact check_timing hs hrunning h
  | parse => exact parse_timing hs hrunning h
  | sigalrm => exact signal_timing hs (Or.inl rfl) hrunning h
  | sigusr1 => exact signal_timing hs (Or.inr rfl) hrunning h
  | loop e =>
    simp only [sigStep, hrunning, Bool.false_eq_true, if_false] at h
    split at h
    · rename_i hplain
      obtain ⟨loop, hloop, rfl⟩ := Option.map_eq_some_iff.mp h
      obtain ⟨hend, hselect, hleave⟩ := step_plain hplain hloop
      exact hs.of_same rfl rfl rfl rfl hend hselect hleave
        fun hret => absurd hret (by simp)
    · cases h
  | build =>
    simp only [sigStep, hrunning, Bool.false_eq_true, if_false] at h
    obtain ⟨loop, hloop, rfl⟩ := Option.map_eq_some_iff.mp h
    simp only [step] at hloop
    split at hloop
    · rename_i hpc
      cases hloop
      have hphase := hs.outside (by simp [hpc, Pc.isSelect])
      exact hs.of_outside hphase rfl (fun _ harmed => by simpa using harmed)
        (hs.not_timedOut (by simp [hpc, Pc.isLeave])) rfl
    · cases hloop
  | select =>
    simp only [sigStep, hrunning, Bool.false_eq_true, if_false] at h
    split at h
    · rename_i waitset hpc hphase
      cases h
      exact ⟨hs.endtime, fun _ => by simp [hpc, Pc.isSelect], hs.alarm, fun hi => absurd hi (by simp),
        hs.timedOut, fun hret => absurd hret (by simp)⟩
    · cases h
  | ready =>
    simp only [sigStep, hrunning, Bool.false_eq_true, if_false] at h
    split at h
    · rename_i hphase
      obtain ⟨loop, hloop, rfl⟩ := Option.map_eq_some_iff.mp h
      simp only [step] at hloop
      split at hloop
      · rename_i waitset hpc
        split at hloop
        · cases hloop
        · cases hloop
          exact hs.of_outside rfl rfl
            (fun hsel => absurd hsel (by simp [Pc.isSelect]))
            (hs.not_timedOut (by simp [hpc, Pc.isLeave])) rfl
      · cases hloop
    · cases h
  | selectFailed =>
    simp only [sigStep, hrunning, Bool.false_eq_true, if_false] at h
    split at h
    · rename_i hphase
      obtain ⟨loop, hloop, rfl⟩ := Option.map_eq_some_iff.mp h
      simp only [step] at hloop
      split at hloop
      · cases hloop
        exact hs.of_outside rfl rfl
          (fun hsel => absurd hsel (by simp [Pc.isSelect])) (fun boot => by simp) rfl
      · cases hloop
    · cases h
  | ret =>
    simp only [sigStep, hrunning, Bool.false_eq_true, if_false] at h
    split at h
    · rename_i hpc
      cases h
      exact hs.of_same rfl rfl rfl rfl rfl rfl rfl fun _ => by simp [hpc, Pc.isLeave]
    · cases h

end Step

/-! ## Calls -/

section Call

variable {config : CfgToplevel} {parse : ρ → CStr → Option CfgBentry × ρ}
  {outputs : Fin n → List Char} {rcvdSig : Option Signal} {armed : Bool} {parser : ρ}
  {es : List (SigEvent n)} {s : SigState n ρ}

theorem timing_start : Timing config.timeout.toNat
    (.start outputs config rcvdSig armed parser : SigState n ρ) :=
  ⟨Nat.le_refl _, fun hne => absurd rfl hne,
    fun hsel => absurd hsel (by simp [SigState.start, State.start, Pc.isSelect]),
    fun hi => absurd hi (by simp [SigState.start]),
    fun _ hboot => absurd hboot (by simp [SigState.start]),
    fun hret => absurd hret (by simp [SigState.start])⟩

/-- What holds of alarm, `rcvd_sig` and timeout holds behind a run. -/
theorem run_timing {timeout : Nat} {start : SigState n ρ} (hs : Timing timeout start)
    (hrun : run (sigStep config parse) start es = some s) : Timing timeout s :=
  run_inv (P := fun _ _ => True) (Timing timeout) (fun _ _ _ hs _ h => sigStep_timing hs h) hs
    (along_true _ _ _) hrun

/-- **The default is only returned** if the call began with a timeout. -/
theorem timedOut_timeout {boot : CfgBentry}
    (hrun : run (sigStep config parse) (.start outputs config rcvdSig armed parser) es = some s)
    (hresult : s.result = some (.timedOut boot)) : 0 < config.timeout := by
  have htiming := run_timing timing_start hrun
  have hpos := (htiming.timedOut boot hresult).1
  have hle := htiming.endtime
  omega

/-- The step that finds a request switches the timeout off. -/
theorem check_endtime {s' : SigState n ρ} (hsig : s.rcvdSig = some .sigusr1)
    (h : sigStep config parse s .check = some s') : s'.loop.endtime = 0 := by
  unfold sigStep at h
  split at h
  · cases h
  · simp only [hsig] at h
    split at h
    · obtain ⟨loop, hloop, rfl⟩ := Option.map_eq_some_iff.mp h
      simp only [step] at hloop
      split at hloop
      · cases hloop
        rfl
      · cases hloop
    · cases h

/-- **A call that has seen a request** to stop the timeout goes on as one that began without a
timeout. -/
theorem seesStop_timing
    (hseen : SeesStop config parse (.start outputs config rcvdSig armed parser) es)
    (hrun : run (sigStep config parse) (.start outputs config rcvdSig armed parser) es = some s) :
    Timing 0 s := by
  obtain ⟨before, after, s₁, rfl, hbefore, hsig⟩ := hseen
  rw [run_append, hbefore, Option.bind_some] at hrun
  obtain ⟨s₂, hcheck, hafter⟩ := Option.bind_eq_some_iff.mp hrun
  have htiming := sigStep_timing (run_timing timing_start hbefore) hcheck
  exact run_timing { htiming with endtime := Nat.le_of_eq (check_endtime hsig hcheck) } hafter

end Call

end Sysload.UiControl
