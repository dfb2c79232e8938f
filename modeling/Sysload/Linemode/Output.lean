import Sysload.Linemode.Menu

/-!
# The output of the line mode user interface (`ui_linemode.c`, `config.c`)

Everything but the boot entry goes to the terminal. The standard output is a pipe to the parent, and
the only thing on it is the text of the boot entry with which the menu loop is left.

Source: `src/core/ui_linemode.c`, `main`; `src/core/config.c`, `cfg_bentry_print`. Out of scope is a
standard output that cannot be written to.

Results:
* `round_output`: a round writes nothing, or it is the last one and its last event is a boot entry.
* **`session_output`**: the output of a session is empty, or the text of one boot entry; if that is an
  entry of the configuration and locked, its password was right.
-/

namespace Sysload.Linemode

/-! ## The text -/

/-- The strings of a boot entry, where `cfg_bentry_print` leaves out `NULL` as it does an empty
string. -/
def Bentry.strings (b : Bentry) : CfgBentry :=
  ⟨b.title.getD [], b.label.getD [], b.root.getD [], b.kernel.getD [], b.initrd.getD [],
    b.cmdline.getD [], b.parmfile.getD [], b.insfile.getD [], b.bootmap.getD [], b.locked,
    b.pause.getD [], b.action⟩

/-- `cfg_bentry_print`. -/
def Bentry.print (b : Bentry) : CStr := cfgBentryPrint b.strings

/-- What an event writes to standard output. -/
def Event.output : Event → CStr
  | emitted _ bentry => bentry.print
  | delivered _ | selected _ | passwordOk _ | modify _ | shown _ _ => []

/-- The standard output of a session. -/
def sessionOutput (rounds : List (Tty × List Event)) : CStr :=
  rounds.flatMap fun round => round.2.flatMap Event.output

/-! ## Rounds -/

/-- Nothing is written. -/
def Silent (events : List Event) : Prop := ∀ source bentry, .emitted source bentry ∉ events

theorem silent_nil : Silent [] := fun _ _ => List.not_mem_nil

theorem Silent.log {events : List Event} {e : Event} (h : Silent events)
    (he : ∀ source bentry, e ≠ .emitted source bentry) : Silent (events ++ [e]) :=
  fun source bentry hmem => (List.mem_append.mp hmem).elim (h source bentry) fun hmem =>
    he source bentry (List.mem_singleton.mp hmem).symm

theorem Silent.log_command {events : List Event} {e : Event} {i : Nat} (h : Silent events)
    (he : e.OfCommand i) : Silent (events ++ [e]) := by
  cases he with
  | shown _ => exact h.log (by simp)
  | modify => exact h.log (by simp)

theorem Silent.output {events : List Event} (h : Silent events) :
    events.flatMap Event.output = [] := by
  refine List.flatMap_eq_nil_iff.mpr fun e he => ?_
  cases e with
  | emitted source bentry => exact absurd he (h source bentry)
  | _ => rfl

variable {config : CfgToplevel}

/-- The boot entry with which the loop is left: an entry of the configuration, or one with values from
the terminal. -/
def Left (config : CfgToplevel) : Source → Bentry → Prop
  | .entry i, bentry => ∃ b, config.bentryList[i]? = some b ∧ bentry = .ofConfig b
  | .modified _, _ | .manual, _ => True

/-- **A round** writes nothing, or it is the last one and ends with a boot entry on standard output. -/
theorem round_output {t t' : Tty} {r : Except Halt Bool} (ht : Silent t.events)
    (h : (round config).Runs t r t') :
    (r ≠ .ok true ∧ Silent t'.events) ∨
      r = .ok true ∧ ∃ before source bentry, t'.events = before ++ [.emitted source bentry] ∧
        Silent before ∧ Left config source bentry := by
  have hread := @total_readSelection config Silent (fun _ _ h => h.log (by simp))
    (fun _ _ h => h.log (by simp))
  rcases Routine.runs_bind.mp h with ⟨found, t₁, hfound, h⟩ | ⟨e, hfound, he⟩
  swap
  · exact Or.inl ⟨by simp [← he], hread.keeps _ _ _ ht hfound⟩
  have ht₁ := hread.keeps _ _ _ ht hfound
  cases found with
  | none =>
    obtain ⟨hr, rfl⟩ := Routine.runs_pure.mp h
    exact Or.inl ⟨by simp [← hr], ht₁⟩
  | some found =>
    obtain ⟨command, i, bentry⟩ := found
    have hunlock := @total_unlock config Silent i (fun _ h => h.log (by simp)) bentry
    rcases Routine.runs_bind.mp h with ⟨ok, t₂, hok, h⟩ | ⟨e, hok, he⟩
    swap
    · exact Or.inl ⟨by simp [← he], hunlock.keeps _ _ _ ht₁ hok⟩
    have ht₂ := hunlock.keeps _ _ _ ht₁ hok
    cases ok with
    | false =>
      obtain ⟨hr, rfl⟩ := Routine.runs_pure.mp h
      exact Or.inl ⟨by simp [← hr], ht₂⟩
    | true =>
      have hserve := @total_serve Silent i (fun _ _ h he => h.log_command he) bentry command
      rcases Routine.runs_bind.mp h with ⟨left, t₃, hleft, h⟩ | ⟨e, hleft, he⟩
      swap
      · exact Or.inl ⟨by simp [← he], hserve.keeps _ _ _ ht₂ hleft⟩
      have ht₃ := hserve.keeps _ _ _ ht₂ hleft
      cases left with
      | none =>
        obtain ⟨hr, rfl⟩ := Routine.runs_pure.mp h
        exact Or.inl ⟨by simp [← hr], ht₃⟩
      | some left =>
        obtain ⟨source, bentry'⟩ := left
        obtain ⟨t₄, hleave, hevents⟩ := leave_some source bentry' t₃
        obtain ⟨rfl, rfl⟩ := h.unique hleave
        refine Or.inr ⟨rfl, t₃.events, source, bentry', hevents, ht₃, ?_⟩
        rcases serve_source hleft with ⟨_, rfl, rfl, _⟩ | ⟨_, rfl | rfl⟩
        · exact ⟨bentry, readSelection_some hfound, rfl⟩
        · exact trivial
        · exact trivial

/-- The output of a last round. -/
theorem output_emitted {before : List Event} {source : Source} {bentry : Bentry}
    (h : Silent before) :
    (before ++ [Event.emitted source bentry]).flatMap Event.output = bentry.print := by
  rw [List.flatMap_append, h.output, List.flatMap_singleton, List.nil_append]
  rfl

/-! ## Sessions -/

/-- What is known of the boot entry on standard output. -/
structure Picked (config : CfgToplevel) (source : Source) (bentry : Bentry)
    (rounds : List (Tty × List Event)) : Prop where
  left : Left config source bentry
  /-- It was picked in the last round, and the password of a locked entry was right in it. -/
  last : ∃ before t events, rounds = before ++ [(t, events ++ [.emitted source bentry])] ∧
    ∀ i, source.ofConfig = some i → Locked config i → .passwordOk i ∈ events

/-- **The output of a session** is empty, or the text of the boot entry that was picked. -/
theorem session_output {t : Tty} {rounds : List (Tty × List Event)}
    (h : Session config t rounds) :
    sessionOutput rounds = [] ∨
      ∃ source bentry, sessionOutput rounds = bentry.print ∧ Picked config source bentry rounds := by
  induction h with
  | start t => exact Or.inl rfl
  | @last t t' r hround hlast =>
    have hgated := total_round.keeps _ _ _ gated_nil hround
    rcases round_output silent_nil hround with ⟨_, hsilent⟩ |
      ⟨_, before, source, bentry, hevents, hsilent, hleft⟩
    · exact Or.inl (by simp [sessionOutput, hsilent.output])
    · rw [hevents] at hgated ⊢
      refine Or.inr ⟨source, bentry, ?_, hleft, [], t, before, rfl, fun i hi hlocked => ?_⟩
      · simp only [sessionOutput, List.flatMap_singleton, output_emitted hsilent]
      · exact hgated before _ [] i rfl hi hlocked
  | @next t t' rounds hround _ ih =>
    have hsilent : t'.events.flatMap Event.output = [] := by
      rcases round_output silent_nil hround with ⟨_, hsilent⟩ | ⟨hbad, _⟩
      · exact hsilent.output
      · cases hbad
    have houtput : sessionOutput ((t, t'.events) :: rounds) = sessionOutput rounds := by
      simp [sessionOutput, hsilent]
    rw [houtput]
    refine ih.imp_right ?_
    rintro ⟨source, bentry, hprint, hleft, before, u, events, rfl, hunlocked⟩
    exact ⟨source, bentry, hprint, hleft, (t, t'.events) :: before, u, events, rfl, hunlocked⟩

end Sysload.Linemode
