import Sysload.Linemode.Menu

/-!
# Selections by number (`ui_linemode.c`)

The array `input` of `main` keeps its string from round to round, and every round cuts off its last
character, whether or not `fgets` has put a line there. So what is left of an old line is looked at
once more for each of its characters when the terminal hangs up, and a line without a newline at its
end loses its last digit. A number is kept as an `int` besides, so that 4294967297 selects entry 1.

What a line designates (`Designates`) is said without `compute_selection`: by its digits, as a number
of any size.

Source: `src/core/ui_linemode.c`, `compute_selection` and the menu loop of `main`. Out of scope are
reads that fail before the end of input, and the signal to the parent.

Results:
* `computeSelection_eq_nul_iff`: when `compute_selection()` finds a number and no command.
* `designates_iff`: what a line designates, by the number in front of its last character.
* `round_selects`: what is observed of a round.
* **`session_noPhantom_iff`**: no entry is selected but by the line just read, if in no round the rest
  of an old line selects one, or that of a line without its last character another one.
-/

namespace Sysload.Linemode

variable (config : CfgToplevel)

/-! ## Plain numbers -/

/-- A plain number: digits, with blanks around them. -/
def PlainNumber (line : CStr) (n : Nat) : Prop :=
  ∃ a digits b, line = blanks a ++ (digits ++ blanks b) ∧ digits ≠ [] ∧
    (∀ c ∈ digits, c.isDigit = true) ∧ n = Nat.ofDigitChars 10 digits 0

/-- The place of the entry with a number of the menu: the entries are counted from 1, and 0 stands for
the default. -/
def menuIndex (n : Int) : Int := if n ≠ 0 then n - 1 else config.bootDefault

/-- A line without the newline at its end. -/
def chomp (line : CStr) : CStr := if line.getLast? = some '\n' then line.dropLast else line

/-- A line designates entry `i`: it is a plain number, that of the entry in the menu. -/
def Designates (line : CStr) (i : Nat) : Prop :=
  ∃ n, PlainNumber (chomp line) n ∧ menuIndex config n = i ∧ i < config.bentryList.length

/-! ## Phantom selections -/

/-- An entry is selected, or a boot entry is emitted. -/
def Event.IsSelection : Event → Prop
  | selected _ | emitted _ _ => True
  | delivered _ | passwordOk _ | modify _ | shown _ _ => False

/-- An entry is emitted by plain number only if the line of that round designates it, and behind the
end of input no entry is selected or emitted. -/
structure NoPhantom (rounds : List (List Event)) : Prop where
  plain : ∀ events ∈ rounds, ∀ i bentry, .emitted (.entry i) bentry ∈ events →
    ∃ line, .delivered (some line) ∈ events ∧ Designates config line i
  hangup : ∀ before events after, rounds = before ++ events :: after → .delivered none ∈ events →
    ∀ events' ∈ events :: after, ∀ e ∈ events', ¬ e.IsSelection

/-- The same for one round, whose `fgets` has returned `NULL` in the second part. -/
def RoundNoPhantom (events : List Event) : Prop :=
  (∀ i bentry, .emitted (.entry i) bentry ∈ events →
    ∃ line, .delivered (some line) ∈ events ∧ Designates config line i) ∧
  (.delivered none ∈ events → ∀ e ∈ events, ¬ e.IsSelection)

/-- The last character of a line with the number `n` in front of it leaves the number to entry `i`: it
is a newline or a blank, and this is the entry of `n`; or it is one more digit, and this is the entry of
the number with that digit. -/
def KeepsEntry (line : CStr) (n i : Nat) : Prop :=
  ((line.getLast? = some '\n' ∨ line.getLast? = some ' ') ∧ menuIndex config n = i) ∨
    ∃ c, line.getLast? = some c ∧ c.isDigit = true ∧ line.dropLast.getLast? ≠ some ' ' ∧
      menuIndex config (10 * n + (c.toNat - '0'.toNat) : Nat) = i

/-- The condition on the state before a round: at the end of input, the string in the array without
its last character selects nothing; and if a line without its last character is a number, and the `int`
made of it is that of an entry whose password is not missing, the last character leaves the number to
this entry. -/
def RoundOk (t : Tty) : Prop :=
  match fgetsLine t.input with
  | (none, _) => selection config t.buffer.dropLast = none
  | (some line, rest) => ∀ (n i : Nat) (bentry : CfgBentry), PlainNumber line.dropLast n →
      menuIndex config (toInt n) = i → config.bentryList[i]? = some bentry →
      (bentry.locked ≠ 0 → Typed config.password rest) → KeepsEntry config line n i

variable {config}

/-! ## Reading a plain number -/

theorem exists_blanks (str : CStr) : ∃ a, str = blanks a ++ skipBlanks str := by
  have hblanks : (str.takeWhile fun c => c == ' ') =
      blanks (str.takeWhile fun c => c == ' ').length := by
    refine List.eq_replicate_of_mem fun c hc => ?_
    have hblank := List.mem_takeWhile_imp hc
    simpa using hblank
  refine ⟨(str.takeWhile fun c => c == ' ').length, ?_⟩
  rw [← hblanks]
  exact List.takeWhile_append_dropWhile.symm

theorem isBlank_blanks (a : Nat) : isBlank (blanks a) = true :=
  List.all_eq_true.mpr fun c hc => by simpa using mem_blanks hc

theorem skipBlanks_head {str : CStr} {c : Char} {cs : CStr} (h : skipBlanks str = c :: cs) :
    c ≠ ' ' := by
  have hhead := List.head?_dropWhile_not (fun c => c == ' ') str
  unfold skipBlanks at h
  rw [h] at hhead
  simpa using hhead

/-- A plain number, behind the blanks in front. -/
theorem PlainNumber.skipBlanks {line : CStr} {n : Nat} (h : PlainNumber line n) :
    ∃ d ds b, skipBlanks line = d :: ds ++ blanks b ∧ (∀ c ∈ d :: ds, c.isDigit = true) ∧
      n = Nat.ofDigitChars 10 (d :: ds) 0 := by
  obtain ⟨a, digits, b, rfl, hne, hdigits, rfl⟩ := h
  obtain ⟨d, ds, rfl⟩ := List.exists_cons_of_ne_nil hne
  refine ⟨d, ds, b, ?_, hdigits, rfl⟩
  rw [skipBlanks_blanks, List.cons_append, skipBlanks_cons]
  rintro rfl
  exact absurd (hdigits _ List.mem_cons_self) (by decide)

theorem takeWhile_digits_blanks {digits : CStr} (h : ∀ c ∈ digits, c.isDigit = true) (b : Nat) :
    (digits ++ blanks b).takeWhile Char.isDigit = digits ∧
      (digits ++ blanks b).dropWhile Char.isDigit = blanks b := by
  rw [List.takeWhile_append_of_pos h, List.dropWhile_append_of_pos h]
  cases b with
  | zero => exact ⟨List.append_nil _, rfl⟩
  | succ b => exact ⟨List.append_nil _, rfl⟩

theorem PlainNumber.scanNat {line : CStr} {n : Nat} (h : PlainNumber line n) :
    Sysload.scanNat (Linemode.skipBlanks line) = some n := by
  obtain ⟨d, ds, b, hskip, hdigits, rfl⟩ := h.skipBlanks
  rw [hskip, Sysload.scanNat, (takeWhile_digits_blanks hdigits b).1]

theorem PlainNumber.unique {line : CStr} {m n : Nat} (hm : PlainNumber line m)
    (hn : PlainNumber line n) : m = n :=
  Option.some.inj (hm.scanNat.symm.trans hn.scanNat)

/-- What does not begin with a digit has a command, or is empty. -/
theorem computeSelection_fst {line : CStr} {c : Char} {cs : CStr} (hskip : skipBlanks line = c :: cs)
    (hdigit : c.isDigit = false) : (computeSelection line).1 = c := by
  have hdrop : skipBlanks ((c :: cs).dropWhile Char.isDigit) = c :: cs := by
    rw [List.dropWhile_cons_of_neg (by simp [hdigit]), skipBlanks_cons (skipBlanks_head hskip)]
  unfold computeSelection
  cases hscan : scanInt (c :: cs) with
  | some n => simp only [hskip, hscan, hdrop]
  | none => cases hrest : skipBlanks cs <;> simp only [hskip, hscan, hrest]

/-- **What `compute_selection()` takes for a plain number** is one, and it makes an `int` of it. -/
theorem computeSelection_eq_nul_iff {line : CStr} (hnul : nul ∉ line) (hblank : isBlank line = false)
    {k : Int} : computeSelection line = (nul, k) ↔ ∃ n : Nat, PlainNumber line n ∧ k = toInt n := by
  constructor
  · intro h
    obtain ⟨a, hline⟩ := exists_blanks line
    cases hskip : skipBlanks line with
    | nil =>
      rw [hskip, List.append_nil] at hline
      rw [hline, isBlank_blanks] at hblank
      cases hblank
    | cons c cs =>
      rw [hskip] at hline
      have hmem : ∀ d ∈ c :: cs, d ≠ nul := by
        rintro d hd rfl
        exact hnul (hline ▸ List.mem_append_right _ hd)
      by_cases hdigit : c.isDigit = true
      · obtain ⟨b, hrest⟩ := exists_blanks ((c :: cs).dropWhile Char.isDigit)
        have hsplit := @List.takeWhile_append_dropWhile _ Char.isDigit (c :: cs)
        have hscan : scanInt (c :: cs) =
            some (toInt (Nat.ofDigitChars 10 ((c :: cs).takeWhile Char.isDigit) 0 : Nat)) := by
          unfold scanInt
          rw [scanNumber_of_isDigit hdigit, Sysload.scanNat, List.takeWhile_cons_of_pos hdigit]
          rfl
        unfold computeSelection at h
        simp only [hskip, hscan] at h
        cases hcmd : skipBlanks ((c :: cs).dropWhile Char.isDigit) with
        | nil =>
          rw [hcmd, List.append_nil] at hrest
          rw [hcmd] at h
          refine ⟨_, ⟨a, (c :: cs).takeWhile Char.isDigit, b, ?_, ?_, fun d hd =>
            List.mem_takeWhile_imp hd, rfl⟩, (Prod.mk.inj h).2.symm⟩
          · rw [← hrest, hsplit, hline]
          · rw [List.takeWhile_cons_of_pos hdigit]
            exact List.cons_ne_nil _ _
        | cons d ds =>
          rw [hcmd] at h hrest
          refine absurd (Prod.mk.inj h).1 (hmem d ?_)
          rw [← hsplit, hrest]
          exact List.mem_append_right _ (List.mem_append_right _ List.mem_cons_self)
      · have hcommand := computeSelection_fst hskip (eq_false_of_ne_true hdigit)
        rw [h] at hcommand
        exact absurd hcommand.symm (hmem c List.mem_cons_self)
  · rintro ⟨n, hplain, rfl⟩
    obtain ⟨d, ds, b, hskip, hdigits, rfl⟩ := hplain.skipBlanks
    have hscan : scanInt (d :: ds ++ blanks b) = some (toInt (Nat.ofDigitChars 10 (d :: ds) 0)) := by
      rw [scanInt, List.cons_append, scanNumber_of_isDigit (hdigits d List.mem_cons_self),
        ← List.cons_append, Sysload.scanNat, (takeWhile_digits_blanks hdigits b).1]
      rfl
    have hrest : skipBlanks (blanks b) = [] :=
      (congrArg skipBlanks (List.append_nil _).symm).trans (skipBlanks_blanks b [])
    unfold computeSelection
    simp only [hskip, hscan, (takeWhile_digits_blanks hdigits b).2, hrest]

/-! ## The last character of a line -/

theorem PlainNumber.not_blank {line : CStr} {n : Nat} (h : PlainNumber line n) :
    isBlank line = false := by
  obtain ⟨a, digits, b, rfl, hne, hdigits, -⟩ := h
  obtain ⟨d, ds, rfl⟩ := List.exists_cons_of_ne_nil hne
  have hd := hdigits d List.mem_cons_self
  have hspace : d ≠ ' ' := by
    rintro rfl
    exact absurd hd (by decide)
  exact List.all_eq_false.mpr ⟨d, List.mem_append_right _ List.mem_cons_self, by simpa using hspace⟩

theorem plainNumber_blank {line : CStr} {n : Nat} (h : PlainNumber line n) :
    PlainNumber (line ++ [' ']) n := by
  obtain ⟨a, digits, b, rfl, hne, hdigits, hn⟩ := h
  refine ⟨a, digits, b + 1, ?_, hne, hdigits, hn⟩
  rw [blanks, blanks, blanks, List.replicate_succ', List.append_assoc, List.append_assoc]

theorem getLast?_blanks (str : CStr) (b : Nat) (h : b ≠ 0) :
    (str ++ blanks b).getLast? = some ' ' := by
  obtain ⟨b, rfl⟩ := Nat.exists_eq_add_one_of_ne_zero h
  rw [blanks, List.replicate_succ', ← List.append_assoc, List.getLast?_concat]

theorem plainNumber_digit {line : CStr} {n : Nat} (h : PlainNumber line n)
    (hlast : line.getLast? ≠ some ' ') {c : Char} (hc : c.isDigit = true) :
    PlainNumber (line ++ [c]) (10 * n + (c.toNat - '0'.toNat)) := by
  obtain ⟨a, digits, b, rfl, hne, hdigits, rfl⟩ := h
  have hb : b = 0 := by
    by_contra hb
    exact hlast (by rw [← List.append_assoc]; exact getLast?_blanks _ b hb)
  subst hb
  refine ⟨a, digits ++ [c], 0, ?_, by simp, List.forall_mem_append.mpr
    ⟨hdigits, List.forall_mem_singleton.mpr hc⟩, ?_⟩
  · simp [blanks]
  · rw [Nat.ofDigitChars_append, Nat.ofDigitChars_cons, Nat.ofDigitChars_nil]

/-- **One more character** behind a plain number. -/
theorem plainNumber_concat_iff {line : CStr} {n : Nat} (h : PlainNumber line n) {c : Char} {m : Nat} :
    PlainNumber (line ++ [c]) m ↔ (c = ' ' ∧ m = n) ∨
      (c.isDigit = true ∧ line.getLast? ≠ some ' ' ∧ m = 10 * n + (c.toNat - '0'.toNat)) := by
  constructor
  · intro hm
    by_cases hc : c = ' '
    · subst hc
      exact .inl ⟨rfl, hm.unique (plainNumber_blank h)⟩
    · obtain ⟨a, digits, b, hline, hne, hdigits, -⟩ := id hm
      have hb : b = 0 := by
        by_contra hb
        have hlast := congrArg List.getLast? hline
        rw [List.getLast?_concat, ← List.append_assoc, getLast?_blanks _ b hb] at hlast
        exact hc (Option.some.inj hlast)
      subst hb
      obtain ⟨ds, d, rfl⟩ : ∃ ds d, digits = ds ++ [d] :=
        ⟨_, _, (List.dropLast_append_getLast hne).symm⟩
      have hsplit : line ++ [c] = (blanks a ++ ds) ++ [d] := by
        rw [hline]
        simp [blanks]
      obtain ⟨rfl, hcd⟩ := List.append_inj' hsplit rfl
      obtain rfl : c = d := List.singleton_injective hcd
      have hds : ds ≠ [] := by
        rintro rfl
        have hblank := h.not_blank
        rw [List.append_nil, isBlank_blanks] at hblank
        cases hblank
      have hc := hdigits c (List.mem_append_right _ List.mem_cons_self)
      have hlast : (blanks a ++ ds).getLast? ≠ some ' ' := by
        rw [List.getLast?_append_of_ne_nil _ hds]
        intro hspace
        exact absurd (hdigits _ (List.mem_append_left _ (List.mem_of_getLast? hspace))) (by decide)
      exact .inr ⟨hc, hlast, hm.unique (plainNumber_digit h hlast hc)⟩
  · rintro (⟨rfl, rfl⟩ | ⟨hc, hlast, rfl⟩)
    · exact plainNumber_blank h
    · exact plainNumber_digit h hlast hc

theorem getLast?_eq_some {line : CStr} {c : Char} (h : line.getLast? = some c) :
    line = line.dropLast ++ [c] :=
  (List.dropLast_append_getLast? c h).symm

/-- **What a line designates**, by the number in front of its last character. -/
theorem designates_iff {line : CStr} {n i : Nat} (h : PlainNumber line.dropLast n)
    (hi : i < config.bentryList.length) : Designates config line i ↔ KeepsEntry config line n i := by
  unfold Designates KeepsEntry chomp
  have hline : line ≠ [] := by
    rintro rfl
    exact absurd h.not_blank (by decide)
  obtain ⟨c, hc⟩ : ∃ c, line.getLast? = some c := ⟨_, List.getLast?_eq_some_getLast hline⟩
  rw [hc]
  by_cases hnewline : c = '\n'
  · subst hnewline
    rw [if_pos rfl]
    constructor
    · rintro ⟨m, hm, hentry, -⟩
      exact .inl ⟨.inl rfl, hm.unique h ▸ hentry⟩
    · rintro (⟨-, hentry⟩ | ⟨d, hd, hdigit, -⟩)
      · exact ⟨n, h, hentry, hi⟩
      · obtain rfl := Option.some.inj hd
        exact absurd hdigit (by decide)
  · rw [if_neg (fun heq => hnewline (Option.some.inj heq))]
    have hconcat := fun m => @plainNumber_concat_iff _ _ h c m
    rw [← getLast?_eq_some hc] at hconcat
    simp only [hconcat, Option.some.injEq]
    constructor
    · rintro ⟨m, ⟨rfl, rfl⟩ | ⟨hdigit, hlast, rfl⟩, hentry, -⟩
      · exact .inl ⟨.inr rfl, hentry⟩
      · exact .inr ⟨c, rfl, hdigit, hlast, hentry⟩
    · rintro (⟨hspace | rfl, hentry⟩ | ⟨d, rfl, hdigit, hlast, hentry⟩)
      · exact absurd hspace hnewline
      · exact ⟨n, .inl ⟨rfl, rfl⟩, hentry, hi⟩
      · exact ⟨_, .inr ⟨hdigit, hlast, rfl⟩, hentry, hi⟩

/-- **The entry that a text selects by plain number**: that of the `int` made of the number. -/
theorem selection_plain_iff {text : CStr} (hnul : nul ∉ text) {i : Nat} {bentry : CfgBentry} :
    selection config text = some (nul, i, bentry) ↔ ∃ n : Nat, PlainNumber text n ∧
      menuIndex config (toInt n) = i ∧ config.bentryList[i]? = some bentry := by
  by_cases hblank : isBlank text = true
  · unfold selection
    rw [if_pos hblank]
    refine iff_of_false (by simp) ?_
    rintro ⟨n, hplain, -⟩
    rw [hplain.not_blank] at hblank
    cases hblank
  · have hselection := fun k => @computeSelection_eq_nul_iff text hnul (eq_false_of_ne_true hblank) k
    constructor
    · intro h
      have hentry := selection_some h
      unfold selection at h
      rw [if_neg hblank] at h
      cases hcompute : computeSelection text with
      | mk command number =>
        simp only [hcompute] at h
        obtain ⟨hrange, h⟩ := Option.ite_none_left_eq_some.mp h
        obtain ⟨b, -, heq⟩ := Option.map_eq_some_iff.mp h
        obtain ⟨rfl, hplace⟩ := Prod.mk.inj heq
        obtain ⟨n, hplain, rfl⟩ := (hselection _).mp hcompute
        refine ⟨n, hplain, ?_, hentry⟩
        have hindex := (Prod.mk.inj hplace).1
        unfold menuIndex
        omega
    · rintro ⟨n, hplain, hindex, hentry⟩
      have hi := (List.getElem?_eq_some_iff.mp hentry).1
      have hcompute := (hselection (toInt n)).mpr ⟨n, hplain, rfl⟩
      unfold selection
      unfold menuIndex at hindex
      rw [if_neg hblank]
      simp only [hcompute, hindex]
      rw [if_neg (by omega), Int.toNat_natCast, hentry]
      rfl

-- the number of entry 4294967297 is that of entry 1
example : toInt 4294967297 = 1 := by decide +kernel

/-! ## What is observed of a round -/

/-- The string that a round looks at. -/
def Tty.text (t : Tty) : CStr := ((fgetsLine t.input).1.getD t.buffer).dropLast

/-- **The selection of a round**: the line that `fgets` delivers is observed, and the selection if
there is one. -/
theorem readSelection_cases {t t' : Tty} {r : Except Halt (Option (Char × Nat × CfgBentry))}
    (h : (readSelection config).Runs t r t') :
    t'.input = (fgetsLine t.input).2 ∧
    ((selection config t.text = none ∧ r ∈ [.ok none, .error .overrun] ∧
        t'.events = t.events ++ [.delivered (fgetsLine t.input).1]) ∨
      ∃ command i bentry, selection config t.text = some (command, i, bentry) ∧
        r = .ok (some (command, i, bentry)) ∧
        t'.events = t.events ++ [.delivered (fgetsLine t.input).1] ++ [.selected i]) := by
  unfold readSelection at h
  rw [Routine.runs_bind_of_ok (fgets_runs t), Routine.runs_bind_of_ok (log_runs _ _),
    Routine.runs_get_bind] at h
  unfold Tty.text
  cases htext : (fgetsLine t.input).1.getD t.buffer with
  | nil =>
    simp only [htext] at h
    obtain ⟨rfl, rfl⟩ := Routine.runs_throw.mp h
    exact ⟨rfl, Or.inl ⟨rfl, by simp, rfl⟩⟩
  | cons c cs =>
    simp only [htext] at h
    rw [Routine.runs_bind_of_ok (setBuffer_runs _ _)] at h
    cases hselection : selection config (c :: cs).dropLast with
    | none =>
      simp only [hselection] at h
      obtain ⟨rfl, rfl⟩ := Routine.runs_pure.mp h
      exact ⟨rfl, Or.inl ⟨rfl, by simp, rfl⟩⟩
    | some found =>
      obtain ⟨command, i, bentry⟩ := found
      simp only [hselection] at h
      rw [Routine.runs_bind_of_ok (log_runs _ _)] at h
      obtain ⟨rfl, rfl⟩ := Routine.runs_pure.mp h
      exact ⟨rfl, Or.inr ⟨command, i, bentry, rfl, rfl, rfl⟩⟩

/-- What is observed of a round with a selection, as long as no boot entry is emitted. -/
structure Observed (line : Option CStr) (i : Nat) (events : List Event) : Prop where
  delivered : .delivered line ∈ events
  once : ∀ l, .delivered l ∈ events → l = line
  selected : .selected i ∈ events
  silent : ∀ source bentry, .emitted source bentry ∉ events

/-- One more event, that is no line and no boot entry on standard output. -/
theorem Observed.log {line : Option CStr} {i : Nat} {events : List Event} {e : Event}
    (h : Observed line i events) (hline : ∀ l, e ≠ .delivered l)
    (hsilent : ∀ source bentry, e ≠ .emitted source bentry) : Observed line i (events ++ [e]) where
  delivered := List.mem_append_left _ h.delivered
  once := fun l hl => (List.mem_append.mp hl).elim (h.once l) fun hl =>
    absurd (List.mem_singleton.mp hl).symm (hline l)
  selected := List.mem_append_left _ h.selected
  silent := fun source bentry hmem => (List.mem_append.mp hmem).elim (h.silent source bentry)
    fun hmem => absurd (List.mem_singleton.mp hmem).symm (hsilent source bentry)

theorem Observed.log_command {line : Option CStr} {i j : Nat} {events : List Event} {e : Event}
    (h : Observed line i events) (he : e.OfCommand j) : Observed line i (events ++ [e]) := by
  cases he with
  | shown _ => exact h.log (by simp) (by simp)
  | modify => exact h.log (by simp) (by simp)

/-- The round goes on behind the password if the entry is not locked, or the password is typed. -/
theorem unlock_true_iff {i : Nat} {bentry : CfgBentry} {t : Tty} :
    (∃ t', (unlock config i bentry).Runs t (.ok true) t') ↔
      (bentry.locked ≠ 0 → Typed config.password t.input) := by
  unfold unlock
  by_cases hlocked : bentry.locked ≠ 0
  · rw [if_pos hlocked]
    simp only [hlocked, ne_eq, not_false_eq_true, forall_const]
    rw [← password_true]
    constructor
    · rintro ⟨t', h⟩
      obtain ⟨ok, t₁, hpassword, h⟩ := Routine.runs_bind_ok.mp h
      cases ok with
      | true => exact ⟨t₁, hpassword⟩
      | false => exact absurd (Routine.runs_pure.mp h).1 (by simp)
    · rintro ⟨t₁, hpassword⟩
      refine ⟨{ t₁ with events := t₁.events ++ [.passwordOk i] },
        (Routine.runs_bind_of_ok hpassword).mpr ?_⟩
      exact (Routine.runs_bind_of_ok (log_runs _ _)).mpr (Routine.runs_pure.mpr ⟨rfl, rfl⟩)
  · rw [if_neg hlocked]
    exact ⟨fun _ hne => absurd hne hlocked, fun _ => ⟨t, Routine.runs_pure.mpr ⟨rfl, rfl⟩⟩⟩

/-- What is observed of a round with a selection: the entry of the configuration is on standard output
if there is no command and the round goes on behind the password. -/
structure Selects (line : Option CStr) (command : Char) (i : Nat) (bentry : CfgBentry)
    (unlocked : Prop) (events : List Event) : Prop where
  delivered : .delivered line ∈ events
  once : ∀ l, .delivered l ∈ events → l = line
  selected : .selected i ∈ events
  emitted : ∀ j b, .emitted (.entry j) b ∈ events ↔
    command = nul ∧ j = i ∧ b = .ofConfig bentry ∧ unlocked

section Observed

variable {line : Option CStr} {command : Char} {i : Nat} {bentry : CfgBentry} {unlocked : Prop}
  {events : List Event}

/-- Without a boot entry on standard output. -/
theorem Observed.selects (h : Observed line i events) (hnot : ¬ unlocked ∨ command ≠ nul) :
    Selects line command i bentry unlocked events where
  delivered := h.delivered
  once := h.once
  selected := h.selected
  emitted := fun _ _ => by
    constructor
    · exact fun hmem => absurd hmem (h.silent _ _)
    · exact fun hall => hnot.elim (fun hn => absurd hall.2.2.2 hn) fun hn => absurd hall.1 hn

/-- With a boot entry on standard output, at the end. -/
theorem Observed.emit (h : Observed line i events) {source : Source} {b : Bentry}
    (hsource : ∀ j b', source = .entry j ∧ b = b' ↔
      command = nul ∧ j = i ∧ b' = .ofConfig bentry ∧ unlocked) :
    Selects line command i bentry unlocked (events ++ [.emitted source b]) where
  delivered := List.mem_append_left _ h.delivered
  once := fun l hl => (List.mem_append.mp hl).elim (h.once l) fun hl =>
    absurd (List.mem_singleton.mp hl) (by simp)
  selected := List.mem_append_left _ h.selected
  emitted := fun j b' => by
    rw [← hsource j b', List.mem_append, List.mem_singleton, Event.emitted.injEq]
    constructor
    · rintro (hmem | ⟨hj, hb⟩)
      · exact absurd hmem (h.silent _ _)
      · exact ⟨hj.symm, hb.symm⟩
    · rintro ⟨hj, hb⟩
      exact Or.inr ⟨hj.symm, hb.symm⟩

/-- **Behind the password**: the command, and the end of the round. -/
theorem serve_selects {t t' : Tty} {r : Except Halt Bool} (hunlocked : unlocked)
    (ht : Observed line i t.events)
    (h : (serve i bentry command >>= fun left => leave left).Runs t r t') :
    Selects line command i bentry unlocked t'.events := by
  have hserve := @total_serve (Observed line i) i (fun _ _ h he => h.log_command he) bentry command
  rcases Routine.runs_bind.mp h with ⟨left, t₁, hserved, h⟩ | ⟨e, hserved, _⟩
  swap
  · refine (hserve.keeps t _ t' ht hserved).selects (Or.inr fun hnul => ?_)
    subst hnul
    exact absurd (hserved.unique (Routine.runs_pure.mpr ⟨rfl, rfl⟩)).1 (by simp)
  have ht₁ := hserve.keeps t _ t₁ ht hserved
  cases left with
  | none =>
    obtain ⟨_, rfl⟩ := Routine.runs_pure.mp h
    refine ht₁.selects (Or.inr fun hnul => ?_)
    subst hnul
    exact absurd (hserved.unique (Routine.runs_pure.mpr ⟨rfl, rfl⟩)).1 (by simp)
  | some left =>
    obtain ⟨source, b⟩ := left
    obtain ⟨t₂, hleave, hevents⟩ := leave_some source b t₁
    obtain ⟨_, rfl⟩ := h.unique hleave
    rw [hevents]
    refine ht₁.emit fun j b' => ?_
    rcases serve_source hserved with ⟨hnul, rfl, rfl, _⟩ | ⟨hnot, hsource⟩
    · constructor
      · rintro ⟨hj, rfl⟩
        exact ⟨hnul, (Source.entry.inj hj).symm, rfl, hunlocked⟩
      · rintro ⟨_, rfl, rfl, _⟩
        exact ⟨rfl, rfl⟩
    · constructor
      · rintro ⟨rfl, _⟩
        exact absurd hsource (by simp)
      · exact fun hall => absurd hall.1 hnot

/-- **Behind the selection**: the password, the command, and the end of the round. -/
theorem unlock_selects {t t' : Tty} {r : Except Halt Bool} (ht : Observed line i t.events)
    (h : (unlock config i bentry >>= fun ok =>
      if ok = true then serve i bentry command >>= fun left => leave left
      else pure false).Runs t r t') :
    Selects line command i bentry (bentry.locked ≠ 0 → Typed config.password t.input)
      t'.events := by
  rw [← @unlock_true_iff config i bentry t]
  have hunlock := @total_unlock config (Observed line i) i (fun _ h => h.log (by simp) (by simp))
    bentry
  rcases Routine.runs_bind.mp h with ⟨ok, t₁, hrun, h⟩ | ⟨e, hrun, _⟩
  swap
  · refine (hunlock.keeps t _ t' ht hrun).selects (Or.inl ?_)
    rintro ⟨t₁, htrue⟩
    exact absurd (hrun.unique htrue).1 (by simp)
  have ht₁ := hunlock.keeps t _ t₁ ht hrun
  cases ok with
  | true => exact serve_selects ⟨t₁, hrun⟩ ht₁ h
  | false =>
    obtain ⟨_, rfl⟩ := Routine.runs_pure.mp h
    refine ht₁.selects (Or.inl ?_)
    rintro ⟨t₂, htrue⟩
    exact absurd (hrun.unique htrue).1 (by simp)

end Observed

/-- **What is observed of a round**: the line, if nothing is selected, else what follows from the
selection. -/
theorem round_selects {t t' : Tty} {r : Except Halt Bool} (ht : t.events = [])
    (h : (round config).Runs t r t') :
    (selection config t.text = none ∧ t'.input = (fgetsLine t.input).2 ∧
      t'.events = [.delivered (fgetsLine t.input).1]) ∨
    ∃ command i bentry, selection config t.text = some (command, i, bentry) ∧
      Selects (fgetsLine t.input).1 command i bentry
        (bentry.locked ≠ 0 → Typed config.password (fgetsLine t.input).2) t'.events := by
  rcases Routine.runs_bind.mp h with ⟨found, t₁, hread, h⟩ | ⟨e, hread, _⟩
  swap
  · rcases readSelection_cases hread with ⟨hinput, ⟨hnone, _, hevents⟩ | ⟨_, _, _, _, hbad, _⟩⟩
    · exact Or.inl ⟨hnone, hinput, by rw [hevents, ht]; rfl⟩
    · exact absurd hbad (by simp)
  rcases readSelection_cases hread with
    ⟨hinput, ⟨hnone, hr, hevents⟩ | ⟨command, i, bentry, hsome, hr, hevents⟩⟩
  · obtain rfl : found = none := by simpa using hr
    obtain ⟨_, rfl⟩ := Routine.runs_pure.mp h
    exact Or.inl ⟨hnone, hinput, by rw [hevents, ht]; rfl⟩
  · obtain rfl : found = some (command, i, bentry) := Except.ok.inj hr
    have ht₁ : Observed (fgetsLine t.input).1 i t₁.events := by
      rw [hevents, ht]
      exact ⟨by simp, by simp, by simp, by simp⟩
    exact Or.inr ⟨command, i, bentry, hsome, hinput ▸ unlock_selects ht₁ h⟩

/-! ## Sessions -/

theorem fgetsLine_none {input : List Char} : (fgetsLine input).1 = none ↔ input = [] := by
  unfold fgetsLine
  split <;> simp [*]

/-- What `fgets` delivers is a string. -/
theorem nul_not_mem_fgetsLine {input : List Char} {line : CStr}
    (h : (fgetsLine input).1 = some line) : nul ∉ line := by
  unfold fgetsLine at h
  split at h
  · cases h
  · obtain rfl := Option.some.inj h
    intro hmem
    have hne := List.mem_takeWhile_imp hmem
    simp at hne

/-- **One round**: no entry is selected from what is left of an old line, or of a line without its end,
if the condition holds before it. -/
theorem round_noPhantom_iff {t t' : Tty} {r : Except Halt Bool}
    (h : (round config).Runs { t with events := [] } r t') :
    RoundNoPhantom config t'.events ↔ RoundOk config t := by
  have hround := round_selects rfl h
  unfold RoundOk
  cases hline : fgetsLine t.input with
  | mk line rest =>
    simp only [Tty.text, hline] at hround
    cases line with
    | none =>
      rcases hround with ⟨hnone, _, hevents⟩ | ⟨command, i, bentry, hsome, hselects⟩
      · refine ⟨fun _ => hnone, fun _ => ?_⟩
        rw [hevents]
        exact ⟨by simp, by simp [Event.IsSelection]⟩
      · constructor
        · exact fun hno => absurd trivial (hno.2 hselects.delivered _ hselects.selected)
        · exact fun hnone => absurd (hnone.symm.trans hsome) (by simp)
    | some line =>
      have hnul : nul ∉ line.dropLast := fun hmem => nul_not_mem_fgetsLine (congrArg Prod.fst hline)
        (List.dropLast_subset _ hmem)
      rcases hround with ⟨hnone, _, hevents⟩ | ⟨command, i, bentry, hsome, hselects⟩
      · refine ⟨fun _ n j b hplain hindex hentry _ => ?_, fun _ => ?_⟩
        · have hsome := (selection_plain_iff hnul).mpr ⟨n, hplain, hindex, hentry⟩
          exact absurd (hnone.symm.trans hsome) (by simp)
        · rw [hevents]
          exact ⟨by simp, by simp⟩
      · constructor
        · intro hno n j b hplain hindex hentry htyped
          have hselected := (selection_plain_iff hnul).mpr ⟨n, hplain, hindex, hentry⟩
          obtain ⟨rfl, rfl, rfl⟩ : command = nul ∧ i = j ∧ bentry = b := by
            simpa using hsome.symm.trans hselected
          obtain ⟨line', hmem, hdesignates⟩ :=
            hno.1 i _ ((hselects.emitted i _).mpr ⟨rfl, rfl, rfl, htyped⟩)
          obtain rfl := Option.some.inj (hselects.once _ hmem)
          exact (designates_iff hplain (List.getElem?_eq_some_iff.mp hentry).1).mp hdesignates
        · intro hok
          refine ⟨fun j b hmem => ?_, fun hmem => absurd (hselects.once _ hmem) (by simp)⟩
          obtain ⟨rfl, rfl, _, htyped⟩ := (hselects.emitted j b).mp hmem
          obtain ⟨n, hplain, hindex, hentry⟩ := (selection_plain_iff hnul).mp hsome
          exact ⟨line, hselects.delivered,
            (designates_iff hplain (List.getElem?_eq_some_iff.mp hentry).1).mpr
              (hok n j bentry hplain hindex hentry htyped)⟩

theorem NoPhantom.round {rounds : List (List Event)} (h : NoPhantom config rounds)
    {events : List Event} (hmem : events ∈ rounds) : RoundNoPhantom config events := by
  obtain ⟨before, after, rfl⟩ := List.append_of_mem hmem
  exact ⟨h.plain events hmem, fun hnone => h.hangup before events after rfl hnone events
    List.mem_cons_self⟩

/-- Every round of a session is a round from the state before it. -/
theorem Session.round_runs {t : Tty} {rounds : List (Tty × List Event)}
    (h : Session config t rounds) :
    ∀ p ∈ rounds, ∃ r t', (round config).Runs { p.1 with events := [] } r t' ∧ t'.events = p.2 := by
  induction h with
  | start t => exact fun _ hmem => absurd hmem List.not_mem_nil
  | last hround _ =>
    intro p hmem
    obtain rfl := List.mem_singleton.mp hmem
    exact ⟨_, _, hround, rfl⟩
  | next hround _ ih =>
    intro p hmem
    rcases List.mem_cons.mp hmem with rfl | hmem
    · exact ⟨_, _, hround, rfl⟩
    · exact ih p hmem

/-- **Behind the end of input** nothing is selected any more. -/
theorem Session.hangup {t : Tty} {rounds : List (Tty × List Event)} (h : Session config t rounds)
    (ht : t.input = []) (hok : ∀ p ∈ rounds, RoundOk config p.1) :
    ∀ p ∈ rounds, ∀ e ∈ p.2, ¬ e.IsSelection := by
  have hline : ∀ {t : Tty}, t.input = [] → fgetsLine t.input = (none, []) := fun ht => by rw [ht]; rfl
  have hevents : ∀ {t t' : Tty} {r : Except Halt Bool}, t.input = [] → RoundOk config t →
      (round config).Runs { t with events := [] } r t' →
      t'.input = [] ∧ ∀ e ∈ t'.events, ¬ e.IsSelection := by
    intro t t' r ht hok hround
    have hno := (round_noPhantom_iff hround).mpr hok
    unfold RoundOk at hok
    rw [hline ht] at hok
    rcases round_selects rfl hround with ⟨_, hinput, hevents⟩ | ⟨_, _, _, hsome, _⟩
    · simp only [hline ht] at hinput hevents
      exact ⟨hinput, hno.2 (by rw [hevents]; exact List.mem_cons_self)⟩
    · simp only [Tty.text, hline ht] at hsome
      exact absurd (hok.symm.trans hsome) (by simp)
  induction h with
  | start t => exact fun _ hmem => absurd hmem List.not_mem_nil
  | last hround _ =>
    intro p hmem
    obtain rfl := List.mem_singleton.mp hmem
    exact (hevents ht (hok _ hmem) hround).2
  | next hround _ ih =>
    have hfirst := hevents ht (hok _ List.mem_cons_self) hround
    intro p hmem
    rcases List.mem_cons.mp hmem with rfl | hmem
    · exact hfirst.2
    · exact ih hfirst.1 (fun p hp => hok p (List.mem_cons_of_mem _ hp)) p hmem

/-- From any round on a session is a session. -/
theorem Session.suffix {t : Tty} {rounds : List (Tty × List Event)} (h : Session config t rounds) :
    ∀ before p after, rounds = before ++ p :: after → Session config p.1 (p :: after) := by
  induction h with
  | start t => exact fun before p after heq => absurd heq (by simp)
  | last hround hend =>
    intro before p after heq
    cases before with
    | nil =>
      obtain ⟨rfl, rfl⟩ := List.cons.inj heq
      exact .last hround hend
    | cons b before => exact absurd (List.cons.inj heq).2 (by simp)
  | next hround hrest ih =>
    intro before p after heq
    cases before with
    | nil =>
      obtain ⟨rfl, rfl⟩ := List.cons.inj heq
      exact .next hround hrest
    | cons b before => exact ih before p after (List.cons.inj heq).2

/-- **No phantom selection** in a session, if the condition holds before every round. -/
theorem session_noPhantom_iff {t : Tty} {rounds : List (Tty × List Event)}
    (h : Session config t rounds) :
    NoPhantom config (rounds.map Prod.snd) ↔ ∀ p ∈ rounds, RoundOk config p.1 := by
  have hround : ∀ p ∈ rounds, RoundNoPhantom config p.2 ↔ RoundOk config p.1 := by
    intro p hp
    obtain ⟨r, t', hruns, hevents⟩ := h.round_runs p hp
    exact hevents ▸ round_noPhantom_iff hruns
  constructor
  · exact fun hno p hp => (hround p hp).mp (hno.round (List.mem_map_of_mem hp))
  · intro hok
    refine ⟨fun events hmem => ?_, fun before events after heq hnone => ?_⟩
    · obtain ⟨p, hp, rfl⟩ := List.mem_map.mp hmem
      exact ((hround p hp).mpr (hok p hp)).1
    · obtain ⟨before', rest, rfl, _, hrest⟩ := List.map_eq_append_iff.mp heq
      obtain ⟨p, after', rfl, rfl, rfl⟩ := List.map_eq_cons_iff.mp hrest
      have hsuffix := h.suffix before' p after' rfl
      have hp : p ∈ before' ++ p :: after' := List.mem_append_right _ List.mem_cons_self
      obtain ⟨r, t', hruns, hevents⟩ := h.round_runs p hp
      have hinput : p.1.input = [] := by
        refine fgetsLine_none.mp ?_
        rw [← hevents] at hnone
        rcases round_selects rfl hruns with ⟨_, _, hdelivered⟩ | ⟨_, _, _, _, hselects⟩
        · rw [hdelivered] at hnone
          exact (Event.delivered.inj (List.mem_singleton.mp hnone)).symm
        · exact (hselects.once none hnone).symm
      intro events' hmem e he
      rw [← List.map_cons] at hmem
      obtain ⟨q, hq, rfl⟩ := List.mem_map.mp hmem
      exact hsuffix.hangup hinput
        (fun q hq => hok q (List.mem_append_right _ hq)) q hq e he

/-! ## A line of two digits -/

/-- A configuration with one boot entry, that is not locked. -/
def oneEntryConfig : CfgToplevel :=
  { CfgToplevel.init with bentryList := [{ lockedEntry with locked := 0 }] }

/-- The only boot entry of that configuration. -/
def onlyEntry : Bentry := .ofConfig { lockedEntry with locked := 0 }

theorem oneEntryConfig_round_line : (round oneEntryConfig).Runs (.start ['1', '2', '\n']) (.ok false)
    ⟨[], ['1', '2'], [.delivered (some ['1', '2', '\n'])]⟩ := ⟨0, rfl⟩

theorem oneEntryConfig_round_hangup : (round oneEntryConfig).Runs ⟨[], ['1', '2'], []⟩ (.ok true)
    ⟨[], ['1'], [.delivered none, .selected 0, .emitted (.entry 0) onlyEntry]⟩ := ⟨0, rfl⟩

/-- The session of the line `12`, that selects nothing, and the end of input. -/
theorem oneEntryConfig_session : Session oneEntryConfig (.start ['1', '2', '\n'])
    [(.start ['1', '2', '\n'], [.delivered (some ['1', '2', '\n'])]),
      (⟨[], ['1', '2'], [.delivered (some ['1', '2', '\n'])]⟩,
        [.delivered none, .selected 0, .emitted (.entry 0) onlyEntry])] := by
  have hlast : Session oneEntryConfig ⟨[], ['1', '2'], [.delivered (some ['1', '2', '\n'])]⟩ _ :=
    .last oneEntryConfig_round_hangup (by simp)
  have hnext : Session oneEntryConfig (.start ['1', '2', '\n']) _ :=
    .next oneEntryConfig_round_line hlast
  exact hnext

/-- **A phantom selection**: the terminal hangs up behind the line `12`, and entry 1 is booted. -/
theorem oneEntryConfig_phantom : ∃ rounds, Session oneEntryConfig (.start ['1', '2', '\n']) rounds ∧
    ¬ NoPhantom oneEntryConfig (rounds.map Prod.snd) := by
  refine ⟨_, oneEntryConfig_session, fun hno => ?_⟩
  have hsilent := hno.hangup [_] _ [] rfl List.mem_cons_self _ List.mem_cons_self
  exact hsilent (.selected 0) (by simp) trivial

theorem oneEntryConfig_round_digit : (round oneEntryConfig).Runs (.start ['1', '\n']) (.ok true)
    ⟨[], ['1'], [.delivered (some ['1', '\n']), .selected 0, .emitted (.entry 0) onlyEntry]⟩ :=
  ⟨0, rfl⟩

/-- The condition holds before the only round of a session with the line `1`. -/
theorem session_noPhantom_iff_digit : NoPhantom oneEntryConfig
    [[.delivered (some ['1', '\n']), .selected 0, .emitted (.entry 0) onlyEntry]] := by
  have hlast : Session oneEntryConfig (.start ['1', '\n']) _ :=
    .last oneEntryConfig_round_digit (by simp)
  refine (session_noPhantom_iff hlast).mpr fun p hmem => ?_
  obtain rfl := List.mem_singleton.mp hmem
  intro n i bentry hplain hindex _ _
  obtain rfl : n = 1 := Option.some.inj (hplain.scanNat.symm.trans rfl)
  have hone : toInt (1 : Nat) = (1 : Nat) := toInt_of_fits (by decide) (by decide)
  rw [hone] at hindex
  exact .inl ⟨.inl rfl, hindex⟩

end Sysload.Linemode
