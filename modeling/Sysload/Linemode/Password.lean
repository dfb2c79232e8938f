import Sysload.Linemode.Terminal

/-!
# Reading the password (`ui_linemode.c`)

The loop of `password()` in full: one `getc` in each pass, and a store into the array `input` as long
as the pointer is not behind its end. In the model of the terminal `password` says what this comes to.

* `written` are the indices of the array that are written to.
* At the end of input `getc` returns `EOF` for ever, which is no newline as a `char` either.

Source: `src/core/ui_linemode.c`, `password`. Out of scope is what a store outside of the array does
to the program.

Results:
* `readLine_line`, `not_readLine_ends`: where the loop ends, and what is in the array then.
* **`passwordRun_safe_iff`**: for which input the password is read safely.
* `password_runs_iff`: the model of the terminal is right about it.
-/

namespace Sysload.Linemode

open Comp (Pass)

/-! ## The loop -/

/-- The array `input`, `str_ptr` as an index into it, and the indices that were written to. -/
structure Buffer where
  array : List Char
  strPtr : Nat
  written : List Nat

/-- `char input[CFG_STR_MAX_LEN] = ""`. -/
def Buffer.init : Buffer := ⟨List.replicate cfgStrMaxLen nul, 0, []⟩

/-- `*str_ptr = c`. -/
def Buffer.store (b : Buffer) (c : Char) : Buffer :=
  { b with array := b.array.set b.strPtr c, written := b.written ++ [b.strPtr] }

/-- The body of the loop: the character is saved if there is still enough space. -/
def Buffer.put (b : Buffer) (single : Char) : Buffer :=
  if b.strPtr < cfgStrMaxLen then { b.store single with strPtr := b.strPtr + 1 } else b

/-- One pass: the input, and the array. -/
def readPass (s : List Char × Buffer) : Comp (Pass (List Char × Buffer) (List Char × Buffer)) :=
  let single := s.1.headD eof
  if single = '\n' then pure (.done (s.1.tail, s.2)) else pure (.next (s.1.tail, s.2.put single))

/-- What `password` comes to: `true` for `CFG_RETURN_OK`, what is still to be read, and the indices
that were written to. -/
structure PasswordRun where
  ok : Bool
  input : List Char
  written : List Nat

/-- `password`. -/
def passwordRun (passwd : CStr) (input : List Char) : Comp PasswordRun := do
  let (input, b) ← Comp.loop readPass (input, .init)
  let b := b.store nul
  pure ⟨passwd == cstr b.array, input, b.written⟩

/-! ## What is in the array -/

/-- The line is in the array, as far as there is space. -/
structure Buffer.Holds (b : Buffer) (line : CStr) : Prop where
  array : b.array = line.take cfgStrMaxLen ++ List.replicate (cfgStrMaxLen - line.length) nul
  strPtr : b.strPtr = min line.length cfgStrMaxLen
  written : b.written = List.range b.strPtr

theorem Buffer.holds_init : Buffer.init.Holds [] := ⟨rfl, rfl, rfl⟩

/-- **One character more.** -/
theorem Buffer.Holds.put {b : Buffer} {line : CStr} (h : b.Holds line) (c : Char) :
    (b.put c).Holds (line ++ [c]) := by
  have hlength : (line ++ [c]).length = line.length + 1 := List.length_append
  by_cases hlt : line.length < cfgStrMaxLen
  · have hptr : b.strPtr = line.length := h.strPtr.trans (Nat.min_eq_left (Nat.le_of_lt hlt))
    have hput : b.put c = { b.store c with strPtr := b.strPtr + 1 } := if_pos (hptr ▸ hlt)
    rw [hput]
    refine ⟨?_, ?_, ?_⟩
    · have hrest : cfgStrMaxLen - line.length = (cfgStrMaxLen - (line.length + 1)) + 1 := by omega
      have harray : b.array = line ++ List.replicate (cfgStrMaxLen - line.length) nul := by
        rw [h.array, List.take_of_length_le (Nat.le_of_lt hlt)]
      show b.array.set b.strPtr c = _
      rw [harray, hptr, hrest, List.replicate_succ, List.set_append_right _ _ (Nat.le_refl _),
        Nat.sub_self, List.set_cons_zero, hlength, List.take_of_length_le (hlength ▸ hlt),
        List.append_assoc]
      rfl
    · show b.strPtr + 1 = _
      rw [hptr, hlength, Nat.min_eq_left hlt]
    · show b.written ++ [b.strPtr] = List.range (b.strPtr + 1)
      rw [h.written, List.range_succ]
  · have hle := Nat.not_lt.mp hlt
    have hptr : b.strPtr = cfgStrMaxLen := h.strPtr.trans (Nat.min_eq_right hle)
    have hput : b.put c = b := if_neg (hptr ▸ Nat.lt_irrefl _)
    rw [hput]
    refine ⟨?_, ?_, h.written⟩
    · rw [h.array, List.take_append_of_le_length hle, hlength, Nat.sub_eq_zero_of_le hle,
        Nat.sub_eq_zero_of_le (Nat.le_succ_of_le hle)]
    · rw [hptr, hlength, Nat.min_eq_right (Nat.le_succ_of_le hle)]

/-- **The loop ends with the line**, which is in the array then. -/
theorem readLine_line {line : CStr} (h : '\n' ∉ line) (rest : List Char) {b : Buffer} {before : CStr}
    (hb : b.Holds before) : ∃ b', b'.Holds (before ++ line) ∧
      (Comp.loop readPass (line ++ '\n' :: rest, b)).Returns (rest, b') := by
  induction line generalizing b before with
  | nil =>
    refine ⟨b, (List.append_nil before).symm ▸ hb, Comp.loop_returns_iff.mpr (.inl ?_)⟩
    exact Comp.returns_pure.mpr rfl
  | cons c line ih =>
    obtain ⟨hc, hline⟩ := List.ne_and_not_mem_of_not_mem_cons h
    obtain ⟨b', hb', hloop⟩ := ih hline (hb.put c)
    rw [List.append_assoc, List.singleton_append] at hb'
    refine ⟨b', hb', Comp.loop_returns_iff.mpr (.inr ⟨_, ?_, hloop⟩)⟩
    have hpass : readPass (c :: line ++ '\n' :: rest, b) =
        pure (.next (line ++ '\n' :: rest, b.put c)) := if_neg (Ne.symm hc)
    rw [hpass]
    exact Comp.returns_pure.mpr rfl

/-- **Without a newline it never ends.** -/
theorem not_readLine_ends {input : List Char} (h : '\n' ∉ input) (b : Buffer) :
    ¬ (Comp.loop readPass (input, b)).Ends := by
  refine Comp.not_loop_ends_of_inv (fun s => '\n' ∉ s.1) ?_ h
  rintro ⟨input, b⟩ p hinput hp
  have hne : input.headD eof ≠ '\n' := by
    cases input with
    | nil => decide
    | cons c input => exact Ne.symm (List.ne_and_not_mem_of_not_mem_cons hinput).1
  have hpass : readPass (input, b) = pure (.next (input.tail, b.put (input.headD eof))) := if_neg hne
  rw [hpass] at hp
  exact ⟨_, (Comp.returns_pure.mp hp).symm, fun hmem => hinput (List.mem_of_mem_tail hmem)⟩

/-! ## The whole function -/

/-- A line is read: it is what comes in front of the first newline. -/
def LineRead (input : List Char) (line : CStr) : Prop :=
  ∃ rest, input = line ++ '\n' :: rest ∧ '\n' ∉ line

/-- **The password is read safely**: the loop ends, only the array is written to, and the return value
is `CFG_RETURN_OK` exactly if a line was read that equals the password. -/
def ReadsSafely (passwd : CStr) (input : List Char) : Prop :=
  ∃ r, (passwordRun passwd input).Returns r ∧ (∀ i ∈ r.written, i < cfgStrMaxLen) ∧
    (r.ok = true ↔ LineRead input passwd)

/-- The condition: there is a newline in the input, the line in front of it is shorter than the array,
and it is not the password with a NUL behind it. -/
def Readable (passwd : CStr) (input : List Char) : Prop :=
  ∃ line, LineRead input line ∧ line.length < cfgStrMaxLen ∧ ¬ (nul ∈ line ∧ cstr line = passwd)

theorem LineRead.unique {input line line' : List Char} (h : LineRead input line)
    (h' : LineRead input line') : line = line' := by
  obtain ⟨rest, rfl, hline⟩ := h
  obtain ⟨rest', heq, hline'⟩ := h'
  have hspan := span_line hline rest
  rw [heq, span_line hline' rest'] at hspan
  exact (Prod.mk.inj hspan).1.symm

theorem cstr_append_nul (str behind : List Char) : cstr (str ++ nul :: behind) = cstr str := by
  rw [cstr, cstr, List.takeWhile_append]
  split
  · rw [List.takeWhile_cons_of_neg (by simp), List.append_nil, List.takeWhile_eq_self_iff.mpr]
    rename_i hlength
    exact List.takeWhile_eq_self_iff.mp
      (List.IsPrefix.eq_of_length (List.takeWhile_prefix _) hlength)
  · rfl

/-- **A line**: the index behind it is the last one that is written to, and if that is in the array
the line is compared. -/
theorem passwordRun_line (passwd : CStr) {line : CStr} (h : '\n' ∉ line) (rest : List Char) :
    ∃ r, (passwordRun passwd (line ++ '\n' :: rest)).Returns r ∧ r.input = rest ∧
      r.written = List.range (min line.length cfgStrMaxLen + 1) ∧
      (line.length < cfgStrMaxLen → r.ok = (passwd == cstr line)) := by
  obtain ⟨b, hb, hloop⟩ := readLine_line h rest Buffer.holds_init
  rw [List.nil_append] at hb
  refine ⟨⟨passwd == cstr (b.store nul).array, rest, (b.store nul).written⟩,
    Comp.returns_bind.mpr ⟨_, hloop, Comp.returns_pure.mpr rfl⟩, rfl, ?_, fun hlt => ?_⟩
  · show b.written ++ [b.strPtr] = _
    rw [hb.written, hb.strPtr, List.range_succ]
  · have hrest : cfgStrMaxLen - line.length = (cfgStrMaxLen - (line.length + 1)) + 1 := by omega
    have harray : (b.store nul).array =
        line ++ nul :: List.replicate (cfgStrMaxLen - (line.length + 1)) nul := by
      show b.array.set b.strPtr nul = _
      rw [hb.array, hb.strPtr, Nat.min_eq_left (Nat.le_of_lt hlt),
        List.take_of_length_le (Nat.le_of_lt hlt), hrest, List.replicate_succ,
        List.set_append_right _ _ (Nat.le_refl _), Nat.sub_self, List.set_cons_zero]
    rw [harray, cstr_append_nul]

/-- Where the function returns, there is a newline in the input. -/
theorem lineRead_of_returns {passwd : CStr} {input : List Char} {r : PasswordRun}
    (h : (passwordRun passwd input).Returns r) : ∃ line, LineRead input line := by
  by_contra hnone
  have hnewline : '\n' ∉ input := fun hmem => by
    obtain ⟨line, rest, hinput, hline⟩ := List.eq_append_cons_of_mem hmem
    exact hnone ⟨line, rest, hinput, hline⟩
  obtain ⟨s, hloop, -⟩ := Comp.returns_bind.mp h
  exact not_readLine_ends hnewline _ ⟨s, hloop⟩

/-- **When the password is read safely**: if and only if there is a newline in the input, at most 511
characters are in front of it, and these are not the password with a NUL behind it. -/
theorem passwordRun_safe_iff {passwd : CStr} (hpasswd : nul ∉ passwd) (input : List Char) :
    ReadsSafely passwd input ↔ Readable passwd input := by
  have hequal : ∀ {line : CStr}, ¬ (nul ∈ line ∧ cstr line = passwd) ↔
      (passwd = cstr line ↔ line = passwd) := by
    intro line
    by_cases hnul : nul ∈ line
    · have hne : line ≠ passwd := fun heq => hpasswd (heq ▸ hnul)
      simp [hnul, hne, eq_comm]
    · rw [cstr_eq_self hnul]
      simp [hnul, eq_comm]
  constructor
  · rintro ⟨r, hr, hwritten, hok⟩
    obtain ⟨line, rest, rfl, hline⟩ := lineRead_of_returns hr
    have hread : LineRead (line ++ '\n' :: rest) line := ⟨rest, rfl, hline⟩
    obtain ⟨r', hr', -, hwritten', hok'⟩ := passwordRun_line passwd hline rest
    obtain rfl := hr.unique hr'
    have hlt : line.length < cfgStrMaxLen := by
      by_contra hle
      have hlast := hwritten cfgStrMaxLen
      rw [hwritten', List.mem_range, Nat.min_eq_right (Nat.not_lt.mp hle)] at hlast
      exact Nat.lt_irrefl _ (hlast (Nat.lt_succ_self _))
    refine ⟨line, hread, hlt, hequal.mpr ?_⟩
    rw [hok' hlt, beq_iff_eq] at hok
    rw [hok]
    exact ⟨fun h => hread.unique h, fun h => h ▸ hread⟩
  · rintro ⟨line, hread, hlt, hnot⟩
    obtain ⟨rest, rfl, hline⟩ := hread
    obtain ⟨r, hr, -, hwritten, hok⟩ := passwordRun_line passwd hline rest
    refine ⟨r, hr, fun i hi => ?_, ?_⟩
    · rw [hwritten, List.mem_range, Nat.min_eq_left (Nat.le_of_lt hlt)] at hi
      exact Nat.lt_of_lt_of_le hi hlt
    · rw [hok hlt, beq_iff_eq, hequal.mp hnot]
      exact ⟨fun h => h ▸ ⟨rest, rfl, hline⟩, fun h => LineRead.unique ⟨rest, rfl, hline⟩ h⟩

/-- A password that is typed. -/
theorem passwordRun_safe_iff_typed : nul ∉ ['p', 'w'] ∧
    (ReadsSafely ['p', 'w'] ['p', 'w', '\n'] ↔ Readable ['p', 'w'] ['p', 'w', '\n']) :=
  ⟨by decide, passwordRun_safe_iff (by decide) ['p', 'w', '\n']⟩

/-- **When the terminal hangs up** the loop never ends, and of 512 characters one too many is written,
even if it is only the NUL. -/
theorem passwordRun_unsafe : ¬ (passwordRun ['p'] []).Ends ∧ ¬ ReadsSafely ['p'] [] ∧
    ∃ r, (passwordRun ['p'] (List.replicate 512 'a' ++ ['\n'])).Returns r ∧ 512 ∈ r.written := by
  have hends : ¬ (passwordRun ['p'] []).Ends := by
    rintro ⟨r, hr⟩
    obtain ⟨line, rest, hinput, -⟩ := lineRead_of_returns hr
    exact absurd hinput (by simp)
  refine ⟨hends, fun ⟨r, hr, _⟩ => hends ⟨r, hr⟩, ?_⟩
  have hline : '\n' ∉ List.replicate 512 'a' := fun hmem =>
    absurd (List.eq_of_mem_replicate hmem) (by decide)
  obtain ⟨r, hr, -, hwritten, -⟩ := passwordRun_line ['p'] hline []
  refine ⟨r, hr, ?_⟩
  rw [hwritten, List.mem_range, List.length_replicate]
  decide

/-! ## The model of the terminal -/

theorem password_line (passwd : CStr) {line rest : List Char} (h : '\n' ∉ line) {t : Tty}
    (hinput : t.input = line ++ '\n' :: rest) {r : Except Halt Bool} {t' : Tty} :
    (password passwd).Runs t r t' ↔
      r = (if cfgStrMaxLen ≤ line.length then .error .overrun else .ok (passwd == cstr line)) ∧
        t' = { t with input := rest } := by
  unfold password
  rw [Routine.runs_get_bind, hinput, span_line h]
  dsimp only
  rw [Routine.runs_bind_of_ok (setInput_runs rest t)]
  split
  · rw [Routine.runs_throw, eq_comm, @eq_comm Tty]
  · rw [Routine.runs_pure, eq_comm, @eq_comm Tty]

theorem password_noLine (passwd : CStr) {t : Tty} (h : '\n' ∉ t.input) {ok : Bool} {t' : Tty} :
    ¬ (password passwd).Runs t (.ok ok) t' := by
  have hall : ∀ c ∈ t.input, (c != '\n') = true := fun c hc => bne_iff_ne.mpr fun heq => h (heq ▸ hc)
  unfold password
  rw [Routine.runs_get_bind, List.span_eq_takeWhile_dropWhile, List.dropWhile_eq_nil_iff.mpr hall]
  intro hrun
  exact absurd (Routine.runs_throw.mp hrun).1 (by simp)

/-- **`password` in the model of the terminal** returns as the loop does, as long as that only writes
to the array. -/
theorem password_runs_iff {passwd : CStr} {t t' : Tty} {ok : Bool} :
    (password passwd).Runs t (.ok ok) t' ↔ ∃ r, (passwordRun passwd t.input).Returns r ∧
      (∀ i ∈ r.written, i < cfgStrMaxLen) ∧ ok = r.ok ∧ t' = { t with input := r.input } := by
  by_cases hnewline : '\n' ∈ t.input
  · obtain ⟨line, rest, hinput, hline⟩ := List.eq_append_cons_of_mem hnewline
    obtain ⟨r, hr, rfl, hwritten, hok⟩ := passwordRun_line passwd hline rest
    rw [password_line passwd hline hinput, hinput]
    by_cases hlt : line.length < cfgStrMaxLen
    · rw [if_neg (Nat.not_le.mpr hlt), ← hok hlt, Except.ok.injEq]
      constructor
      · rintro ⟨rfl, rfl⟩
        refine ⟨r, hr, fun i hi => ?_, rfl, rfl⟩
        rw [hwritten, List.mem_range, Nat.min_eq_left (Nat.le_of_lt hlt)] at hi
        exact Nat.lt_of_lt_of_le hi hlt
      · rintro ⟨r', hr', -, rfl, rfl⟩
        rw [hr'.unique hr]
        exact ⟨rfl, rfl⟩
    · have hle := Nat.not_lt.mp hlt
      rw [if_pos hle]
      refine iff_of_false (fun h => by cases h.1) ?_
      rintro ⟨r', hr', hbound, -, -⟩
      have hlast := hbound cfgStrMaxLen
      rw [hr'.unique hr, hwritten, List.mem_range, Nat.min_eq_right hle] at hlast
      exact Nat.lt_irrefl _ (hlast (Nat.lt_succ_self _))
  · refine iff_of_false (password_noLine passwd hnewline) ?_
    rintro ⟨r, hr, -⟩
    obtain ⟨line, rest, hinput, -⟩ := lineRead_of_returns hr
    exact hnewline (hinput ▸ by simp)

end Sysload.Linemode
