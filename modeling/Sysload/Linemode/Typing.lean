import Sysload.Linemode.Menu
import Sysload.Loader.Insfile

/-!
# Typing a selection (`ui_linemode.c`)

The menu shows a number in front of each boot entry, and `compute_selection()` takes the number apart
from the command, in whatever order they are typed.

Source: `src/core/ui_linemode.c`, `compute_selection` and `print_selection`.

Results:
* `computeSelection_number`, `computeSelection_before`, `computeSelection_behind`,
  `computeSelection_command`: the four kinds of lines.
* `selection_typed`: the number that is shown selects the entry.
* **`computeSelection_lines`**: both, and what the menu loop makes of the line.
-/

namespace Sysload.Linemode

/-! ## Lines -/

/-- A character for a command: no digit, no sign and no white space. -/
structure IsCommand (c : Char) : Prop where
  digit : c.isDigit = false
  plus : c ≠ '+'
  minus : c ≠ '-'
  space : isSpaceChar c = false
  nul : c ≠ nul

theorem skipBlanks_command {c : Char} (h : IsCommand c) (n : Nat) (str : CStr) :
    skipBlanks (blanks n ++ c :: str) = c :: str := by
  rw [skipBlanks_blanks, skipBlanks_cons]
  rintro rfl
  exact absurd h.space (by decide)

/-- A number begins with a digit. -/
theorem exists_digit (n : Nat) : ∃ d ds, Nat.toDigits 10 n = d :: ds ∧ d.isDigit = true := by
  cases hdigits : Nat.toDigits 10 n with
  | nil => exact absurd hdigits Nat.toDigits_ne_nil
  | cons d ds =>
    exact ⟨d, ds, rfl, isDigit_toDigits d (hdigits ▸ List.mem_cons_self)⟩

theorem skipBlanks_number (n k : Nat) (str : CStr) :
    skipBlanks (blanks k ++ (printInt n ++ str)) = printInt n ++ str := by
  obtain ⟨d, ds, hdigits, hd⟩ := exists_digit n
  show skipBlanks (blanks k ++ (Nat.toDigits 10 n ++ str)) = Nat.toDigits 10 n ++ str
  rw [hdigits, List.cons_append, skipBlanks_blanks, skipBlanks_cons]
  rintro rfl
  exact absurd hd (by decide)

/-- A number is scanned up to the first character that is no digit. -/
theorem scanNumber_number (n : Nat) {str : CStr} (h : ∀ c ∈ str.head?, c.isDigit = false) :
    scanNumber (printInt n ++ str) = some (n : Int) ∧
      (printInt n ++ str).dropWhile Char.isDigit = str := by
  have hstop : str.takeWhile Char.isDigit = [] ∧ str.dropWhile Char.isDigit = str := by
    cases str with
    | nil => exact ⟨rfl, rfl⟩
    | cons c str =>
      have hc : ¬ c.isDigit = true := by simp [h c rfl]
      exact ⟨List.takeWhile_cons_of_neg hc, List.dropWhile_cons_of_neg hc⟩
  have htake : scanNat (Nat.toDigits 10 n ++ str) = some n := by
    have hscan := scanNat_toDigits n
    unfold scanNat at hscan ⊢
    rw [List.takeWhile_append_of_pos isDigit_toDigits, hstop.1]
    rwa [← List.append_nil (Nat.toDigits 10 n), List.takeWhile_append_of_pos isDigit_toDigits] at hscan
  constructor
  · obtain ⟨d, ds, hdigits, hd⟩ := exists_digit n
    show scanNumber (Nat.toDigits 10 n ++ str) = _
    rw [hdigits, List.cons_append] at htake ⊢
    rw [scanNumber_of_isDigit hd, htake]
    rfl
  · show (Nat.toDigits 10 n ++ str).dropWhile _ = _
    rw [List.dropWhile_append_of_pos isDigit_toDigits, hstop.2]

/-- A command is no number. -/
theorem scanInt_command {c : Char} (h : IsCommand c) (str : CStr) : scanInt (c :: str) = none := by
  have hscan : scanNat (c :: str) = none := by
    rw [scanNat, List.takeWhile_cons_of_neg (by simp [h.digit])]
  unfold scanInt scanNumber
  rw [List.dropWhile_cons_of_neg (by simp [h.space])]
  split
  · rename_i heq
    exact absurd (List.cons.inj heq).1 h.minus
  · rename_i heq
    exact absurd (List.cons.inj heq).1 h.plus
  · rw [hscan]
    rfl

section Lines

variable {c : Char} (h : IsCommand c) (a b : Nat)

include h in
theorem computeSelection_command : computeSelection (blanks a ++ [c]) = (c, 0) := by
  rw [computeSelection, skipBlanks_command h]
  simp only [scanInt_command h]
  rfl

variable {n : Nat} (hn : n ≤ intMax)
include hn

theorem computeSelection_number : computeSelection (blanks a ++ printInt n) = (nul, (n : Int)) := by
  have hnil : ∀ c ∈ ([] : CStr).head?, c.isDigit = false := by simp
  obtain ⟨hscan, hrest⟩ := scanNumber_number n hnil
  have hskip := skipBlanks_number n a []
  rw [List.append_nil] at hscan hrest hskip
  rw [computeSelection, hskip]
  simp only [scanInt_of_fits hscan hn, hrest]
  rfl

include h

theorem computeSelection_before :
    computeSelection (blanks a ++ c :: (blanks b ++ printInt n)) = (c, (n : Int)) := by
  have hskip := skipBlanks_number n b []
  rw [List.append_nil] at hskip
  rw [computeSelection, skipBlanks_command h]
  simp only [scanInt_command h, hskip]
  obtain ⟨d, ds, hdigits, -⟩ := exists_digit n
  have hprint : printInt (n : Int) = d :: ds := hdigits
  have hscan : scanInt (Nat.toDigits 10 n) = some (n : Int) :=
    scanInt_of_fits (scanNumber_toDigits n) hn
  rw [hdigits] at hscan
  rw [hprint]
  simp only [hscan]
  rfl

theorem computeSelection_behind :
    computeSelection (blanks a ++ (printInt n ++ (blanks b ++ [c]))) = (c, (n : Int)) := by
  have hhead : ∀ d ∈ (blanks b ++ [c]).head?, d.isDigit = false := by
    cases b with
    | zero =>
      rintro d ⟨⟩
      exact h.digit
    | succ b =>
      rintro d ⟨⟩
      rfl
  obtain ⟨hscan, hrest⟩ := scanNumber_number n hhead
  rw [computeSelection, skipBlanks_number]
  simp only [scanInt_of_fits hscan hn, hrest, skipBlanks_command h]

end Lines

/-! ## The menu -/

/-- A line with a number, and a command in front of it or behind it, if there is one. -/
inductive Types : CStr → Char → Nat → Prop
  | number (a n : Nat) : Types (blanks a ++ printInt n) nul n
  | before {c : Char} (h : IsCommand c) (a b n : Nat) :
    Types (blanks a ++ c :: (blanks b ++ printInt n)) c n
  | behind {c : Char} (h : IsCommand c) (a b n : Nat) :
    Types (blanks a ++ (printInt n ++ (blanks b ++ [c]))) c n

theorem Types.computeSelection {line : CStr} {command : Char} {n : Nat} (h : Types line command n)
    (hn : n ≤ intMax) : computeSelection line = (command, (n : Int)) := by
  cases h with
  | number a => exact computeSelection_number a hn
  | before h a b => exact computeSelection_before h a b hn
  | behind h a b => exact computeSelection_behind h a b hn

theorem isDigit_of_mem_printInt {n : Nat} {c : Char} (h : c ∈ printInt n) : c.isDigit = true :=
  isDigit_toDigits c h

/-- What is typed are blanks, digits, and the command. -/
theorem Types.mem {line : CStr} {command : Char} {n : Nat} (h : Types line command n) {c : Char}
    (hc : c ∈ line) : c = ' ' ∨ c.isDigit = true ∨ IsCommand c := by
  cases h with
  | number a =>
    rcases List.mem_append.mp hc with hc | hc
    · exact .inl (mem_blanks hc)
    · exact .inr (.inl (isDigit_of_mem_printInt hc))
  | before h a b =>
    rcases List.mem_append.mp hc with hc | hc
    · exact .inl (mem_blanks hc)
    · rcases List.mem_cons.mp hc with rfl | hc
      · exact .inr (.inr h)
      · rcases List.mem_append.mp hc with hc | hc
        · exact .inl (mem_blanks hc)
        · exact .inr (.inl (isDigit_of_mem_printInt hc))
  | behind h a b =>
    rcases List.mem_append.mp hc with hc | hc
    · exact .inl (mem_blanks hc)
    · rcases List.mem_append.mp hc with hc | hc
      · exact .inr (.inl (isDigit_of_mem_printInt hc))
      · rcases List.mem_append.mp hc with hc | hc
        · exact .inl (mem_blanks hc)
        · exact .inr (.inr (List.mem_singleton.mp hc ▸ h))

theorem Types.isText {line : CStr} {command : Char} {n : Nat} (h : Types line command n) :
    '\n' ∉ line ∧ nul ∉ line := by
  constructor
  · intro hc
    rcases h.mem hc with heq | hdigit | hcommand
    · exact absurd heq (by decide)
    · exact absurd hdigit (by decide)
    · exact absurd hcommand.space (by decide)
  · intro hc
    rcases h.mem hc with heq | hdigit | hcommand
    · exact absurd heq (by decide)
    · exact absurd hdigit (by decide)
    · exact hcommand.nul rfl

/-- There is a digit in it. -/
theorem Types.not_blank {line : CStr} {command : Char} {n : Nat} (h : Types line command n) :
    isBlank line = false := by
  obtain ⟨d, ds, hdigits, hd⟩ := exists_digit n
  have hne : (d == ' ') = false := by
    rw [beq_eq_false_iff_ne]
    rintro rfl
    exact absurd hd (by decide)
  have hmem : d ∈ printInt n := show d ∈ Nat.toDigits 10 n from hdigits ▸ List.mem_cons_self
  have hline : d ∈ line := by
    cases h with
    | number a => exact List.mem_append_right _ hmem
    | before h a b => exact List.mem_append_right _ (.tail _ (List.mem_append_right _ hmem))
    | behind h a b => exact List.mem_append_right _ (List.mem_append_left _ hmem)
  exact List.all_eq_false.mpr ⟨d, hline, by simp [hne]⟩

variable (config : CfgToplevel)

/-- The line of the menu for a boot entry. -/
def menuLine (i : Nat) (bentry : CfgBentry) : CStr :=
  (if (i : Int) = config.bootDefault then "->".toList else "  ".toList) ++
    (if bentry.locked ≠ 0 then '[' else ' ') :: (printInt (i + 1 : Nat) ++ '\t' :: bentry.title ++
      if bentry.locked ≠ 0 then "]\n".toList else "\n".toList)

/-- The number in a line of the menu: it begins in the fourth column. -/
def menuNumber (line : CStr) : Option Int := scanNumber (line.drop 3)

variable {config}

theorem menuNumber_menuLine (i : Nat) (bentry : CfgBentry) :
    menuNumber (menuLine config i bentry) = some ((i + 1 : Nat) : Int) := by
  have hdrop : (menuLine config i bentry).drop 3 = printInt (i + 1 : Nat) ++ ('\t' :: (bentry.title ++
      if bentry.locked ≠ 0 then "]\n".toList else "\n".toList)) := by
    unfold menuLine
    by_cases hdefault : (i : Int) = config.bootDefault
    · rw [if_pos hdefault, List.append_assoc]
      rfl
    · rw [if_neg hdefault, List.append_assoc]
      rfl
  rw [menuNumber, hdrop]
  refine (scanNumber_number (i + 1) ?_).1
  rintro c ⟨⟩
  rfl

section Selected

variable (hcount : config.bentryList.length ≤ intMax)
include hcount

/-- **The number that is shown selects the entry.** -/
theorem selection_typed {i : Nat} {bentry : CfgBentry} (h : config.bentryList[i]? = some bentry)
    {line : CStr} {command : Char} (htypes : Types line command (i + 1)) :
    selection config line = some (command, i, bentry) := by
  have hlt : i < config.bentryList.length := (List.getElem?_eq_some_iff.mp h).1
  have hselected : (if ((i + 1 : Nat) : Int) ≠ 0 then ((i + 1 : Nat) : Int) - 1
      else config.bootDefault) = (i : Int) := by
    rw [if_pos (by omega)]
    omega
  unfold selection
  rw [if_neg (by simp [htypes.not_blank])]
  simp only [htypes.computeSelection (hlt.trans_le hcount), hselected]
  rw [if_neg (by omega), Int.toNat_natCast, h]
  rfl

omit hcount in
/-- A line that fits into the array is delivered whole. -/
theorem takeLine_line {line : List Char} (h : '\n' ∉ line) (rest : List Char) {n : Nat}
    (hn : line.length < n) : takeLine n (line ++ '\n' :: rest) = (line ++ ['\n'], rest) := by
  induction line generalizing n with
  | nil =>
    obtain ⟨n, rfl⟩ := Nat.exists_eq_add_one_of_ne_zero (Nat.ne_of_gt hn)
    rfl
  | cons c line ih =>
    obtain ⟨hc, hline⟩ := List.ne_and_not_mem_of_not_mem_cons h
    obtain ⟨n, rfl⟩ := Nat.exists_eq_add_one_of_ne_zero (Nat.ne_of_gt (Nat.zero_lt_of_lt hn))
    rw [List.cons_append, takeLine, if_neg (Ne.symm hc), ih hline (Nat.lt_of_succ_lt_succ hn)]
    rfl

/-- **The menu loop** selects the entry, with the command. -/
theorem readSelection_typed {i : Nat} {bentry : CfgBentry}
    (h : config.bentryList[i]? = some bentry) {line : CStr} {command : Char}
    (htypes : Types line command (i + 1)) (hfits : line.length < cfgStrMaxLen - 1) {t : Tty}
    {rest : List Char} (hinput : t.input = line ++ '\n' :: rest) :
    ∃ t', (readSelection config).Runs t (.ok (some (command, i, bentry))) t' ∧ t'.input = rest := by
  obtain ⟨hnewline, hnul⟩ := htypes.isText
  have hne : t.input ≠ [] := by
    rw [hinput]
    simp
  have hcstr : cstr (line ++ ['\n']) = line ++ ['\n'] :=
    cstr_eq_self (by simpa using ⟨hnul, by decide⟩)
  have hfgets : fgetsLine t.input = (some (line ++ ['\n']), rest) := by
    rw [fgetsLine, if_neg hne, hinput, takeLine_line hnewline rest hfits, hcstr]
  refine ⟨⟨rest, line, t.events ++ [.delivered (some (line ++ ['\n']))] ++ [.selected i]⟩, ?_, rfl⟩
  have hselection := selection_typed hcount h htypes
  have hdrop : (line ++ ['\n']).dropLast = line := List.dropLast_concat
  unfold readSelection
  rw [Routine.runs_bind_of_ok (fgets_runs t), Routine.runs_bind_of_ok (log_runs _ _),
    Routine.runs_get_bind]
  simp only [hfgets, Option.getD_some]
  cases hbuffer : line ++ ['\n'] with
  | nil => exact absurd hbuffer (by simp)
  | cons c cs =>
    rw [hbuffer] at hdrop
    simp only [hdrop, hselection]
    rw [Routine.runs_bind_of_ok (setBuffer_runs _ _), Routine.runs_bind_of_ok (log_runs _ _)]
    exact Routine.runs_pure.mpr ⟨rfl, rfl⟩

end Selected

/-- **Lines of the menu**: a line of a command and a number of type `int`, in either order, or of one of
the two, is taken apart as it is written, whatever the number of blanks; and a line with the number
that the menu shows for an entry, with a command or without, selects this entry. -/
theorem computeSelection_lines (config : CfgToplevel) :
    (∀ n a b : Nat, n ≤ intMax → computeSelection (blanks a ++ printInt n) = (nul, (n : Int)) ∧
      ∀ c, IsCommand c →
        computeSelection (blanks a ++ c :: (blanks b ++ printInt n)) = (c, (n : Int)) ∧
        computeSelection (blanks a ++ (printInt n ++ (blanks b ++ [c]))) = (c, (n : Int)) ∧
        computeSelection (blanks a ++ [c]) = (c, 0)) ∧
    (config.bentryList.length ≤ intMax →
      ∀ i bentry, config.bentryList[i]? = some bentry → ∀ n : Nat,
        menuNumber (menuLine config i bentry) = some (n : Int) →
          ∀ line command, Types line command n →
            selection config line = some (command, i, bentry) ∧
            (line.length < cfgStrMaxLen - 1 → ∀ t rest, t.input = line ++ '\n' :: rest →
              ∃ t', (readSelection config).Runs t (.ok (some (command, i, bentry))) t' ∧
                t'.input = rest)) := by
  constructor
  · intro n a b hn
    refine ⟨computeSelection_number a hn, fun c hc => ⟨?_, ?_, ?_⟩⟩
    · exact computeSelection_before hc a b hn
    · exact computeSelection_behind hc a b hn
    · exact computeSelection_command hc a
  · intro hcount i bentry hentry n hn line command htypes
    rw [menuNumber_menuLine, Option.some.injEq, Int.natCast_inj] at hn
    subst hn
    exact ⟨selection_typed hcount hentry htypes, fun hfits t rest hinput =>
      readSelection_typed hcount hentry htypes hfits hinput⟩

/-- The second entry of a menu, by its number with a command in front of it. -/
theorem computeSelection_lines_second :
    selection { CfgToplevel.init with bentryList := [CfgBentry.init, lockedEntry] }
        [' ', 'd', ' ', '2']
      = some ('d', 1, lockedEntry) := by
  have hd : IsCommand 'd' := ⟨rfl, by decide, by decide, rfl, by decide⟩
  have htypes : Types [' ', 'd', ' ', '2'] 'd' 2 := .before hd 1 1 2
  have hnumber : menuNumber (menuLine { CfgToplevel.init with
      bentryList := [CfgBentry.init, lockedEntry] } 1 lockedEntry) = some ((2 : Nat) : Int) :=
    menuNumber_menuLine 1 lockedEntry
  exact ((computeSelection_lines _).2 (by decide) 1 lockedEntry rfl 2 hnumber _ _ htypes).1

end Sysload.Linemode
