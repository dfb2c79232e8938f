import Mathlib.Data.DFinsupp.WellFounded
import Sysload.Parser.Parse

/-!
# Every parse ends

A file may include itself, and many times over. The scanner still comes to an end: a match takes
something from the buffer on top or leaves a start condition for good, an include suspends a buffer
that has become shorter, and no more than `MAX_INCL_DEPTH` buffers can be suspended. Read from the
outermost buffer to the one on top, what is left of the buffers gets smaller in the lexicographic
order (`weights`, `flexStep_drops`).

Source: `src/core/sysload.conf.l`, its includes; `src/core/parser.c`, `open_incl_uri`.
-/

namespace Sysload.Parser

open Lexer

/-! ## What is left to read -/

/-- What is left of the buffer on top; outside of `INITIAL` a match may be empty. -/
def Scanner.weight (s : Scanner) : Nat :=
  2 * s.text.length + 1 + if s.mode = .initial then 0 else 1

/-- What is left of the buffers, from the outermost one. -/
def Scanner.weights (s : Scanner) : List Nat :=
  (s.stack.map fun saved => 2 * saved.text.length + 3).reverse ++ [s.weight]

/-- The list gets smaller at some place. -/
def Drops (l' l : List Nat) (depth : Nat) : Prop :=
  ∃ p w w' t t', l = p ++ w :: t ∧ l' = p ++ w' :: t' ∧ w' < w ∧ p.length ≤ depth

/-- A list of at most `n + 1` numbers, in the lexicographic order. -/
def rank (n : Nat) (l : List Nat) : Lex (Fin (n + 1) → Nat) := toLex fun i => l.getD i 0

theorem Drops.rank_lt {l' l : List Nat} {depth n : Nat} (h : Drops l' l depth) (hn : depth ≤ n) :
    rank n l' < rank n l := by
  obtain ⟨p, w, w', t, t', rfl, rfl, hw, hp⟩ := h
  refine ⟨⟨p.length, by omega⟩, fun j hj => ?_, ?_⟩
  · have hj : j.val < p.length := hj
    show (p ++ w' :: t').getD j 0 = (p ++ w :: t).getD j 0
    simp [List.getD, List.getElem?_append_left hj]
  · show (p ++ w' :: t').getD p.length 0 < (p ++ w :: t).getD p.length 0
    simpa [List.getD] using hw

/-! ## One step -/

/-- A match of the rule takes something, or leaves a start condition. -/
def Rule.progresses (r : Rule) : Bool :=
  match r.action with
  | .string => !r.modes.contains .initial
  | .incl => !r.modes.contains .initial
  | .less _ n _ => decide (1 ≤ n ∧ 1 ≤ r.taken r.pattern.minLen)
  | _ => decide (1 ≤ r.taken r.pattern.minLen)

theorem rules_progress : rules.all Rule.progresses = true := by decide +kernel

theorem Rule.taken_mono (r : Rule) {m n : Nat} (h : m ≤ n) : r.taken m ≤ r.taken n := by
  unfold taken
  split <;> omega

theorem Rule.taken_le (r : Rule) (n : Nat) : r.taken n ≤ n := by
  unfold taken
  split <;> omega

section Step

variable {active : Bool} {load : CStr → Option (List Char)}

/-- A step that changes only the buffer on top. -/
theorem drops_of_weight {s s' : Scanner} (hstack : s'.stack = s.stack) (h : s'.weight < s.weight) :
    Drops s'.weights s.weights s.stack.length :=
  ⟨(s.stack.map fun saved => 2 * saved.text.length + 3).reverse, s.weight, s'.weight, [], [], rfl,
    by rw [Scanner.weights, hstack], h, by simp⟩

/-- The weight of a buffer that has lost a character. -/
theorem weight_lt_of_length {s s' : Scanner} (h : s'.text.length < s.text.length) :
    s'.weight < s.weight := by
  unfold Scanner.weight
  split <;> split <;> omega

/-- Leaving a start condition. -/
theorem weight_lt_of_initial {s s' : Scanner} (h : s'.text.length ≤ s.text.length)
    (hmode : s.mode ≠ .initial) (hmode' : s'.mode = .initial) : s'.weight < s.weight := by
  unfold Scanner.weight
  rw [if_neg hmode, if_pos hmode']
  omega

/-- Suspending a buffer that has lost a character. -/
theorem drops_of_suspend {s s' : Scanner} {saved : Saved} (hstack : s'.stack = saved :: s.stack)
    (hmode : s.mode ≠ .initial) (h : saved.text.length < s.text.length) :
    Drops s'.weights s.weights s.stack.length := by
  refine ⟨(s.stack.map fun saved => 2 * saved.text.length + 3).reverse, s.weight,
    2 * saved.text.length + 3, [], [s'.weight], rfl, ?_, ?_, by simp⟩
  · simp [Scanner.weights, hstack]
  · unfold Scanner.weight
    rw [if_neg hmode]
    omega

/-- The code of a rule that matches. -/
theorem act_drops (hload : load [] = none) {s : Scanner} {n : Nat} {r : Rule} (h : s.Matches n r) :
    Drops ({ s with text := s.text.drop (r.taken n) }.act active load (s.text.take (r.taken n))
      r.action).1.weights s.weights s.stack.length := by
  have hprogress := List.all_eq_true.mp rules_progress r h.rule
  have hmin : r.pattern.minLen ≤ n := by
    have hle := Pattern.minLen_le h.lang
    rwa [List.length_take, Nat.min_eq_left h.length] at hle
  have hmono := r.taken_mono hmin
  have htaken := Nat.le_trans (r.taken_le n) h.length
  have hmode : r.modes.contains .initial = false → s.mode ≠ .initial := by
    intro hnot heq
    rw [← heq, List.contains_iff_mem.mpr h.mode] at hnot
    cases hnot
  unfold Rule.progresses at hprogress
  cases haction : r.action with
  | token k val next =>
    rw [haction] at hprogress
    have hpos := of_decide_eq_true hprogress
    exact drops_of_weight rfl (weight_lt_of_length (by simp [Scanner.act]; omega))
  | less k m next =>
    rw [haction] at hprogress
    have hpos := of_decide_eq_true hprogress
    exact drops_of_weight rfl (weight_lt_of_length (by simp [Scanner.act]; omega))
  | char next =>
    rw [haction] at hprogress
    have hpos := of_decide_eq_true hprogress
    exact drops_of_weight rfl (weight_lt_of_length (by simp [Scanner.act]; omega))
  | string =>
    rw [haction] at hprogress
    exact drops_of_weight rfl
      (weight_lt_of_initial (by simp [Scanner.act]) (hmode (by simpa using hprogress)) rfl)
  | skip next =>
    rw [haction] at hprogress
    have hpos := of_decide_eq_true hprogress
    exact drops_of_weight rfl (weight_lt_of_length (by simp [Scanner.act]; omega))
  | newline =>
    rw [haction] at hprogress
    have hpos := of_decide_eq_true hprogress
    exact drops_of_weight rfl (weight_lt_of_length (by simp [Scanner.act]; omega))
  | incl =>
    rw [haction] at hprogress
    have hinitial := hmode (by simpa using hprogress)
    show Drops (Scanner.include active load _ _).weights _ _
    rcases Scanner.include_cases active load
      { s with text := s.text.drop (r.taken n), mode := .initial }
      (dropBlanks (cstr (s.text.take (r.taken n)))) with heq | ⟨_, _, content, hcontent, heq⟩
    · rw [heq]
      exact drops_of_weight rfl (weight_lt_of_initial (by simp) hinitial rfl)
    · rw [heq]
      -- an empty URI cannot be loaded, so the suspended buffer has lost a character
      have hpos : 1 ≤ r.taken n := by
        by_contra hzero
        have hzero : r.taken n = 0 := by omega
        rw [hzero, List.take_zero] at hcontent
        have hnil : dropBlanks (cstr []) = [] := rfl
        rw [hnil, hload] at hcontent
        cases hcontent
      exact drops_of_suspend rfl hinitial (by simp; omega)

/-- **A step of the scanner leaves less to read**, but at the end of the input. -/
theorem flexStep_drops (hload : load [] = none) (s : Scanner)
    (h : (s.flexStep active load).2 ≠ some .eof) :
    Drops (s.flexStep active load).1.weights s.weights s.stack.length := by
  rcases s.flexStep_cases active load with ⟨_, _, heq⟩ | ⟨saved, stack, htext, hstack, heq⟩ |
    ⟨c, rest, htext, heq⟩ | ⟨n, r, hmatch, heq⟩
  · rw [heq] at h
    exact absurd rfl h
  · rw [heq]
    refine ⟨(stack.map fun saved => 2 * saved.text.length + 3).reverse, 2 * saved.text.length + 3,
      _, [s.weight], [], ?_, rfl, ?_, ?_⟩
    · simp [Scanner.weights, hstack]
    · unfold Scanner.weight
      split
      · simp
      · simp
    · simp [hstack]
  · rw [heq]
    exact drops_of_weight rfl (weight_lt_of_length (by simp [htext]))
  · rw [heq]
    exact act_drops hload hmatch

/-- No more than `MAX_INCL_DEPTH` buffers get suspended. -/
theorem flexStep_depth (s : Scanner) :
    (s.flexStep active load).1.stack.length ≤ max maxInclDepth s.stack.length := by
  rcases s.flexStep_cases active load with ⟨_, _, heq⟩ | ⟨saved, stack, _, hstack, heq⟩ |
    ⟨c, rest, _, heq⟩ | ⟨n, r, _, heq⟩
  · rw [heq]
    exact Nat.le_max_right _ _
  · rw [heq, hstack]
    simp
  · rw [heq]
    exact Nat.le_max_right _ _
  · rw [heq]
    cases r.action with
    | incl =>
      show (Scanner.include active load _ _).stack.length ≤ _
      rcases Scanner.include_cases active load
        { s with text := s.text.drop (r.taken n), mode := .initial }
        (dropBlanks (cstr (s.text.take (r.taken n)))) with heq | ⟨hdepth, _, content, _, heq⟩
      · rw [heq]
        exact Nat.le_max_right _ _
      · rw [heq]
        exact Nat.le_trans hdepth (Nat.le_max_left _ _)
    | _ => exact Nat.le_max_right _ _

end Step

/-! ## The parse -/

section Run

variable (env : Env) (msgs : Messages)

theorem openInclUri_nil (executed : List Command) : env.openInclUri executed [] = none := rfl

/-- A pass that goes on goes on where the scanner does. -/
theorem pass_next {s s' : Parse} (h : s.pass env msgs = .ok (.next s')) :
    s'.scan = (s.flexStep env).1 ∧ (s.flexStep env).2 ≠ some .eof := by
  have hpasses := passes_pass env msgs s
  rw [h] at hpasses
  cases hpasses with
  | skipped hevent => exact ⟨rfl, by rw [hevent]; simp⟩
  | shifted hevent _ hverdict =>
    refine ⟨rfl, fun heof => ?_⟩
    rw [heof] at hevent
    cases hevent
    exact s.control.take_eof _ hverdict

/-- **Every parse ends**, whatever is included. -/
theorem yyparse_ends (s : Parse) : (yyparse env msgs s).Ends := by
  let n := max maxInclDepth s.scan.stack.length
  have hwf : WellFounded (InvImage (· < ·) fun s : Parse => rank n s.scan.weights) :=
    InvImage.wf _ wellFounded_lt
  refine Prog.loop_ends_of_wf hwf (fun s' => s'.scan.stack.length ≤ n) (fun s' hs' => ?_)
    (Nat.le_max_right _ _)
  refine ⟨s'.pass env msgs, Prog.gives_lift.mpr rfl, fun s'' hnext => ?_⟩
  obtain ⟨hscan, heof⟩ := pass_next env msgs hnext
  have hload := openInclUri_nil env s'.ctx.executed
  have hdrops := @flexStep_drops s'.ctx.active _ hload s'.scan heof
  have hdepth := @flexStep_depth s'.ctx.active (env.openInclUri s'.ctx.executed) s'.scan
  constructor
  · rw [hscan]
    exact Nat.le_trans hdepth (Nat.max_le.mpr ⟨Nat.le_max_left _ _, hs'⟩)
  · show rank n s''.scan.weights < rank n s'.scan.weights
    rw [hscan]
    exact hdrops.rank_lt hs'

end Run

end Sysload.Parser
