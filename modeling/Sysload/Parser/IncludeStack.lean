import Sysload.Parser.Independence

/-!
# The include stack (`sysload.conf.l`)

The suspended buffers are kept in an array `stack` of `MAX_INCL_DEPTH` entries, of which those below
`top` are in use. `FlexState` has both; an index of `stack` may be any integer, and a step returns
the indices that its code has used. What `parser_active_system` says, and what the commands before
an include have done to the machine, may be anything at each step.

Source: `src/core/sysload.conf.l`, `include_stack_entry` and the rules for `INCLUDEMODE` and the end
of a buffer. Out of scope are the temporary files of the includes.

Results:
* `step_scanner`: the array is the list of suspended buffers of `Scanner`.
* `opened`: each entry in use was saved by an include whose file is still read.
* **`scan_ends`**: from an empty stack the scanner comes to the end of the input, where nothing is
  left to read, in the bounds of the array, and every included file is left as it was opened.
-/

namespace Sysload.Parser

open Lexer

/-! ## The scanner with its array -/

/-- `struct include_stack_entry`; the buffer is what is left of it. -/
structure InclEntry where
  uri : Option CStr
  filename : Option CStr
  lineno : Nat
  buffer : List Char
  deriving DecidableEq, Repr

/-- The variables of the scanner; `text` is what is left of the current buffer. -/
structure FlexState where
  mode : Mode
  lineno : Nat
  text : List Char
  stack : Int → InclEntry
  top : Int

/-- `URI_TEMP_FILENAME`. -/
def uriTempFilename (n : Int) : CStr :=
  "/tmp/sysloadparser-".toList ++ printInt n ++ ".cfg".toList

/-- What a step makes of the scanner, what it delivers, and the indices of `stack` it has used. -/
structure FlexResult where
  state : FlexState
  event : Option Event
  used : List Int

/-- What is left of the scanner without its stack. -/
def FlexState.reading (s : FlexState) : Scanner := ⟨s.mode, s.lineno, s.text, []⟩

/-- The `<<EOF>>` rule. -/
def FlexState.eofRule (s : FlexState) : FlexResult :=
  let top := s.top - 1
  if top < 0 then ⟨{ s with top := 0 }, some .eof, []⟩
  else
    let entry := s.stack top
    ⟨{ s with
        text := entry.buffer
        lineno := entry.lineno
        stack := Function.update s.stack top { entry with uri := none, filename := none }
        top := top }, none, [top, top, top, top, top]⟩

section Step

variable (active : Bool) (load : CStr → Option (List Char))

/-- The code for the URI of an include. -/
def FlexState.include (s : FlexState) (uri : CStr) : FlexResult :=
  let localname := uriTempFilename s.top
  if maxInclDepth ≤ s.top then ⟨{ s with mode := .initial }, none, []⟩
  else if !active then ⟨{ s with mode := .initial }, none, []⟩
  else
    let saved := { s.stack s.top with buffer := s.text, lineno := s.lineno }
    match load uri with
    | some content =>
      ⟨{ mode := .initial
         lineno := 1
         text := content
         stack := Function.update s.stack s.top
           { saved with uri := some uri, filename := some localname }
         top := s.top + 1 }, none, [s.top, s.top, s.top, s.top]⟩
    | none =>
      ⟨{ s with mode := .initial, stack := Function.update s.stack s.top saved }, none,
        [s.top, s.top]⟩

/-- The code of a rule, for the text it has matched. -/
def FlexState.act (s : FlexState) (yytext : List Char) : Action → FlexResult
  | .incl => s.include active load (dropBlanks (cstr yytext))
  | action =>
    let (r, e) := s.reading.act active load yytext action
    ⟨{ s with mode := r.mode, lineno := r.lineno, text := r.text }, e, []⟩

/-- One match, or the end of a buffer. -/
def FlexState.step (s : FlexState) : FlexResult :=
  match s.text with
  | [] => s.eofRule
  | c :: rest =>
    match pick (rulesOf s.mode) (c :: rest) with
    | none => ⟨{ s with text := rest }, none, []⟩
    | some (n, r) =>
      { s with text := (c :: rest).drop (r.taken n) }.act active load
        ((c :: rest).take (r.taken n)) r.action

end Step

namespace FlexState

/-! ## The array as a list -/

/-- The entries below an index, the last one first. -/
def suspended (stack : Int → InclEntry) : Nat → List Saved
  | 0 => []
  | n + 1 => ⟨(stack n).buffer, (stack n).lineno⟩ :: suspended stack n

/-- The scanner with its list of suspended buffers. -/
def scanner (s : FlexState) : Scanner :=
  ⟨s.mode, s.lineno, s.text, suspended s.stack s.top.toNat⟩

/-- The stack pointer is in range. -/
def InRange (s : FlexState) : Prop := 0 ≤ s.top ∧ s.top ≤ maxInclDepth

theorem suspended_length (stack : Int → InclEntry) (n : Nat) : (suspended stack n).length = n := by
  induction n with
  | zero => rfl
  | succ n ih => rw [suspended, List.length_cons, ih]

theorem suspended_update {stack : Int → InclEntry} {n : Nat} {i : Int} (h : n ≤ i)
    (entry : InclEntry) : suspended (Function.update stack i entry) n = suspended stack n := by
  induction n with
  | zero => rfl
  | succ n ih => rw [suspended, suspended, Function.update_of_ne (by omega), ih (by omega)]

/-! ## One step -/

section Step

variable (active : Bool) (load : CStr → Option (List Char)) (s : FlexState)

/-- The next statement includes a file: the rest of its line is a URI that can be opened. -/
structure Opens (line rest content : List Char) : Prop where
  mode : s.mode = .includemode
  text : s.text = line ++ '\n' :: rest
  uri : '\n' ∉ line
  depth : s.top < maxInclDepth
  active : active = true
  load : load (dropBlanks (cstr line)) = some content

/-- What a step can be, and what the scanner with the list makes of it. -/
inductive Steps : FlexResult → Prop
  | finished (htext : s.text = []) (htop : s.top ≤ 0) :
    Steps ⟨{ s with top := 0 }, some .eof, []⟩
  | resumed (htext : s.text = []) (htop : 0 < s.top) (entry : InclEntry) :
    Steps ⟨{ s with
        text := (s.stack (s.top - 1)).buffer
        lineno := (s.stack (s.top - 1)).lineno
        stack := Function.update s.stack (s.top - 1) entry
        top := s.top - 1 }, none, List.replicate 5 (s.top - 1)⟩
  | read {mode : Mode} {lineno : Nat} {text : List Char} {event : Option Event}
    (htext : s.text ≠ [])
    (hscan : s.scanner.flexStep active load =
      ({ s.scanner with mode := mode, lineno := lineno, text := text }, event)) :
    Steps ⟨{ s with mode := mode, lineno := lineno, text := text }, event, []⟩
  | refused {text : List Char} (htext : s.text ≠ []) (hdepth : s.top < maxInclDepth)
    (entry : InclEntry)
    (hscan : s.scanner.flexStep active load =
      ({ s.scanner with mode := .initial, text := text }, none)) :
    Steps ⟨{ s with mode := .initial, text := text, stack := Function.update s.stack s.top entry },
      none, List.replicate 2 s.top⟩
  | opened {line rest content : List Char} (h : Opens active load s line rest content)
    {entry : InclEntry} (hbuffer : entry.buffer = '\n' :: rest) (hlineno : entry.lineno = s.lineno)
    (hscan : s.scanner.flexStep active load =
      (⟨.initial, 1, content, ⟨'\n' :: rest, s.lineno⟩ :: s.scanner.stack⟩, none)) :
    Steps ⟨⟨.initial, 1, content, Function.update s.stack s.top entry, s.top + 1⟩, none,
      List.replicate 4 s.top⟩

variable {active load s}

/-- The text of an include. -/
theorem take_of_incl {n : Nat} {r : Rule} (h : s.scanner.Matches n r) (hincl : r.action = .incl) :
    s.mode = .includemode ∧ '\n' ∉ s.text.take (r.taken n) ∧
      ∃ rest, s.text = s.text.take (r.taken n) ++ '\n' :: rest ∧
        s.text.drop (r.taken n) = '\n' :: rest := by
  have hrule := List.all_eq_true.mp incl_rule r h.rule
  rw [hincl] at hrule
  obtain rfl : r = ruleEol [.includemode] anyLine .incl := by simpa using hrule
  obtain ⟨line, hline, last, hlast, happend⟩ := Language.mem_mul.mp h.lang
  obtain rfl := mem_lang_chr.mp hlast
  have htext : s.text = line ++ '\n' :: s.text.drop n := by
    have happ := List.take_append_drop n s.text
    rwa [show s.text.take n = line ++ ['\n'] from happend.symm, List.append_assoc,
      List.singleton_append, eq_comm] at happ
  have htaken : (ruleEol [.includemode] anyLine .incl).taken n = line.length := by
    have hlen := congrArg List.length happend
    rw [List.length_append, List.length_take, Nat.min_eq_left h.length] at hlen
    show n - 1 = _
    rw [← hlen]
    rfl
  refine ⟨List.mem_singleton.mp h.mode, ?_⟩
  rw [htaken, htext, List.take_left, List.drop_left]
  refine ⟨fun hmem => ?_, _, rfl, rfl⟩
  exact absurd (Pattern.mem_star_cls.mp hline '\n' hmem) (by decide)

variable (active load s) in
/-- The code of the other rules does not use the stack. -/
theorem act_of_ne {yytext : List Char} {action : Action} (h : action ≠ .incl) :
    ∃ mode lineno text event,
      s.act active load yytext action =
        ⟨{ s with mode := mode, lineno := lineno, text := text }, event, []⟩ ∧
      s.scanner.act active load yytext action =
        ({ s.scanner with mode := mode, lineno := lineno, text := text }, event) := by
  cases action with
  | incl => exact absurd rfl h
  | _ => exact ⟨_, _, _, _, rfl, rfl⟩

/-- The code of an include. -/
theorem steps_include (h : s.InRange) {line rest : List Char} (hmode : s.mode = .includemode)
    (htext : s.text = line ++ '\n' :: rest) (hline : '\n' ∉ line)
    (hscan : s.scanner.flexStep active load =
      (({ s.scanner with mode := .initial, text := '\n' :: rest } : Scanner).include active load
        (dropBlanks (cstr line)), none)) :
    Steps active load s
      (({ s with text := '\n' :: rest } : FlexState).include active load
        (dropBlanks (cstr line))) := by
  have hne : s.text ≠ [] := by rw [htext]; simp
  have hlen : s.scanner.stack.length = s.top.toNat := suspended_length _ _
  have hdepth : maxInclDepth ≤ s.scanner.stack.length ↔ (maxInclDepth : Int) ≤ s.top := by
    rw [hlen]
    exact Int.le_toNat h.1
  unfold FlexState.include
  unfold Scanner.include at hscan
  dsimp only at hscan ⊢
  by_cases hdeep : (maxInclDepth : Int) ≤ s.top
  · rw [if_pos (hdepth.mpr hdeep)] at hscan
    rw [if_pos hdeep]
    exact .read hne hscan
  rw [if_neg (mt hdepth.mp hdeep)] at hscan
  rw [if_neg hdeep]
  cases hactive : active with
  | false =>
    subst hactive
    exact .read hne hscan
  | true =>
    subst hactive
    rw [if_neg (by simp)] at hscan ⊢
    cases hload : load (dropBlanks (cstr line)) with
    | none =>
      rw [hload] at hscan
      exact .refused hne (Int.not_le.mp hdeep) _ hscan
    | some content =>
      rw [hload] at hscan
      exact .opened ⟨hmode, htext, hline, Int.not_le.mp hdeep, rfl, hload⟩ rfl rfl hscan

/-- **A step is one of these.** -/
theorem steps_step (h : s.InRange) : Steps active load s (s.step active load) := by
  cases htext : s.text with
  | nil =>
    have hstep : s.step active load = s.eofRule := by
      unfold step
      rw [htext]
    rw [hstep]
    unfold eofRule
    dsimp only
    split
    · exact .finished htext (by omega)
    · exact .resumed htext (by omega) _
  | cons c rest =>
    have hne : s.text ≠ [] := by rw [htext]; exact List.cons_ne_nil _ _
    cases hpick : pick (rulesOf s.mode) (c :: rest) with
    | none =>
      have hstep : s.step active load = ⟨{ s with text := rest }, none, []⟩ := by
        unfold step
        rw [htext]
        dsimp only
        rw [hpick]
      rw [hstep]
      exact .read hne (Scanner.flexStep_of_none htext hpick)
    | some match_ =>
      obtain ⟨n, r⟩ := match_
      have hscan : s.scanner.flexStep active load =
          { s.scanner with text := s.text.drop (r.taken n) }.act active load
            (s.text.take (r.taken n)) r.action := Scanner.flexStep_of_pick htext hpick
      have hstep : s.step active load = { s with text := s.text.drop (r.taken n) }.act active load
          (s.text.take (r.taken n)) r.action := by
        unfold step
        rw [htext]
        dsimp only
        rw [hpick]
      rw [hstep]
      by_cases hincl : r.action = .incl
      · obtain ⟨p, hmem, hn, hlang⟩ := pick_sound hpick
        obtain ⟨hr, hm, rfl⟩ := mem_rulesOf.mp hmem
        rw [← htext] at hn hlang
        obtain ⟨hmode, hline, rest', htext', hdrop⟩ := take_of_incl ⟨hr, hm, hn, hlang⟩ hincl
        rw [hincl, hdrop] at hscan ⊢
        exact steps_include h hmode htext' hline hscan
      · obtain ⟨mode, lineno, text, event, hact, hact'⟩ := act_of_ne active load
          { s with text := s.text.drop (r.taken n) } hincl
        rw [hact]
        exact .read hne (hscan.trans hact')

/-- **The array is the list**: a step does what the scanner does with its list. -/
theorem step_scanner (h : s.InRange) :
    (s.step active load).state.scanner = (s.scanner.flexStep active load).1 ∧
      (s.step active load).event = (s.scanner.flexStep active load).2 := by
  have hsteps : Steps active load s (s.step active load) := steps_step h
  obtain ⟨n, hn⟩ := Int.eq_ofNat_of_zero_le h.1
  have hnat : s.top.toNat = n := by omega
  have hscanner : s.scanner = ⟨s.mode, s.lineno, s.text, suspended s.stack n⟩ := by
    rw [scanner, hnat]
  generalize s.step active load = r at hsteps ⊢
  cases hsteps with
  | finished htext htop =>
    obtain rfl : n = 0 := by omega
    rw [hscanner, htext]
    exact ⟨rfl, rfl⟩
  | resumed htext htop entry =>
    obtain ⟨m, rfl⟩ : ∃ m, n = m + 1 := ⟨n - 1, by omega⟩
    have hm : s.top - 1 = m := by omega
    rw [hscanner, htext, hm]
    refine ⟨?_, rfl⟩
    rw [scanner]
    dsimp only
    rw [Int.toNat_natCast, suspended_update (Int.le_refl _)]
    rfl
  | read htext hscan =>
    rw [hscan]
    exact ⟨rfl, rfl⟩
  | refused htext hdepth entry hscan =>
    rw [hscan]
    refine ⟨?_, rfl⟩
    rw [scanner, scanner]
    dsimp only
    rw [suspended_update (by omega)]
  | @opened line rest content hopens entry hbuffer hlineno hscan =>
    rw [hscan, hscanner]
    refine ⟨?_, rfl⟩
    have hsucc : (s.top + 1).toNat = n + 1 := by omega
    rw [scanner]
    dsimp only
    rw [hsucc, suspended, suspended_update (by omega), hn, Function.update_self, hbuffer, hlineno]

/-- The stack pointer stays in range, and so do the indices that are used. -/
theorem step_inRange (h : s.InRange) : (s.step active load).state.InRange ∧
    ∀ i ∈ (s.step active load).used, 0 ≤ i ∧ i < maxInclDepth := by
  have hsteps : Steps active load s (s.step active load) := steps_step h
  obtain ⟨hlow, hhigh⟩ := h
  generalize s.step active load = r at hsteps ⊢
  cases hsteps with
  | finished htext htop =>
    exact ⟨⟨Int.le_refl 0, Int.natCast_nonneg _⟩, fun i hi => absurd hi List.not_mem_nil⟩
  | resumed htext htop entry =>
    refine ⟨⟨Int.sub_nonneg_of_le htop, by show s.top - 1 ≤ _; omega⟩, fun i hi => ?_⟩
    obtain rfl := List.eq_of_mem_replicate hi
    omega
  | read htext hscan => exact ⟨⟨hlow, hhigh⟩, fun i hi => absurd hi List.not_mem_nil⟩
  | refused htext hdepth entry hscan =>
    refine ⟨⟨hlow, hhigh⟩, fun i hi => ?_⟩
    obtain rfl := List.eq_of_mem_replicate hi
    exact ⟨hlow, hdepth⟩
  | opened hopens hbuffer hlineno hscan =>
    have hdepth := hopens.depth
    refine ⟨⟨by show 0 ≤ s.top + 1; omega, hdepth⟩, fun i hi => ?_⟩
    obtain rfl := List.eq_of_mem_replicate hi
    exact ⟨hlow, hdepth⟩

end Step

/-! ## Runs -/

section Run

variable (env : Env) (active : Nat → Bool) (executed : Nat → List Command) (s : FlexState)

/-- The scanner after a number of steps. -/
def scan : Nat → FlexState
  | 0 => s
  | n + 1 => ((scan n).step (active n) (env.openInclUri (executed n))).state

/-- What a step of the run does. -/
def result (n : Nat) : FlexResult :=
  (scan env active executed s n).step (active n) (env.openInclUri (executed n))

/-- The scanner of a new process, with its main file. -/
def start (mode : Mode) (lineno : Nat) (text : List Char) (stack : Int → InclEntry) : FlexState :=
  ⟨mode, lineno, text, stack, 0⟩

/-- In step `i` the file of the entry `t` was opened: it is still read in step `j`, and the entry
holds what was behind the include. -/
structure OpenedAt (j : Nat) (t : Int) (i : Nat) (line rest content : List Char) : Prop where
  before : i < j
  opens : Opens (active i) (env.openInclUri (executed i)) (scan env active executed s i) line rest
    content
  top : (scan env active executed s i).top = t
  content : (scan env active executed s (i + 1)).text = content
  inside : ∀ k, i < k → k ≤ j → t < (scan env active executed s k).top
  buffer : ((scan env active executed s j).stack t).buffer = '\n' :: rest
  lineno : ((scan env active executed s j).stack t).lineno = (scan env active executed s i).lineno

variable {env active executed s}

theorem scan_inRange (h : s.InRange) (n : Nat) : (scan env active executed s n).InRange := by
  induction n with
  | zero => exact h
  | succ n ih => exact (step_inRange ih).1

theorem scan_scanner (h : s.InRange) (n : Nat) :
    (scan env active executed s (n + 1)).scanner =
        ((scan env active executed s n).scanner.flexStep (active n)
          (env.openInclUri (executed n))).1 ∧
      (result env active executed s n).event =
        ((scan env active executed s n).scanner.flexStep (active n)
          (env.openInclUri (executed n))).2 :=
  step_scanner (scan_inRange h n)

/-- **The scanner comes to the end of the input.** -/
theorem exists_eof (h : s.InRange) : ∃ n, (result env active executed s n).event = some .eof := by
  by_contra hnone
  obtain ⟨n, hn⟩ := WellFounded.not_rel_apply_succ (r := (· < ·)) fun n =>
    rank maxInclDepth (scan env active executed s n).scanner.weights
  obtain ⟨hnext, hevent⟩ := @scan_scanner env active executed s h n
  have hgoes := not_exists.mp hnone n
  rw [hevent] at hgoes
  have hdrops := flexStep_drops (openInclUri_nil env (executed n)) _ hgoes
  have hdepth : (scan env active executed s n).scanner.stack.length ≤ maxInclDepth := by
    have hrange : (scan env active executed s n).InRange := scan_inRange h n
    have hhigh := hrange.2
    rw [scanner, suspended_length]
    omega
  exact hn (hnext ▸ hdrops.rank_lt hdepth)

/-- **At the end of the input** nothing is left to read. -/
theorem read_of_eof (h : s.InRange) {n : Nat}
    (hevent : (result env active executed s n).event = some .eof) :
    (scan env active executed s n).text = [] ∧ (scan env active executed s n).top = 0 := by
  rw [(scan_scanner h n).2] at hevent
  obtain ⟨htext, hstack⟩ := Scanner.flexStep_eof _ _ hevent
  have hlen := congrArg List.length hstack
  rw [scanner, suspended_length, List.length_nil] at hlen
  have hlow := (@scan_inRange env active executed s h n).1
  exact ⟨htext, by omega⟩

theorem OpenedAt.next {j : Nat} {t : Int} {i : Nat} {line rest content : List Char}
    (h : OpenedAt env active executed s j t i line rest content)
    (htop : t < (scan env active executed s (j + 1)).top)
    (hstack : (scan env active executed s (j + 1)).stack t =
      (scan env active executed s j).stack t) :
    OpenedAt env active executed s (j + 1) t i line rest content where
  before := Nat.lt_succ_of_lt h.before
  opens := h.opens
  top := h.top
  content := h.content
  inside k hik hkj := by
    rcases Nat.lt_or_ge j k with hjk | hkj'
    · obtain rfl : k = j + 1 := by omega
      exact htop
    · exact h.inside k hik hkj'
  buffer := by rw [hstack, h.buffer]
  lineno := by rw [hstack, h.lineno]

/-- **Each entry in use was saved by an include** whose file is still read. -/
theorem opened (h : s.top = 0) (j : Nat) : ∀ t, 0 ≤ t → t < (scan env active executed s j).top →
    ∃ i line rest content, OpenedAt env active executed s j t i line rest content := by
  have hrange : s.InRange := ⟨h.ge, by rw [h]; exact Int.natCast_nonneg _⟩
  induction j with
  | zero =>
    intro t hlow hlt
    exact absurd (Int.lt_of_le_of_lt hlow (h ▸ hlt)) (Int.lt_irrefl 0)
  | succ j ih =>
    intro t hlow hlt
    have hsteps : Steps (active j) (env.openInclUri (executed j)) (scan env active executed s j)
      ((scan env active executed s j).step (active j) (env.openInclUri (executed j))) :=
      steps_step (scan_inRange hrange j)
    -- what the entry `t` is depends on whether it was in use before the step
    have hkeep : t < (scan env active executed s j).top →
        (scan env active executed s (j + 1)).stack t = (scan env active executed s j).stack t →
        ∃ i line rest content, OpenedAt env active executed s (j + 1) t i line rest content := by
      intro hlt' hstack
      obtain ⟨i, line, rest, content, hopened⟩ := ih t hlow hlt'
      exact ⟨i, line, rest, content, hopened.next hlt hstack⟩
    have hnext : scan env active executed s (j + 1) =
      ((scan env active executed s j).step (active j) (env.openInclUri (executed j))).state := rfl
    generalize (scan env active executed s j).step (active j) (env.openInclUri (executed j)) = r
      at hsteps hnext
    rw [hnext] at hlt hkeep
    cases hsteps with
    | finished htext htop => exact absurd (Int.lt_of_le_of_lt hlow hlt) (Int.lt_irrefl 0)
    | resumed htext htop entry =>
      have hlt : t < (scan env active executed s j).top - 1 := hlt
      exact hkeep (by omega) (Function.update_of_ne (by omega) _ _)
    | read htext hscan => exact hkeep hlt rfl
    | refused htext hdepth entry hscan =>
      exact hkeep hlt (Function.update_of_ne (Int.ne_of_lt hlt) _ _)
    | @opened line rest content hopens entry hbuffer hlineno hscan =>
      have hlt : t < (scan env active executed s j).top + 1 := hlt
      rcases Int.lt_or_eq_of_le (Int.le_of_lt_add_one hlt) with hbelow | htop
      · exact hkeep hbelow (Function.update_of_ne (Int.ne_of_lt hbelow) _ _)
      · -- this step opens the file
        have hentry : (scan env active executed s (j + 1)).stack t = entry := by
          rw [hnext, htop]
          exact Function.update_self _ _ _
        refine ⟨j, line, rest, content, Nat.lt_succ_self j, hopens, htop.symm, ?_, ?_, ?_, ?_⟩
        · rw [hnext]
        · intro k hjk hkj
          obtain rfl : k = j + 1 := by omega
          rw [hnext]
          exact hlt
        · rw [hentry, hbuffer]
        · rw [hentry, hlineno]

/-- **The include stack.** From an empty stack the scanner comes to the end of its input, where neither
the main file nor an included one has anything left; it uses only entries that there are; and at the
end of an included file it goes on with the buffer and the line of the include that opened the
file. -/
theorem scan_ends (env : Env) (active : Nat → Bool) (executed : Nat → List Command) (mode : Mode)
    (lineno : Nat) (text : List Char) (stack : Int → InclEntry) :
    let scan := scan env active executed (start mode lineno text stack)
    let result := result env active executed (start mode lineno text stack)
    (∃ n, (result n).event = some .eof ∧ (scan n).text = [] ∧ (scan n).top = 0) ∧
      (∀ n, ∀ i ∈ (result n).used, 0 ≤ i ∧ i < maxInclDepth) ∧
      ∀ j, (scan j).text = [] → 0 < (scan j).top → ∃ i line rest content, i < j ∧
        Opens (active i) (env.openInclUri (executed i)) (scan i) line rest content ∧
        (scan (i + 1)).text = content ∧ (∀ k, i < k → k ≤ j → (scan i).top < (scan k).top) ∧
        (scan (j + 1)).top = (scan i).top ∧ (scan (j + 1)).text = '\n' :: rest ∧
        (scan (j + 1)).lineno = (scan i).lineno := by
  intro scan result
  have hrange : (start mode lineno text stack).InRange := ⟨Int.le_refl 0, Int.natCast_nonneg _⟩
  obtain ⟨n, hn⟩ := exists_eof hrange
  refine ⟨⟨n, hn, read_of_eof hrange hn⟩, fun n => (step_inRange (scan_inRange hrange n)).2, ?_⟩
  intro j htext htop
  obtain ⟨i, line, rest, content, hopened⟩ : ∃ i line rest content, OpenedAt env active executed
      (start mode lineno text stack) j ((scan j).top - 1) i line rest content :=
    opened rfl j _ (Int.sub_nonneg_of_le htop) (Int.sub_lt_self _ Int.one_pos)
  have hinside := hopened.inside
  rw [← hopened.top] at hinside
  have hstep : scan (j + 1) = (scan j).eofRule.state := by
    show ((scan j).step _ _).state = _
    unfold step
    rw [htext]
  have heof : (scan j).eofRule.state.top = (scan j).top - 1 ∧
      (scan j).eofRule.state.text = ((scan j).stack ((scan j).top - 1)).buffer ∧
      (scan j).eofRule.state.lineno = ((scan j).stack ((scan j).top - 1)).lineno := by
    unfold eofRule
    dsimp only
    rw [if_neg (by omega)]
    exact ⟨rfl, rfl, rfl⟩
  rw [hstep]
  exact ⟨i, line, rest, content, hopened.before, hopened.opens, hopened.content, hinside,
    heof.1.trans hopened.top.symm, heof.2.1.trans hopened.buffer, heof.2.2.trans hopened.lineno⟩

end Run

end FlexState

end Sysload.Parser
