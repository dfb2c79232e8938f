import Sysload.Parser.Sections

/-!
# System sections as a stack (`parser_sysload.c`)

`parser_enter_system` and `parser_exit_system` keep two integers for the stack of the sections that
are open. The stack is a list here, the innermost section first, of whether a section was entered as
`PA_ACTIVE`. `Represents` is what the two integers say about it: `system_depth` is its length and
`system_first_inactive` the depth of the outermost inactive section, or `MAX_SYSTEM_DEPTH`.

Source: `src/core/parser_sysload.c`, `parser_active_system`, `parser_enter_system` and
`parser_exit_system`. Out of scope are calls at the limit of the nesting and beyond.

Results:
* `represents_calls`: every call keeps the representation.
* `sections_nest`: the parser is active when all open sections are, and what is balanced leaves the
  two integers as they were.
-/

namespace Sysload.Parser

open ParserContext

/-- A call of `parser_enter_system` or `parser_exit_system`. -/
inductive SectionCall where
  | enter (active : Bool)
  | exit
  deriving DecidableEq, Repr

/-- What a call does. -/
def ParserContext.call (c : ParserContext) : SectionCall → ParserContext
  | .enter active => c.enterSystem active
  | .exit => c.exitSystem

/-- A sequence of calls. -/
def ParserContext.calls (c : ParserContext) (cs : List SectionCall) : ParserContext :=
  cs.foldl ParserContext.call c

/-- A properly nested sequence of calls, with the sections that are open before and after it; never
as many as `MAX_SYSTEM_DEPTH` of them are open. -/
inductive Opens : List Bool → List SectionCall → List Bool → Prop
  | nil {sections : List Bool} : Opens sections [] sections
  | enter {sections sections' : List Bool} {active : Bool} {cs : List SectionCall}
    (hdepth : sections.length + 1 < maxSystemDepth) (h : Opens (active :: sections) cs sections') :
    Opens sections (.enter active :: cs) sections'
  | exit {sections sections' : List Bool} {active : Bool} {cs : List SectionCall}
    (h : Opens sections cs sections') : Opens (active :: sections) (.exit :: cs) sections'

/-- Every section that is entered is left. -/
inductive Balanced : List SectionCall → Prop
  | nil : Balanced []
  | around (active : Bool) {body rest : List SectionCall} (hbody : Balanced body)
    (hrest : Balanced rest) : Balanced (.enter active :: body ++ .exit :: rest)

/-! ## The representation -/

/-- The depth of the outermost inactive section. -/
def firstInactive : List Bool → Nat
  | [] => maxSystemDepth
  | active :: sections =>
    if false ∈ sections then firstInactive sections
    else if active then maxSystemDepth
    else sections.length + 1

/-- The two integers of the context stand for the open sections. -/
structure Represents (c : ParserContext) (sections : List Bool) : Prop where
  depth : c.systemDepth = sections.length
  first : c.systemFirstInactive = firstInactive sections

theorem represents_init (args : Option CStr) : Represents (.init args) [] := ⟨rfl, rfl⟩

theorem firstInactive_of_active {sections : List Bool} (h : false ∉ sections) :
    firstInactive sections = maxSystemDepth := by
  cases sections with
  | nil => rfl
  | cons active sections =>
    rw [List.mem_cons, not_or] at h
    unfold firstInactive
    rw [if_neg h.2, if_pos (by simpa using h.1)]

/-- The outermost inactive section is open. -/
theorem firstInactive_le {sections : List Bool} (h : false ∈ sections) :
    firstInactive sections ≤ sections.length := by
  induction sections with
  | nil => exact absurd h List.not_mem_nil
  | cons active sections ih =>
    unfold firstInactive
    by_cases hmem : false ∈ sections
    · rw [if_pos hmem]
      exact Nat.le_succ_of_le (ih hmem)
    · have hactive : active = false := by simpa [hmem, eq_comm] using h
      rw [if_neg hmem, if_neg (by simp [hactive])]
      exact Nat.le_refl _

theorem Represents.active_iff_notMem {c : ParserContext} {sections : List Bool}
    (h : Represents c sections) (hdepth : sections.length < maxSystemDepth) :
    c.active = true ↔ false ∉ sections := by
  unfold ParserContext.active
  rw [h.depth, h.first]
  by_cases hmem : false ∈ sections
  · simp [hmem, firstInactive_le hmem]
  · simp [hmem, firstInactive_of_active hmem, Nat.not_le.mpr hdepth]

/-- **The test of the parser**: it is active when all open sections are. -/
theorem Represents.active_iff {c : ParserContext} {sections : List Bool} (h : Represents c sections)
    (hdepth : sections.length < maxSystemDepth) :
    c.active = true ↔ ∀ active ∈ sections, active = true := by
  rw [h.active_iff_notMem hdepth]
  constructor
  · intro hmem active hactive
    cases active with
    | true => rfl
    | false => exact absurd hactive hmem
  · exact fun hall hmem => absurd (hall false hmem) (by simp)

theorem Represents.enterSystem {c : ParserContext} {sections : List Bool} (h : Represents c sections)
    (hdepth : sections.length + 1 < maxSystemDepth) (active : Bool) :
    Represents (c.enterSystem active) (active :: sections) := by
  have hinner : ParserContext.active { c with systemDepth := c.systemDepth + 1 } = true ↔
      false ∉ sections := by
    unfold ParserContext.active
    rw [h.depth, h.first]
    by_cases hmem : false ∈ sections
    · simp [hmem, Nat.le_succ_of_le (firstInactive_le hmem)]
    · simp [hmem, firstInactive_of_active hmem, Nat.not_le.mpr hdepth]
  have hlength := congrArg (· + 1) h.depth
  unfold ParserContext.enterSystem
  dsimp only
  by_cases hmem : false ∈ sections
  · -- a section in an inactive one does not count
    rw [if_neg fun hand => hinner.mp hand.1 hmem]
    exact ⟨hlength, by rw [firstInactive, if_pos hmem]; exact h.first⟩
  · cases active with
    | true =>
      rw [if_neg (by simp)]
      refine ⟨hlength, ?_⟩
      rw [firstInactive, if_neg hmem, if_pos rfl, ← firstInactive_of_active hmem]
      exact h.first
    | false =>
      rw [if_pos ⟨hinner.mpr hmem, by simp⟩]
      refine ⟨hlength, ?_⟩
      rw [firstInactive, if_neg hmem, if_neg (by simp)]
      exact hlength

theorem Represents.exitSystem {c : ParserContext} {sections : List Bool} {active : Bool}
    (h : Represents c (active :: sections)) (hdepth : sections.length + 1 < maxSystemDepth) :
    Represents c.exitSystem sections := by
  have hlength : c.systemDepth - 1 = sections.length := by
    rw [h.depth, List.length_cons, Nat.add_sub_cancel]
  have hfirst := h.first
  unfold firstInactive at hfirst
  unfold ParserContext.exitSystem
  dsimp only
  by_cases hmem : false ∈ sections
  · rw [if_pos hmem] at hfirst
    have hle := firstInactive_le hmem
    rw [if_neg (by rw [hfirst, h.depth, List.length_cons]; omega)]
    exact ⟨hlength, hfirst⟩
  · rw [if_neg hmem] at hfirst
    have hmax := firstInactive_of_active hmem
    cases active with
    | true =>
      rw [if_pos rfl] at hfirst
      rw [if_neg (by rw [hfirst, h.depth, List.length_cons]; omega)]
      exact ⟨hlength, hfirst.trans hmax.symm⟩
    | false =>
      rw [if_neg (by simp)] at hfirst
      rw [if_pos (by rw [hfirst, h.depth, List.length_cons])]
      exact ⟨hlength, hmax.symm⟩

/-! ## Sequences of calls -/

section Calls

variable {c : ParserContext} {sections sections' : List Bool} {cs ds : List SectionCall}

/-- The number of open sections stays below the sentinel. -/
theorem Opens.depth (h : Opens sections cs sections') (hdepth : sections.length < maxSystemDepth) :
    sections'.length < maxSystemDepth := by
  induction h with
  | nil => exact hdepth
  | enter hlt _ ih => exact ih hlt
  | exit _ ih => exact ih (Nat.lt_of_succ_lt hdepth)

/-- **Every call keeps the representation.** -/
theorem represents_calls (h : Opens sections cs sections') (hc : Represents c sections)
    (hdepth : sections.length < maxSystemDepth) : Represents (c.calls cs) sections' := by
  induction h generalizing c with
  | nil => exact hc
  | enter hlt _ ih => exact ih (hc.enterSystem hlt _) hlt
  | exit _ ih => exact ih (hc.exitSystem hdepth) (Nat.lt_of_succ_lt hdepth)

theorem Opens.split (h : Opens sections (cs ++ ds) sections') :
    ∃ mid, Opens sections cs mid ∧ Opens mid ds sections' := by
  induction cs generalizing sections with
  | nil => exact ⟨sections, .nil, h⟩
  | cons call cs ih =>
    cases h with
    | enter hlt h =>
      obtain ⟨mid, hcs, hds⟩ := ih h
      exact ⟨mid, .enter hlt hcs, hds⟩
    | exit h =>
      obtain ⟨mid, hcs, hds⟩ := ih h
      exact ⟨mid, .exit hcs, hds⟩

/-- A balanced sequence leaves the sections open that were. -/
theorem Balanced.opens (h : Balanced cs) (ho : Opens sections cs sections') :
    sections' = sections := by
  induction h generalizing sections sections' with
  | nil =>
    cases ho
    rfl
  | around active _ _ ihbody ihrest =>
    cases ho with
    | enter _ ho =>
      obtain ⟨mid, hbody, hexit⟩ := ho.split
      obtain rfl := ihbody hbody
      cases hexit with
      | exit hrest => exact ihrest hrest

end Calls

/-- **System sections nest**: the parser is active when all open sections were entered as active, and a
balanced sequence of calls leaves the two integers as they were. -/
theorem sections_nest (args : Option CStr) {cs : List SectionCall} {sections : List Bool}
    (h : Opens [] cs sections) :
    (((ParserContext.init args).calls cs).active = true ↔ ∀ active ∈ sections, active = true) ∧
      ∀ ds sections', Balanced ds → Opens sections ds sections' →
        (((ParserContext.init args).calls cs).calls ds).systemDepth =
            ((ParserContext.init args).calls cs).systemDepth ∧
          (((ParserContext.init args).calls cs).calls ds).systemFirstInactive =
            ((ParserContext.init args).calls cs).systemFirstInactive := by
  have hbottom : ([] : List Bool).length < maxSystemDepth := by decide
  have hc := represents_calls h (represents_init args) hbottom
  refine ⟨hc.active_iff (h.depth hbottom), fun ds sections' hbalanced hds => ?_⟩
  have hc' := represents_calls hds hc (h.depth hbottom)
  rw [hbalanced.opens hds] at hc'
  exact ⟨hc'.depth.trans hc.depth.symm, hc'.first.trans hc.first.symm⟩

/-- A section within an inactive one. -/
theorem sections_nest_inactive :
    (((ParserContext.init none).calls [.enter false]).active = true ↔
        ∀ active ∈ [false], active = true) ∧
      ∀ ds sections', Balanced ds → Opens [false] ds sections' →
        (((ParserContext.init none).calls [.enter false]).calls ds).systemDepth =
            ((ParserContext.init none).calls [.enter false]).systemDepth ∧
          (((ParserContext.init none).calls [.enter false]).calls ds).systemFirstInactive =
            ((ParserContext.init none).calls [.enter false]).systemFirstInactive :=
  sections_nest none (.enter (by decide) .nil)

end Sysload.Parser
