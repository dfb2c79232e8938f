import Sysload.Parser.Lines
import Sysload.Lib.Run

/-!
# Strings and lines (`sysload.conf.l`)

Which strings and parts of URIs go beyond the end of their line. In `URIRESTMODE` the classes `[^(]`
and `[^)]` have the line break, so a URI that ends behind its scheme takes the next line with it, and
so does an open bracket.

Source: `src/core/sysload.conf.l`, the rules for `URIMODE` and `URIRESTMODE`.

Results:
* `Spills`: the scanner is in `URIRESTMODE` in front of such a text.
* `flexStep_onLine_iff`: one match.
* **`run_onLine_iff`**: in a run of the scanner every string stays on its line if and only if the
  scanner never comes in front of such a text.
-/

namespace Sysload.Parser

open Lexer

/-- The tokens that carry the strings of a statement. -/
def stringKinds : List Kind := [.tString, .tUristart, .tUribracket]

/-- A string or a part of a URI has no line break. -/
def Event.OnLine : Event → Prop
  | .token t _ => t.kind ∈ stringKinds → '\n' ∉ t.val
  | .eof => True

/-- The rest of a URI begins with a line break that is not the last of the buffer, or with a bracket
that is closed behind a line break. -/
def Spills (s : Scanner) : Prop :=
  s.mode = .urirestmode ∧
    ((∃ rest, s.text = '\n' :: rest ∧ '\n' ∈ rest) ∨
      ∃ body rest, s.text = '(' :: body ++ ')' :: rest ∧ ')' ∉ body ∧ '\n' ∈ cstr body)

/-! ## One match -/

/-- The rules that return strings, and the others. -/
def Rule.stringsOnLine (r : Rule) : Bool :=
  match r.action with
  | .token k _ _ => !stringKinds.contains k || r.pattern.avoids '\n' || r.modes == [.urirestmode]
  | .string => r.modes == [.strmode]
  | _ => true

theorem rules_stringsOnLine : rules.all Rule.stringsOnLine = true := by decide +kernel

section Step

variable {active : Bool} {load : CStr → Option (List Char)} {s : Scanner}

/-- The text of a rule that has no line break in its pattern. -/
theorem matched_avoids {n : Nat} {r : Rule} (h : s.Matches n r)
    (hrule : r.pattern.avoids '\n' = true) : '\n' ∉ s.text.take (r.taken n) := by
  intro hmem
  have hle : r.taken n ≤ n := by
    unfold Rule.taken
    split <;> omega
  exact Pattern.notMem_of_avoids hrule h.lang ((List.take_sublist_take_left hle).mem hmem)

/-- The rest of a line. -/
theorem matched_strmode {n : Nat} {r : Rule} (hmode : s.mode = .strmode) (h : s.Matches n r) :
    '\n' ∉ s.text.take (r.taken n) := by
  obtain rfl := rule_strmode hmode h
  obtain ⟨line, rest, hline, _, htake⟩ := h.eol
  rw [htake]
  exact mem_anyLine.mp hline

/-- **Outside of `URIRESTMODE`** strings stay on their line. -/
theorem flexStep_onLine (hmode : s.mode ≠ .urirestmode) {e : Event}
    (h : (s.flexStep active load).2 = some e) : e.OnLine := by
  cases e with
  | eof => trivial
  | token t yytext =>
    intro hkind hmem
    obtain ⟨n, r, hmatch, _, hstep⟩ := Scanner.flexStep_token h
    have hrule := List.all_eq_true.mp rules_stringsOnLine r hmatch.rule
    rw [hstep] at h
    unfold Rule.stringsOnLine at hrule
    cases haction : r.action with
    | token k val next =>
      rw [haction] at h hrule
      obtain ⟨rfl, -⟩ := Event.token.inj (Option.some.inj h)
      have hstring : stringKinds.contains k = true := List.contains_iff_mem.mpr hkind
      have hother : r.modes ≠ [.urirestmode] := by
        intro hmodes
        have hin := hmatch.mode
        rw [hmodes] at hin
        exact hmode (List.mem_singleton.mp hin)
      have havoids : r.pattern.avoids '\n' = true := by
        simpa [hother, List.contains_iff_mem.mp hstring] using hrule
      cases val with
      | true => exact matched_avoids hmatch havoids (cstr_subset hmem)
      | false => exact List.not_mem_nil hmem
    | less k n next =>
      rw [haction] at h
      obtain ⟨rfl, -⟩ := Event.token.inj (Option.some.inj h)
      exact List.not_mem_nil hmem
    | char next =>
      rw [haction] at h
      obtain ⟨rfl, -⟩ := Event.token.inj (Option.some.inj h)
      exact List.not_mem_nil hmem
    | string =>
      rw [haction] at h hrule
      obtain ⟨rfl, -⟩ := Event.token.inj (Option.some.inj h)
      have hstrmode : s.mode = .strmode := by
        have hin := hmatch.mode
        rw [beq_iff_eq.mp hrule] at hin
        exact List.mem_singleton.mp hin
      exact matched_strmode hstrmode hmatch (cstr_subset (dropBlanks_subset hmem))
    | skip next =>
      rw [haction] at h
      cases h
    | newline =>
      rw [haction] at h
      cases h
    | incl =>
      rw [haction] at h
      cases h

/-- The string in the brackets of a URI. -/
theorem newline_bracket {body : List Char} :
    '\n' ∈ cstr ('(' :: body ++ [')']) ↔ '\n' ∈ cstr body := by
  have hcons : cstr ('(' :: body ++ [')']) = '(' :: cstr (body ++ [')']) := rfl
  have hnul : (body.takeWhile fun c => c != nul) = cstr body := rfl
  rw [hcons, List.mem_cons, or_iff_right (by decide), cstr, List.takeWhile_append, hnul]
  split
  · rename_i hlen
    have hbody : cstr body = body := (List.takeWhile_prefix _).eq_of_length hlen
    rw [List.mem_append, hbody, or_iff_left]
    exact fun h => absurd (List.mem_singleton.mp ((List.takeWhile_prefix _).mem h)) (by decide)
  · exact Iff.rfl

/-- **Where a string goes on behind its line.** -/
theorem spills_of_flexStep {e : Event} (h : (s.flexStep active load).2 = some e)
    (hnot : ¬ e.OnLine) : Spills s := by
  have hmode : s.mode = .urirestmode := by
    by_contra hother
    exact hnot (flexStep_onLine hother h)
  cases e with
  | eof => exact absurd trivial hnot
  | token t yytext =>
    obtain ⟨n, r, hmatch, _, hstep⟩ := Scanner.flexStep_token h
    have hval : '\n' ∈ t.val := by
      by_contra hval
      exact hnot fun _ => hval
    rw [hstep] at h
    have hmem := hmatch.mem_rulesOf
    simp only [hmode, rulesOf_urirestmode, List.mem_cons, List.not_mem_nil, or_false,
      Prod.mk.injEq] at hmem
    refine ⟨hmode, ?_⟩
    rcases hmem with ⟨_, rfl⟩ | ⟨_, rfl⟩
    · obtain ⟨body, hbody, _, hclosed⟩ := mem_uriBracket.mp hmatch.lang
      have htext : s.text = '(' :: body ++ ')' :: s.text.drop n := by
        have hsplit := List.take_append_drop n s.text
        rw [hbody, List.append_assoc] at hsplit
        exact hsplit.symm
      obtain ⟨rfl, -⟩ := Event.token.inj (Option.some.inj h)
      have hbracket : '\n' ∈ cstr (s.text.take n) := hval
      rw [hbody] at hbracket
      exact Or.inr ⟨body, _, htext, hclosed, newline_bracket.mp hbracket⟩
    · obtain ⟨line, rest, hline, htext, htake⟩ := hmatch.eol
      obtain ⟨c, line, rfl, hc, hline⟩ := mem_uriLine.mp hline
      obtain ⟨rfl, -⟩ := Event.token.inj (Option.some.inj h)
      rw [htake] at hval
      obtain rfl : '\n' = c := (List.mem_cons.mp (cstr_subset hval)).resolve_right hline
      exact Or.inl ⟨line ++ '\n' :: rest, htext, List.mem_append_right _ List.mem_cons_self⟩

theorem flexStep_of_spills (active : Bool) (load : CStr → Option (List Char)) (h : Spills s) :
    ∃ e, (s.flexStep active load).2 = some e ∧ ¬ e.OnLine := by
  obtain ⟨hmode, ⟨rest, htext, hmem⟩ | ⟨body, rest, htext, hclosed, hmem⟩⟩ := h
  · obtain ⟨line, rest, rfl, hline⟩ := List.eq_append_cons_of_mem hmem
    have hpick := pick_uriLine (c := '\n') (by decide) hline rest
    have hstep := @Scanner.flexStep_at active load s (by simp [htext]) _ _
      (by rw [hmode, htext]; exact hpick)
    refine ⟨_, congrArg Prod.snd hstep, fun honline => honline (by simp [stringKinds]) ?_⟩
    have htake : s.text.take (line.length + 1) = '\n' :: line := by
      rw [htext, List.take_succ_cons, List.take_left]
    show '\n' ∈ cstr (s.text.take (line.length + 1))
    rw [htake]
    exact List.mem_cons_self
  · have hne : body ≠ [] := List.ne_nil_of_mem (cstr_subset hmem)
    have hpick := pick_uriBracket hne hclosed rest
    have hstep := @Scanner.flexStep_at active load s (by simp [htext]) _ _
      (by rw [hmode, htext]; exact hpick)
    refine ⟨_, congrArg Prod.snd hstep, fun honline => honline (by simp [stringKinds]) ?_⟩
    have htake : s.text.take (body.length + 2) = '(' :: body ++ [')'] := by
      simp [htext, List.take_append]
    show '\n' ∈ cstr (s.text.take (body.length + 2))
    rw [htake]
    exact newline_bracket.mpr hmem

/-- **One match**: what is delivered stays on its line, unless the scanner is in front of a text
that spills. -/
theorem flexStep_onLine_iff (active : Bool) (load : CStr → Option (List Char)) (s : Scanner) :
    (∀ e, (s.flexStep active load).2 = some e → e.OnLine) ↔ ¬ Spills s := by
  constructor
  · intro h hspills
    obtain ⟨e, he, hnot⟩ := flexStep_of_spills active load hspills
    exact hnot (h e he)
  · intro h e he
    by_contra hnot
    exact h (spills_of_flexStep he hnot)

end Step

/-! ## Runs -/

/-- What the scanner asks for before a match: whether the section is active, and the files that can
be included. -/
structure Answer where
  active : Bool
  load : CStr → Option (List Char)

/-- One match of the scanner, as a step of a machine. -/
def scanStep (s : Scanner) (a : Answer) : Option Scanner := some (s.flexStep a.active a.load).1

/-- What the scanner delivers. -/
def events : Scanner → List Answer → List Event
  | _, [] => []
  | s, a :: as => (s.flexStep a.active a.load).2.toList ++ events (s.flexStep a.active a.load).1 as

/-- **Strings stay on their line** in a run of the scanner, from any text and in any start condition,
if and only if it never comes in front of a text that spills. -/
theorem run_onLine_iff (s : Scanner) (answers : List Answer) :
    (∀ e ∈ events s answers, e.OnLine) ↔ Along scanStep (fun s _ => ¬ Spills s) s answers := by
  induction answers generalizing s with
  | nil => exact iff_of_true (fun e he => absurd he List.not_mem_nil) trivial
  | cons a answers ih =>
    have hhead : (∀ e ∈ (s.flexStep a.active a.load).2.toList, e.OnLine) ↔ ¬ Spills s := by
      simp only [Option.mem_toList]
      exact flexStep_onLine_iff a.active a.load s
    have htail : (∀ s', scanStep s a = some s' → Along scanStep (fun s _ => ¬ Spills s) s' answers) ↔
        Along scanStep (fun s _ => ¬ Spills s) (s.flexStep a.active a.load).1 answers :=
      ⟨fun h => h _ rfl, fun h s' hs' => Option.some.inj hs' ▸ h⟩
    rw [events, List.forall_mem_append, hhead, ih]
    exact and_congr_right fun _ => htail.symm

/-- What the scanner reads from a root statement whose URI is empty. -/
theorem events_emptyRoot :
    events (Scanner.fresh.restart "root http://\nkernel x\n".toList)
      (List.replicate 4 ⟨true, fun _ => none⟩) =
      [.token ⟨.tRoot, []⟩ "root".toList, .token ⟨.tUristart, "http://".toList⟩ "http://".toList,
        .token ⟨.tString, "\nkernel x".toList⟩ "\nkernel x".toList] := by
  decide +kernel

/-- **An empty URI takes the next statement with it.** -/
theorem root_takes_kernel :
    ¬ ∀ e ∈ events (Scanner.fresh.restart "root http://\nkernel x\n".toList)
      (List.replicate 4 ⟨true, fun _ => none⟩), e.OnLine := by
  rw [events_emptyRoot]
  intro h
  have hstring := h (.token ⟨.tString, "\nkernel x".toList⟩ "\nkernel x".toList)
    (List.mem_cons_of_mem _ (List.mem_cons_of_mem _ List.mem_cons_self))
  exact hstring (by simp [stringKinds]) List.mem_cons_self

end Sysload.Parser
