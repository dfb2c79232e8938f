import Sysload.Parser.Lines
import Sysload.Loader.Uri

/-!
# The scheme of a URI, for the scanner and for the loader (`sysload.conf.l`, `comp_load.c`)

The scanner takes the value of a statement for a URI if an `ID` and `://` stand at its beginning; the
loader tests it with `verify_uri_scheme`. An `ID` may have underscores and no plus signs, a scheme of
the loader may have plus signs and no underscores, and the loader does not ask for the slashes.

Source: `src/core/sysload.conf.l`, the rules for `URIMODE`; `src/core/comp_load.c`,
`verify_uri_scheme`.

Results:
* `hasScheme_iff`, `absolute_iff`: the two tests, by what stands before the first colon.
* `recognises_iff`: what the scanner does with a statement, whatever rules compete for it.
* **`uri_agree_iff`**: when scanner and loader agree.
-/

namespace Sysload.Parser

open Lexer

/-! ## Characters -/

/-- A range of one character. -/
theorem range_one {c d : Char} : (decide (d ≤ c) && decide (c ≤ d)) = (c == d) := by
  rw [Bool.eq_iff_iff, Bool.and_eq_true, decide_eq_true_eq, decide_eq_true_eq, beq_iff_eq]
  exact ⟨fun h => Char.le_antisymm h.2 h.1, fun h => h ▸ ⟨Char.le_refl _, Char.le_refl _⟩⟩

/-- **An `ID` begins with a letter or an underscore.** -/
theorem idStart_mem (c : Char) : idStart.mem c = (Uri.isLetter c || c == '_') := by
  have hlower : (decide ('a' ≤ c) && decide (c ≤ 'z')) = c.isLower := rfl
  have hupper : (decide ('A' ≤ c) && decide (c ≤ 'Z')) = c.isUpper :=
    (Bool.decide_and _ _).symm
  simp only [CharClass.mem, idStart, List.any_cons, List.any_nil, range_one, hlower, hupper,
    Uri.isLetter]
  cases c.isLower <;> cases c.isUpper <;> cases c == '_' <;> rfl

/-- **Its other characters** are those of a scheme but the plus sign, and the underscore. -/
theorem idRest_mem (c : Char) : idRest.mem c = (isSchemeChar c && c != '+' || c == '_') := by
  have hlower : (decide ('a' ≤ c) && decide (c ≤ 'z')) = c.isLower := rfl
  have hupper : (decide ('A' ≤ c) && decide (c ≤ 'Z')) = c.isUpper :=
    (Bool.decide_and _ _).symm
  have hdigit : (decide ('0' ≤ c) && decide (c ≤ '9')) = c.isDigit := rfl
  simp only [CharClass.mem, idRest, List.any_cons, List.any_nil, range_one, hlower, hupper, hdigit,
    isSchemeChar, bne]
  by_cases hplus : c = '+'
  · rw [hplus]
    rfl
  · have hne : (c == '+') = false := beq_eq_false_iff_ne.mpr hplus
    rw [hne]
    cases c.isLower <;> cases c.isUpper <;> cases c.isDigit <;> cases c == '_' <;>
      cases c == '.' <;> cases c == '-' <;> rfl

/-! ## Schemes -/

/-- An `ID`. -/
def Ident (p : CStr) : Prop :=
  ∃ c cs, p = c :: cs ∧ idStart.mem c = true ∧ ∀ d ∈ cs, idRest.mem d = true

theorem mem_ident {p : CStr} : p ∈ ident.lang ↔ Ident p := by
  constructor
  · rintro ⟨_, ⟨c, hc, rfl⟩, cs, hcs, rfl⟩
    exact ⟨c, cs, rfl, hc, Pattern.mem_star_cls.mp hcs⟩
  · rintro ⟨c, cs, rfl, hc, hcs⟩
    exact ⟨[c], ⟨c, hc, rfl⟩, cs, Pattern.mem_star_cls.mpr hcs, rfl⟩

theorem Ident.colon {p : CStr} (h : Ident p) : ':' ∉ p :=
  Pattern.notMem_of_avoids (p := ident) rfl (mem_ident.mpr h)

theorem Ident.plus {p : CStr} (h : Ident p) : '+' ∉ p :=
  Pattern.notMem_of_avoids (p := ident) rfl (mem_ident.mpr h)

/-- An `ID` without underscores is a scheme. -/
theorem Ident.scheme {p : CStr} (h : Ident p) (hnot : '_' ∉ p) : Uri.Scheme p := by
  obtain ⟨c, cs, rfl, hc, hcs⟩ := h
  obtain ⟨hc', hcs'⟩ := not_or.mp (mt List.mem_cons.mpr hnot)
  refine ⟨c, cs, rfl, ?_, fun d hd => ?_⟩
  · rw [idStart_mem, Bool.or_eq_true, beq_iff_eq] at hc
    exact hc.resolve_right (Ne.symm hc')
  · have hd' := hcs d hd
    rw [idRest_mem, Bool.or_eq_true, Bool.and_eq_true, beq_iff_eq] at hd'
    exact (hd'.resolve_right fun heq => hcs' (heq ▸ hd)).1

/-- A scheme without plus signs is an `ID`. -/
theorem ident_of_scheme {p : CStr} (h : Uri.Scheme p) (hnot : '+' ∉ p) : Ident p := by
  obtain ⟨c, cs, rfl, hc, hcs⟩ := h
  refine ⟨c, cs, rfl, ?_, fun d hd => ?_⟩
  · rw [idStart_mem, hc, Bool.true_or]
  · have hne : d ≠ '+' := fun heq => hnot (List.mem_cons_of_mem _ (heq ▸ hd))
    rw [idRest_mem, hcs d hd, bne_iff_ne.mpr hne]
    rfl

/-- **The scanner's test**, by what stands before the first colon and behind it. -/
theorem hasScheme_iff {p q : CStr} (hp : ':' ∉ p) :
    HasScheme (p ++ ':' :: q) ↔ Ident p ∧ ['/', '/'] <+: q := by
  constructor
  · rintro ⟨start, hstart, rest, heq⟩
    obtain ⟨id, hid, rfl⟩ := mem_uriStart.mp hstart
    have hid := mem_ident.mp hid
    have heq : id ++ ':' :: ('/' :: '/' :: rest) = p ++ ':' :: q := by simpa using heq
    obtain ⟨rfl, rfl⟩ := Uri.append_colon_inj hid.colon hp heq
    exact ⟨hid, rest, rfl⟩
  · rintro ⟨hid, rest, rfl⟩
    exact ⟨_, mem_uriStart.mpr ⟨p, mem_ident.mpr hid, rfl⟩, rest, by simp⟩

/-- **The loader's test**, by what stands before the first colon. -/
theorem absolute_iff {p q : CStr} (hp : ':' ∉ p) : Uri.Absolute (p ++ ':' :: q) ↔ Uri.Scheme p := by
  constructor
  · rintro ⟨s, rest, heq, hs⟩
    obtain ⟨rfl, _⟩ := Uri.append_colon_inj hp (hs.notMem (by decide)) heq
    exact hs
  · exact fun h => ⟨p, q, rfl, h⟩

/-! ## Blanks -/

/-- A blank is one of two characters. -/
theorem forall_blank {P : Char → Prop} (hspace : P ' ') (htab : P '\t') :
    ∀ c, whitespace.mem c = true → P c := by
  intro c hc
  rcases whitespace_mem.mp hc with rfl | rfl
  · exact hspace
  · exact htab

/-- Some blanks. -/
def IsBlanks (w : List Char) : Prop := w ≠ [] ∧ ∀ c ∈ w, whitespace.mem c = true

theorem scanState_append {α : Type} (rs : List (Pattern × α)) (n : Nat) (best : Option (Nat × α))
    (u v : List Char) :
    scanState rs n best (u ++ v) =
      scanState (scanState rs n best u).1 (n + u.length) (scanState rs n best u).2 v := by
  induction u generalizing rs n best with
  | nil => rfl
  | cons c u ih =>
    rw [List.cons_append, scanState, scanState, ih, List.length_cons, Nat.add_assoc n 1,
      Nat.add_comm 1]

/-- Rules that stay as they are over blanks. -/
theorem scanState_blanks {α : Type} {rs : List (Pattern × α)}
    (hlive : ∀ c, whitespace.mem c = true → live c rs = rs) {w : List Char}
    (hw : ∀ c ∈ w, whitespace.mem c = true) (n : Nat) {best : Option (Nat × α)}
    (hbest : ∀ m a, best = some (m, a) → m < n) :
    ∃ best', scanState rs n best w = (rs, best') ∧
      (∀ m a, best' = some (m, a) → m < n + w.length) ∧
      ((∀ r ∈ rs, r.1.nullable = false) → best' = best) := by
  induction w generalizing n best with
  | nil => exact ⟨best, rfl, hbest, fun _ => rfl⟩
  | cons c w ih =>
    obtain ⟨hc, hw⟩ := List.forall_mem_cons.mp hw
    have hupdate : ∀ m a, update rs n best = some (m, a) → m < n + 1 := by
      intro m a h
      rcases update_cases rs n best with heq | ⟨p, b, _, _, heq⟩
      · exact Nat.lt_succ_of_lt (hbest m a (heq ▸ h))
      · rw [heq] at h
        cases h
        exact Nat.lt_succ_self _
    obtain ⟨best', hstate, hlt, hsame⟩ := ih hw (n + 1) hupdate
    refine ⟨best', ?_, ?_, fun hnull => (hsame hnull).trans ?_⟩
    · rw [scanState, hlive c hc, hstate]
    · rwa [List.length_cons, Nat.add_comm w.length, ← Nat.add_assoc]
    · have hfind : rs.find? (fun r => r.1.nullable) = none :=
        List.find?_eq_none.mpr fun r hr => by simp [hnull r hr]
      rw [update, hfind]

/-- Blanks are read up to their end. -/
theorem scan_blanks {α : Type} {a : α} {w v : List Char} (hw : ∀ c ∈ w, whitespace.mem c = true)
    (hv : dropBlanks v = v) (n : Nat) (best : Option (Nat × α)) :
    scan [(moreBlanks, a)] n best (w ++ v) = some (n + w.length, a) := by
  induction w generalizing n best with
  | nil =>
    cases v with
    | nil => rfl
    | cons c v =>
      have hlive : live c [(moreBlanks, a)] = [] := by
        simp [live, moreBlanks, Pattern.deriv, Pattern.mkSeq, head_notBlank hv]
      exact scan_stop hlive _ _ _
  | cons c w ih =>
    obtain ⟨hc, hw⟩ := List.forall_mem_cons.mp hw
    have hlive : live c [(moreBlanks, a)] = [(moreBlanks, a)] := by
      simp [live, moreBlanks, Pattern.deriv, Pattern.mkSeq, hc]
    rw [List.cons_append, scan, hlive]
    show scan [(moreBlanks, a)] (n + 1) _ (w ++ v) = _
    rw [ih hw, List.length_cons]
    congr 2
    omega

/-! ## Statements -/

/-- Behind the keyword and a blank, the value may be any string, and a URI. -/
def ReadsFile (kw : CStr) (k : Kind) : Prop :=
  ∃ p q val, ∀ c, whitespace.mem c = true → scanState (rulesOf .initial) 0 none (kw ++ [c]) =
    ([(moreBlanks, rule [.initial] p (.token k val (some .strmode))),
      (.seq moreBlanks uriStart, rule [.initial] q (.less k kw.length .urimode))],
      some (kw.length, identRule))

/-- Behind the keyword and a blank, the value can only be a URI. -/
def ReadsUri (kw : CStr) (k : Kind) : Prop :=
  ∃ q, ∀ c, whitespace.mem c = true → scanState (rulesOf .initial) 0 none (kw ++ [c]) =
    ([(.seq moreBlanks uriStart, rule [.initial] q (.less k kw.length .urimode))],
      some (kw.length, identRule))

/-- The statements whose value may be a URI. -/
def uriStatements : List (CStr × Kind) :=
  [("root".toList, .tRoot), ("kernel".toList, .tKernel), ("initrd".toList, .tInitrd),
    ("parmfile".toList, .tParmfile), ("insfile".toList, .tInsfile), ("bootmap".toList, .tBootmap)]

/-- For each of them the scanner has a rule with `yyless`. -/
theorem uriStatements_read {kw : CStr} {k : Kind} (h : (kw, k) ∈ uriStatements) :
    ReadsFile kw k ∨ ReadsUri kw k := by
  simp only [uriStatements, List.mem_cons, List.not_mem_nil, or_false, Prod.mk.injEq] at h
  rcases h with ⟨rfl, rfl⟩ | ⟨rfl, rfl⟩ | ⟨rfl, rfl⟩ | ⟨rfl, rfl⟩ | ⟨rfl, rfl⟩ | ⟨rfl, rfl⟩
  · exact Or.inr ⟨_, forall_blank rfl rfl⟩
  · exact Or.inl ⟨_, _, _, forall_blank rfl rfl⟩
  · exact Or.inl ⟨_, _, _, forall_blank rfl rfl⟩
  · exact Or.inl ⟨_, _, _, forall_blank rfl rfl⟩
  · exact Or.inr ⟨_, forall_blank rfl rfl⟩
  · exact Or.inr ⟨_, forall_blank rfl rfl⟩

theorem uriStatements_ident {kw : CStr} : (kw, .tIdent) ∉ uriStatements := by simp [uriStatements]

/-- The scanner is in front of a statement: keyword, blanks, value and the end of the line, or of the
buffer. -/
structure Statement (s : Scanner) (kw blanks value tail : List Char) : Prop where
  start : s.mode = .initial
  text : s.text = kw ++ blanks ++ (value ++ tail)
  separated : IsBlanks blanks
  line : IsLine value
  nonempty : value ≠ []
  ended : tail = [] ∨ tail.head? = some '\n'

/-- The scanner takes the value for a URI: behind the keyword comes a `T_URISTART`. -/
def Recognises (s : Scanner) (k : Kind) : Prop :=
  ∃ start s', Delivers s [⟨k, []⟩, ⟨.tUristart, start⟩] s'

/-- The first token, and the rest. -/
theorem Delivers.uncons {s x s' : Scanner} {t u : Token} {yytext : CStr} {ts : List Token}
    (h : Delivers s (t :: ts) s')
    (hstep : ∀ active load, s.flexStep active load = (x, some (.token u yytext))) :
    t = u ∧ Delivers x ts s' := by
  cases h with
  | skip hskip _ => exact absurd ((hskip true fun _ => none).symm.trans (hstep _ _)) (by simp)
  | token htoken hrest =>
    have heq := (htoken true fun _ => none).symm.trans (hstep _ _)
    obtain ⟨hx, hevent⟩ := Prod.mk.inj heq
    obtain ⟨rfl, _⟩ := Event.token.inj (Option.some.inj hevent)
    exact ⟨rfl, hx ▸ hrest⟩

/-- Outside of an end of the line a step in `STRMODE` is an echo. -/
theorem flexStep_strmode_cases {s : Scanner} (hmode : s.mode = .strmode)
    (active : Bool) (load : CStr → Option (List Char)) :
    ((s.flexStep active load).1.mode = .strmode ∧
      ∀ t yytext, (s.flexStep active load).2 ≠ some (.token t yytext)) ∨
    ∃ str yytext, (s.flexStep active load).2 = some (.token ⟨.tString, str⟩ yytext) := by
  rcases s.flexStep_cases active load with ⟨_, _, h⟩ | ⟨_, _, _, _, h⟩ | ⟨_, _, _, h⟩ | ⟨n, r, hr, h⟩
  · exact Or.inl ⟨h ▸ hmode, by simp [h]⟩
  · exact Or.inl ⟨h ▸ hmode, by simp [h]⟩
  · exact Or.inl ⟨h ▸ hmode, by simp [h]⟩
  · obtain rfl := rule_strmode hmode hr
    exact Or.inr ⟨_, _, by rw [h]; rfl⟩

/-- **In `STRMODE` the next token is a string.** -/
theorem delivers_strmode {s s' : Scanner} {ts us : List Token} (h : Delivers s us s')
    (hmode : s.mode = .strmode) {t : Token} (hts : us = t :: ts) : t.kind = .tString := by
  induction h with
  | refl s => cases hts
  | @skip s x s' us hskip _ ih =>
    have hstep := hskip true fun _ => none
    rcases flexStep_strmode_cases hmode true fun _ => none with ⟨hx, _⟩ | ⟨_, _, htoken⟩
    · rw [hstep] at hx
      exact ih hx hts
    · rw [hstep] at htoken
      cases htoken
  | @token s x s' u yytext us htoken _ _ =>
    have hstep := htoken true fun _ => none
    obtain ⟨rfl, _⟩ := List.cons.inj hts
    rcases flexStep_strmode_cases hmode true fun _ => none with ⟨_, hnot⟩ | ⟨_, _, hstring⟩
    · rw [hstep] at hnot
      exact absurd rfl (hnot _ _)
    · rw [hstep] at hstring
      obtain ⟨rfl, _⟩ := Event.token.inj (Option.some.inj hstring)
      rfl

/-- The blanks behind a keyword. -/
theorem pick_statement {kw w : List Char} {rs : List (Pattern × Rule)}
    (hstate : ∀ c, whitespace.mem c = true →
      scanState (rulesOf .initial) 0 none (kw ++ [c]) = (rs, some (kw.length, identRule)))
    (hlive : ∀ c, whitespace.mem c = true → live c rs = rs) (hw : IsBlanks w) :
    ∃ best, (∀ v, pick (rulesOf .initial) (kw ++ w ++ v) = scan rs (kw ++ w).length best v) ∧
      (∀ m r, best = some (m, r) → m < (kw ++ w).length) ∧
      ((∀ r ∈ rs, r.1.nullable = false) → best = some (kw.length, identRule)) := by
  obtain ⟨c, w', rfl⟩ := List.exists_cons_of_ne_nil hw.1
  obtain ⟨hc, hw'⟩ := List.forall_mem_cons.mp hw.2
  have hbest : ∀ m r, some (kw.length, identRule) = some (m, r) → m < (kw ++ [c]).length := by
    intro m r h
    cases h
    simp
  obtain ⟨best, hscan, hlt, hsame⟩ := scanState_blanks hlive hw' (kw ++ [c]).length hbest
  have hsplit : kw ++ c :: w' = kw ++ [c] ++ w' := by simp
  have hlen : (kw ++ c :: w').length = (kw ++ [c]).length + w'.length := by
    rw [hsplit, List.length_append]
  refine ⟨best, fun v => ?_, by rwa [hlen], hsame⟩
  rw [pick_append, hsplit, scanState_append, hstate c hc, Nat.zero_add, hscan]

/-- The blanks in front of a URI. -/
theorem pick_uriBlanks {w v : List Char} (hw : IsBlanks w) (hv : dropBlanks v = v) (hne : v ≠ []) :
    pick (rulesOf .urimode) (w ++ v) =
      some (w.length, rule [.urimode, .initial] blanks (.skip none)) := by
  obtain ⟨c, w, rfl⟩ := List.exists_cons_of_ne_nil hw.1
  obtain ⟨hc, hw⟩ := List.forall_mem_cons.mp hw.2
  have hstate : ∀ c, whitespace.mem c = true → scanState (rulesOf .urimode) 0 none [c] =
      ([(moreBlanks, rule [.urimode, .initial] blanks (.skip none)),
        (.eps, rule [.urimode, .initial] (.cls anyChar) (.token .tUnrecognized true none))], none) :=
    forall_blank rfl rfl
  have hsplit : c :: w ++ v = [c] ++ (w ++ v) := rfl
  rw [hsplit, pick_append, hstate c hc]
  cases w with
  | nil =>
    obtain ⟨d, v, rfl⟩ := List.exists_cons_of_ne_nil hne
    have hlive : live d [(moreBlanks, rule [.urimode, .initial] blanks (.skip none)),
        (.eps, rule [.urimode, .initial] (.cls anyChar) (.token .tUnrecognized true none))] = [] := by
      simp [live, moreBlanks, Pattern.deriv, Pattern.mkSeq, head_notBlank hv]
    exact scan_stop hlive _ _ _
  | cons d w =>
    obtain ⟨hd, hw⟩ := List.forall_mem_cons.mp hw
    have hlive : live d [(moreBlanks, rule [.urimode, .initial] blanks (.skip none)),
        (.eps, rule [.urimode, .initial] (.cls anyChar) (.token .tUnrecognized true none))] =
        [(moreBlanks, rule [.urimode, .initial] blanks (.skip none))] := by
      simp [live, moreBlanks, Pattern.deriv, Pattern.mkSeq, hd]
    rw [List.cons_append, scan, hlive]
    show scan _ _ _ (w ++ v) = _
    rw [scan_blanks hw hv]
    congr 2
    simp only [List.length_cons, List.length_nil]
    omega

/-- Without a URI behind it a keyword stays what it is otherwise. -/
theorem scan_noUri {b : Rule} {n : Nat} {best : Option (Nat × Rule)} {w : List Char}
    (hblanks : dropBlanks w = w) (hnone : ¬ HasScheme w) :
    scan [(.seq moreBlanks uriStart, b)] n best w = best := by
  rcases scan_sound [(.seq moreBlanks uriStart, b)] n best w with h | ⟨p, a, j, hp, hj, hlang, _⟩
  · exact h
  · obtain ⟨rfl, rfl⟩ := Prod.mk.inj (List.mem_singleton.mp hp)
    obtain ⟨u, hu, start, hstart, htake⟩ := Language.mem_mul.mp hlang
    have hsplit := (List.take_append_drop j w).symm
    rw [← htake, List.append_assoc] at hsplit
    obtain rfl := blanks_nil hblanks hsplit (Pattern.mem_star_cls.mp hu)
    exact absurd ⟨start, hstart, w.drop j, hsplit.symm⟩ hnone

section Recognise

variable {s : Scanner} {kw w value tail : List Char} {k : Kind}

/-- The end of the line does not make a value a URI. -/
theorem Statement.hasScheme (h : Statement s kw w value tail) :
    HasScheme (value ++ tail) ↔ HasScheme value := by
  rcases h.ended with rfl | htail
  · rw [List.append_nil]
  · cases tail with
    | nil => cases htail
    | cons c tail =>
      obtain rfl : c = '\n' := Option.some.inj htail
      exact hasScheme_line

/-- **A URI behind a keyword**: the scanner puts blanks and URI back, and takes the scheme next. -/
theorem recognises_of_scheme (h : Statement s kw w value tail) (hscheme : HasScheme value)
    {q : Pattern} (hpick : ∀ start rest, start ∈ uriStart.lang →
      pick (rulesOf .initial) (kw ++ w ++ (start ++ rest)) =
        some ((kw ++ w).length + start.length, rule [.initial] q (.less k kw.length .urimode))) :
    Recognises s k := by
  obtain ⟨start, hstart, rest, rfl⟩ := hscheme
  have hsplit : s.text = kw ++ w ++ start ++ (rest ++ tail) := by simp [h.text]
  have hkeyword : ∀ active load, s.flexStep active load =
      ({ s with mode := .urimode, text := w ++ (start ++ (rest ++ tail)) },
        some (.token ⟨k, []⟩ (cstr kw))) := by
    intro active load
    have hrule := hpick start (rest ++ tail) hstart
    rw [← List.append_assoc, ← List.length_append] at hrule
    have hne : kw ++ w ++ start ≠ [] := by simp [uriStart_ne_nil hstart]
    rw [Scanner.flexStep_rule h.start hne hsplit hrule]
    have hback : (kw ++ w ++ start).drop kw.length = w ++ start := by
      rw [List.append_assoc, List.drop_left]
    have htake : (kw ++ w ++ start).take kw.length = kw := by
      rw [List.append_assoc, List.take_left]
    unfold Scanner.act
    dsimp only
    rw [hback, htake, List.append_assoc]
  have hblanks : ∀ active load,
      ({ s with mode := .urimode, text := w ++ (start ++ (rest ++ tail)) } : Scanner).flexStep
        active load = ({ s with mode := .urimode, text := start ++ (rest ++ tail) }, none) := by
    intro active load
    have hpick := pick_uriBlanks h.separated (uriStart_blanks hstart (rest ++ tail))
      (by simp [uriStart_ne_nil hstart])
    rw [Scanner.flexStep_rule (m := .urimode) rfl h.separated.1 rfl hpick]
    rfl
  have hscheme : ∀ active load,
      ({ s with mode := .urimode, text := start ++ (rest ++ tail) } : Scanner).flexStep active load =
        ({ s with mode := .urirestmode, text := rest ++ tail },
          some (.token ⟨.tUristart, start⟩ (cstr start))) := by
    intro active load
    rw [Scanner.flexStep_rule rfl (uriStart_ne_nil hstart) rfl (pick_uriStart hstart _)]
    show (_, some (Event.token ⟨.tUristart, cstr start⟩ (cstr start))) = _
    rw [cstr_eq_self (uriStart_nul hstart)]
    rfl
  exact ⟨start, _, .token hkeyword (.skip hblanks (.token hscheme (.refl _)))⟩

/-- **The scanner takes a value for a URI if an `ID` and `://` stand at its beginning**, whatever
other rules match the keyword. -/
theorem recognises_iff (hkw : (kw, k) ∈ uriStatements) (h : Statement s kw w value tail) :
    Recognises s k ↔ HasScheme value := by
  have hdrop : dropBlanks (value ++ tail) = value ++ tail :=
    dropBlanks_behind h.line.blanks h.nonempty tail
  rcases uriStatements_read hkw with ⟨p, q, val, hstate⟩ | ⟨q, hstate⟩
  · have hlive : ∀ c, whitespace.mem c = true →
        live c [(moreBlanks, rule [.initial] p (.token k val (some .strmode))),
          (.seq moreBlanks uriStart, rule [.initial] q (.less k kw.length .urimode))] =
        [(moreBlanks, rule [.initial] p (.token k val (some .strmode))),
          (.seq moreBlanks uriStart, rule [.initial] q (.less k kw.length .urimode))] :=
      forall_blank rfl rfl
    obtain ⟨best, hpick, hlt, _⟩ := pick_statement hstate hlive h.separated
    refine ⟨fun hrec => ?_, fun hscheme => ?_⟩
    · by_contra hnot
      have hrule := hpick (value ++ tail)
      rw [scan_noScheme hlt hdrop (mt h.hasScheme.mp hnot)] at hrule
      obtain ⟨start, s', hdelivers⟩ := hrec
      have hkeyword : ∀ active load, s.flexStep active load =
          ({ s with mode := .strmode, text := value ++ tail },
            some (.token ⟨k, if val then cstr (kw ++ w) else []⟩ (cstr (kw ++ w)))) := by
        intro active load
        exact Scanner.flexStep_rule h.start (by simp [h.separated.1]) h.text hrule
      have hnext := delivers_strmode (hdelivers.uncons hkeyword).2 rfl rfl
      cases hnext
    · refine recognises_of_scheme (q := q) h hscheme fun start rest hstart => ?_
      rw [hpick]
      exact scan_scheme (List.mem_cons_of_mem _ List.mem_cons_self) (fun x hx => by simpa using hx)
        hlt hstart rest
  · have hlive : ∀ c, whitespace.mem c = true →
        live c [(.seq moreBlanks uriStart, rule [.initial] q (.less k kw.length .urimode))] =
        [(.seq moreBlanks uriStart, rule [.initial] q (.less k kw.length .urimode))] :=
      forall_blank rfl rfl
    obtain ⟨best, hpick, hlt, hsame⟩ := pick_statement hstate hlive h.separated
    refine ⟨fun hrec => ?_, fun hscheme => ?_⟩
    · by_contra hnot
      have hrule := hpick (value ++ tail)
      have hbest := hsame fun r hr => by
        rw [List.mem_singleton.mp hr]
        rfl
      rw [scan_noUri hdrop (mt h.hasScheme.mp hnot), hbest, ← h.text] at hrule
      obtain ⟨start, s', hdelivers⟩ := hrec
      have hident : ∀ active load, s.flexStep active load =
          ({ s with text := s.text.drop kw.length },
            some (.token ⟨.tIdent, cstr (s.text.take kw.length)⟩ (cstr (s.text.take kw.length)))) := by
        intro active load
        have hne : s.text ≠ [] := by simp [h.text, h.nonempty]
        exact Scanner.flexStep_at hne (h.start.symm ▸ hrule)
      have hkind : k = .tIdent := congrArg Token.kind (hdelivers.uncons hident).1
      exact uriStatements_ident (hkind ▸ hkw)
    · refine recognises_of_scheme (q := q) h hscheme fun start rest hstart => ?_
      rw [hpick]
      exact scan_scheme (a := identRule) List.mem_cons_self
        (fun x hx => Or.inr (List.mem_singleton.mp hx)) hlt hstart rest

end Recognise

/-! ## Scanner and loader -/

/-- **The two grammars agree on a value**: before its first colon there is no `ID` with an underscore
if the slashes follow, and if there is a scheme of the loader then it is one without a plus sign and
the slashes follow. -/
def SameScheme (value : CStr) : Prop :=
  ∀ p q, value = p ++ ':' :: q → ':' ∉ p →
    (Ident p → ['/', '/'] <+: q → '_' ∉ p) ∧ (Uri.Scheme p → '+' ∉ p ∧ ['/', '/'] <+: q)

theorem sameScheme_append {p q : CStr} (hp : ':' ∉ p) :
    SameScheme (p ++ ':' :: q) ↔
      (Ident p → ['/', '/'] <+: q → '_' ∉ p) ∧ (Uri.Scheme p → '+' ∉ p ∧ ['/', '/'] <+: q) := by
  constructor
  · exact fun h => h p q rfl hp
  · intro h p' q' heq hp'
    obtain ⟨rfl, rfl⟩ := Uri.append_colon_inj hp hp' heq
    exact h

/-- **Scanner and loader agree on what a URI is** for the values on which their grammars do. -/
theorem uri_agree_iff {s : Scanner} {kw w value tail scheme rest : List Char} {k : Kind}
    (hkw : (kw, k) ∈ uriStatements) (h : Statement s kw w value tail)
    (hvalue : value = scheme ++ ':' :: '/' :: '/' :: rest) :
    (Recognises s k ↔ Uri.verifyUriScheme value = true) ↔ SameScheme value := by
  rw [recognises_iff hkw h, Uri.verifyUriScheme_iff]
  obtain ⟨p, q, rfl, hp⟩ := (Uri.colon_cases value).resolve_left (by simp [hvalue])
  rw [hasScheme_iff hp, absolute_iff hp, sameScheme_append hp]
  constructor
  · intro hagree
    refine ⟨fun hid hslashes => ?_, fun hs => ?_⟩
    · exact (hagree.mp ⟨hid, hslashes⟩).notMem (by decide)
    · obtain ⟨hid, hslashes⟩ := hagree.mpr hs
      exact ⟨hid.plus, hslashes⟩
  · rintro ⟨hunderscore, hplus⟩
    constructor
    · exact fun ⟨hid, hslashes⟩ => hid.scheme (hunderscore hid hslashes)
    · exact fun hs => ⟨ident_of_scheme hs (hplus hs).1, (hplus hs).2⟩

/-- The scanner in front of a root statement. -/
def rootStatement (value : CStr) : Scanner :=
  Scanner.fresh.restart ("root ".toList ++ value ++ ['\n'])

theorem statement_root {value : CStr} (hline : IsLine value) (hne : value ≠ []) :
    Statement (rootStatement value) "root".toList [' '] value ['\n'] :=
  ⟨rfl, by simp [rootStatement, Scanner.restart], ⟨by simp, by simp [whitespace_mem]⟩, hline, hne,
    Or.inr rfl⟩

theorem uri_agree_iff_ftp :
    Recognises (rootStatement "ftp://h/".toList) .tRoot ↔
      Uri.verifyUriScheme "ftp://h/".toList = true := by
  have hline : IsLine "ftp://h/".toList := ⟨by decide, by decide, rfl⟩
  have hvalue : "ftp://h/".toList = "ftp".toList ++ ':' :: '/' :: '/' :: "h/".toList := rfl
  refine (uri_agree_iff (by decide) (statement_root hline (by decide)) hvalue).mpr ?_
  rw [hvalue, sameScheme_append (by decide)]
  exact ⟨fun _ _ => by decide, fun _ => ⟨by decide, _, rfl⟩⟩

/-- **A scheme with a plus sign** is served by the loader and no URI for the scanner; an `ID` with an
underscore is a URI for the scanner and none for the loader. -/
theorem plus_and_underscore :
    ¬ (Recognises (rootStatement "a+b://h".toList) .tRoot ↔
      Uri.verifyUriScheme "a+b://h".toList = true) ∧
    ¬ (Recognises (rootStatement "a_b://h".toList) .tRoot ↔
      Uri.verifyUriScheme "a_b://h".toList = true) := by
  have hline : ∀ {v : CStr}, '\n' ∉ v → nul ∉ v → dropBlanks v = v → IsLine v := fun h h' h'' =>
    ⟨h, h', h''⟩
  have hplus : "a+b://h".toList = "a+b".toList ++ ':' :: "//h".toList := rfl
  have hunder : "a_b://h".toList = "a_b".toList ++ ':' :: "//h".toList := rfl
  have hstart : idStart.mem 'a' = true := rfl
  have hroot : ("root".toList, Kind.tRoot) ∈ uriStatements := by decide
  constructor
  · rw [recognises_iff hroot (statement_root (hline (by decide) (by decide) rfl) (by decide)),
      Uri.verifyUriScheme_iff, hplus, hasScheme_iff (by decide), absolute_iff (by decide)]
    intro h
    have hid := (h.mpr ⟨'a', "+b".toList, rfl, rfl, List.all_eq_true.mp rfl⟩).1
    exact absurd hid.plus (by decide)
  · rw [recognises_iff hroot (statement_root (hline (by decide) (by decide) rfl) (by decide)),
      Uri.verifyUriScheme_iff, hunder, hasScheme_iff (by decide), absolute_iff (by decide)]
    intro h
    have hscheme := h.mp ⟨⟨'a', "_b".toList, rfl, hstart, List.all_eq_true.mp rfl⟩, _, rfl⟩
    exact absurd (hscheme.notMem (c := '_') (by decide)) (by decide)

end Sysload.Parser
