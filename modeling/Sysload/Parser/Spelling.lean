import Sysload.Parser.UriScheme

/-!
# How a configuration is spelled (`sysload.conf.l`)

The layout of a configuration is free: there may be blanks, line breaks and comments wherever a
statement does not take the rest of its line. A `Piece` is a beginning of a text with the tokens
that it stands for: a word, a punctuation mark, a keyword with the rest of its line, or nothing but
layout.

The scanner takes the longest match, so what a piece is depends on what comes behind it. A word ends
at a delimiter; blanks end where there are no more of them.

Source: `src/core/sysload.conf.l`. Out of scope are texts with a syntax error.

Results:
* `pick_word`: a word is the same token whatever delimiter it ends at.
* **`Piece.delivers`**: the scanner delivers the tokens of a piece.
-/

namespace Sysload.Parser

open Lexer

/-! ## Words -/

/-- The characters that cannot belong to a word. -/
def delimiters : List Char := [' ', '\t', '\n', '#', '(', ')', ',', '/', '\x7b', '\x7d', '=']

/-- The punctuation marks. -/
def punctuation : List Char := ['(', ')', ',', '/', '\x7b', '\x7d', '=']

/-- The keywords that take the rest of their line. -/
def lineStatements : List (CStr × Kind) :=
  [("default".toList, .tDefault), ("password".toList, .tPassword), ("exec".toList, .tExec),
    ("pause".toList, .tPause), ("name".toList, .tName), ("param".toList, .tParam),
    ("kernelversion".toList, .tKernelversion), ("title".toList, .tTitle),
    ("label".toList, .tLabel), ("cmdline".toList, .tCmdline)]

/-- The keywords with a file name, which may be a URI; the text of `initrd` is the value of its
token. -/
def fileStatements : List (CStr × Kind × Bool) :=
  [("kernel".toList, .tKernel, false), ("initrd".toList, .tInitrd, true),
    ("parmfile".toList, .tParmfile, false)]

/-- The keywords with blanks behind them. -/
def valueKeywords : List CStr :=
  lineStatements.map Prod.fst ++ uriStatements.map Prod.fst ++
    ["timeout".toList, "userinterface".toList]

/-- What matches begins with a delimiter. -/
def delimited : Pattern → Bool
  | .cls k => !k.neg && k.ranges.all fun r => r.1 == r.2 && delimiters.contains r.1
  | .seq p _ => delimited p
  | _ => false

/-- What matches has no delimiter. -/
def undelimited (p : Pattern) : Bool := delimiters.all fun d => p.avoids d

/-- The rule cannot go on behind a word that is no keyword with a value. -/
def Rule.stops (r : Rule) : Bool :=
  match r.pattern with
  | .cls _ => true
  | .seq p q =>
    delimited p || (delimited q && valueKeywords.any fun kw => p == word kw) ||
      undelimited (.seq p q)
  | p => undelimited p

theorem rules_stop : (rulesOf .initial).all (fun r => r.2.stops) = true := by decide +kernel

theorem delimited_head {p : Pattern} (h : delimited p = true) {w : List Char} (hw : w ∈ p.lang) :
    ∃ c tail, w = c :: tail ∧ c ∈ delimiters := by
  induction p generalizing w with
  | cls k =>
    obtain ⟨c, hc, rfl⟩ := hw
    refine ⟨c, [], rfl, ?_⟩
    simp only [delimited, Bool.and_eq_true, Bool.not_eq_true', List.all_eq_true] at h
    obtain ⟨hneg, hranges⟩ := h
    simp only [CharClass.mem, hneg, Bool.false_bne, List.any_eq_true] at hc
    obtain ⟨r, hr, hc⟩ := hc
    obtain ⟨heq, hmem⟩ := hranges r hr
    simp only [Bool.and_eq_true, decide_eq_true_eq] at hc
    rw [← eq_of_beq heq] at hc
    rw [Char.le_antisymm hc.2 hc.1]
    exact List.contains_iff_mem.mp hmem
  | seq p q ihp _ =>
    obtain ⟨a, ha, b, _, rfl⟩ := Language.mem_mul.mp hw
    obtain ⟨c, tail, rfl, hc⟩ := ihp h ha
    exact ⟨c, tail ++ b, rfl, hc⟩
  | _ => cases h

/-- A text is split in one way at the first character of a kind. -/
theorem first_unique {P : Char → Prop} {u v x y : List Char} {c d : Char} (hu : ∀ a ∈ u, ¬ P a)
    (hv : ∀ a ∈ v, ¬ P a) (hc : P c) (hd : P d) (h : u ++ c :: x = v ++ d :: y) : u = v := by
  induction u generalizing v with
  | nil =>
    cases v with
    | nil => rfl
    | cons a v =>
      obtain ⟨rfl, _⟩ := List.cons.inj h
      exact absurd hc (hv _ List.mem_cons_self)
  | cons b u ih =>
    cases v with
    | nil =>
      obtain ⟨rfl, _⟩ := List.cons.inj h
      exact absurd hd (hu _ List.mem_cons_self)
    | cons a v =>
      obtain ⟨rfl, htail⟩ := List.cons.inj h
      rw [ih (fun a ha => hu a (List.mem_cons_of_mem _ ha))
        (fun a ha => hv a (List.mem_cons_of_mem _ ha)) htail]

theorem notMem_of_undelimited {p : Pattern} (h : undelimited p = true) {w : List Char}
    (hw : w ∈ p.lang) : ∀ c ∈ w, c ∉ delimiters :=
  fun c hc hmem => Pattern.notMem_of_avoids (List.all_eq_true.mp h c hmem) hw hc

theorem valueKeywords_undelimited : ∀ kw ∈ valueKeywords, ∀ c ∈ kw, c ∉ delimiters := by
  have hall : valueKeywords.all (fun kw => kw.all fun c => !delimiters.contains c) = true := rfl
  intro kw hkw c hc
  have h := List.all_eq_true.mp (List.all_eq_true.mp hall kw hkw) c hc
  simpa using h

/-- A word: it has no delimiter, and is no keyword with a value. -/
structure IsWord (w : List Char) : Prop where
  ne_nil : w ≠ []
  undelimited : ∀ c ∈ w, c ∉ delimiters
  keyword : w ∉ valueKeywords

/-- The words, as they can be checked. -/
theorem isWord_of_all {w : List Char} (hne : w ≠ []) (hall : w.all (!delimiters.contains ·) = true)
    (hkeyword : valueKeywords.contains w = false) : IsWord w where
  ne_nil := hne
  undelimited c hc := by simpa using List.all_eq_true.mp hall c hc
  keyword := by simpa using hkeyword

/-- The text is at its end or begins with a delimiter. -/
def AtDelimiter (v : List Char) : Prop := ∀ c tail, v = c :: tail → c ∈ delimiters

/-- **No rule matches a word and more.** -/
theorem word_stops {r : Rule} (hstops : r.stops = true) {w : List Char} (hw : IsWord w) {d : Char}
    (hd : d ∈ delimiters) (v : List Char) : w ++ d :: v ∉ r.pattern.lang := by
  intro hlang
  have hnone : undelimited r.pattern = true → False := fun h =>
    notMem_of_undelimited h hlang d (by simp) hd
  unfold Rule.stops at hstops
  split at hstops
  · rename_i k hk
    rw [hk] at hlang
    obtain ⟨c, _, heq⟩ := hlang
    have hlen := congrArg List.length heq
    have hpos := List.length_pos_of_ne_nil hw.ne_nil
    simp only [List.length_append, List.length_cons, List.length_nil] at hlen
    omega
  · rename_i p q hpq
    simp only [Bool.or_eq_true, Bool.and_eq_true] at hstops
    rcases hstops with (hp | ⟨hq, hkw⟩) | hnot
    · rw [hpq] at hlang
      obtain ⟨c, tail, heq, hc⟩ := delimited_head (p := .seq p q) hp hlang
      obtain ⟨a, w', rfl⟩ := List.exists_cons_of_ne_nil hw.ne_nil
      obtain ⟨rfl, _⟩ := List.cons.inj heq
      exact hw.undelimited _ List.mem_cons_self hc
    · -- only a keyword has blanks behind it
      rw [hpq] at hlang
      obtain ⟨a, ha, b, hb, heq⟩ := Language.mem_mul.mp hlang
      obtain ⟨kw, hmem, hword⟩ := List.any_eq_true.mp hkw
      rw [beq_iff_eq.mp hword, mem_lang_word] at ha
      obtain ⟨c, tail, rfl, hc⟩ := delimited_head hq hb
      rw [ha] at heq
      have hsame := first_unique (P := (· ∈ delimiters)) (valueKeywords_undelimited kw hmem)
        hw.undelimited hc hd heq
      exact hw.keyword (hsame ▸ hmem)
    · exact hnone (hpq ▸ hnot)
  · exact hnone hstops

/-- **A word is the same token whatever comes behind it.** -/
theorem pick_word {w v : List Char} (hw : IsWord w) (hv : AtDelimiter v) :
    pick (rulesOf .initial) (w ++ v) = pick (rulesOf .initial) w := by
  refine pick_of_short fun p r k hp hk hle => ?_
  cases v with
  | nil => exact absurd hle (Nat.not_le.mpr hk)
  | cons d v =>
    obtain ⟨k, rfl⟩ := Nat.exists_eq_succ_of_ne_zero (Nat.ne_of_gt hk)
    obtain ⟨_, _, rfl⟩ := mem_rulesOf.mp hp
    rw [List.take_succ_cons]
    exact word_stops (List.all_eq_true.mp rules_stop _ hp) hw (hv d v rfl) _

/-! ## Layout -/

/-- What comes behind two rules that both end here. -/
theorem scan_eps_two {a b : Rule} (n : Nat) (best : Option (Nat × Rule)) (v : List Char) :
    scan [(.eps, a), (.eps, b)] n best v = some (n, a) := by
  cases v <;> rfl

/-- The rule of a punctuation mark. -/
theorem pick_punctuation {c : Char} (hc : c ∈ punctuation) :
    ∃ r, r.trail = false ∧ r.action = .char none ∧
      ∀ v, pick (rulesOf .initial) ([c] ++ v) = some (1, r) := by
  have hstate : ∀ {r r' : Rule},
      scanState (rulesOf .initial) 0 none [c] = ([(.eps, r), (.eps, r')], none) →
      ∀ v, pick (rulesOf .initial) ([c] ++ v) = some (1, r) := by
    intro r r' h v
    rw [pick_append, h]
    exact scan_eps_two _ _ _
  simp only [punctuation, List.mem_cons, List.not_mem_nil, or_false] at hc
  rcases hc with rfl | rfl | rfl | rfl | rfl | rfl | rfl
  all_goals exact ⟨_, rfl, rfl, hstate rfl⟩

/-- Blanks, where another rule matches the first one too. -/
theorem scan_blanks_first {a b : Rule} {w v : List Char} (hw : ∀ c ∈ w, whitespace.mem c = true)
    (hv : dropBlanks v = v) (n : Nat) (best : Option (Nat × Rule)) :
    scan [(moreBlanks, a), (.eps, b)] n best (w ++ v) = some (n + w.length, a) := by
  cases w with
  | nil =>
    cases v with
    | nil => rfl
    | cons c v =>
      have hlive : live c [(moreBlanks, a), (.eps, b)] = [] := by
        simp [live, moreBlanks, Pattern.deriv, Pattern.mkSeq, head_notBlank hv]
      exact scan_stop hlive _ _ _
  | cons c w =>
    obtain ⟨hc, hw⟩ := List.forall_mem_cons.mp hw
    have hlive : live c [(moreBlanks, a), (.eps, b)] = [(moreBlanks, a)] := by
      simp [live, moreBlanks, Pattern.deriv, Pattern.mkSeq, hc]
    rw [List.cons_append, scan, hlive]
    show scan [(moreBlanks, a)] _ _ (w ++ v) = _
    rw [scan_blanks hw hv, List.length_cons, Nat.add_assoc, Nat.add_comm 1]

/-- Blanks are taken up to their end. -/
theorem pick_blanks {w v : List Char} (hw : IsBlanks w) (hv : dropBlanks v = v) :
    pick (rulesOf .initial) (w ++ v) =
      some (w.length, rule [.urimode, .initial] blanks (.skip none)) := by
  obtain ⟨c, w, rfl⟩ := List.exists_cons_of_ne_nil hw.1
  obtain ⟨hc, hw⟩ := List.forall_mem_cons.mp hw.2
  have hstate : ∀ c, whitespace.mem c = true → scanState (rulesOf .initial) 0 none [c] =
      ([(moreBlanks, rule [.urimode, .initial] blanks (.skip none)),
        (.eps, rule [.urimode, .initial] (.cls anyChar) (.token .tUnrecognized true none))],
        none) :=
    forall_blank rfl rfl
  have hsplit : c :: w ++ v = [c] ++ (w ++ v) := rfl
  rw [hsplit, pick_append, hstate c hc, scan_blanks_first hw hv, List.length_cons, List.length_cons,
    List.length_nil, Nat.zero_add, Nat.add_comm 1]

/-- **The rest of a line**, where no other rule goes on. -/
theorem scan_line {rs : List (Pattern × Rule)} {r : Rule} (hmem : (.seq anyLine (chr '\n'), r) ∈ rs)
    (hall : ∀ x ∈ rs, x = (.seq anyLine (chr '\n'), r) ∨ x.1 = .eps) {text : List Char}
    (htext : '\n' ∉ text) (n : Nat) (v : List Char) :
    scan rs n none (text ++ '\n' :: v) = some (n + (text.length + 1), r) := by
  have htake : (text ++ '\n' :: v).take (text.length + 1) = text ++ ['\n'] := by
    simp [List.take_append]
  refine scan_unique hmem (by simp) ?_ (fun m b h => by cases h) fun q a j hq hj hle hlang => ?_
  · rw [htake]
    exact ⟨text, mem_anyLine.mpr htext, ['\n'], mem_lang_chr.mpr rfl, rfl⟩
  have hlen := List.length_take_of_le hj
  rcases hall _ hq with heq | heq
  · obtain ⟨rfl, rfl⟩ := Prod.mk.inj heq
    obtain ⟨u, hu, eol, heol, htaken⟩ := Language.mem_mul.mp hlang
    obtain rfl := mem_lang_chr.mp heol
    have hwhole := List.take_append_drop j (text ++ '\n' :: v)
    rw [← htaken, List.append_assoc] at hwhole
    rw [← htaken, before_unique (mem_anyLine.mp hu) htext hwhole] at hlen
    simp only [List.length_append, List.length_cons, List.length_nil] at hlen
    exact ⟨hlen.symm, rfl⟩
  · obtain rfl : q = .eps := heq
    have hnil : (text ++ '\n' :: v).take j = [] := hlang
    rw [hnil, List.length_nil] at hlen
    omega

/-- A comment goes up to the end of its line. -/
theorem pick_comment {text : List Char} (htext : '\n' ∉ text) (v : List Char) :
    pick (rulesOf .initial) ('#' :: text ++ '\n' :: v) =
      some (text.length + 2, ruleEol [.initial] (.seq (chr '#') anyLine) (.skip none)) := by
  have hstate : scanState (rulesOf .initial) 0 none ['#'] =
      ([(.seq anyLine (chr '\n'), ruleEol [.initial] (.seq (chr '#') anyLine) (.skip none)),
        (.eps, rule [.urimode, .initial] (.cls anyChar) (.token .tUnrecognized true none))],
        none) :=
    rfl
  have hsplit : '#' :: text ++ '\n' :: v = ['#'] ++ (text ++ '\n' :: v) := rfl
  rw [hsplit, pick_append, hstate, scan_line List.mem_cons_self (by simp) htext,
    List.length_singleton, Nat.add_comm 1]

/-! ## Keywords -/

section Keyword

variable {kw w v : List Char} {s : Scanner}

/-- Nothing but blanks can follow the keyword. -/
def ReadsBlanks (kw : CStr) (k : Kind) (next : Option Mode) : Prop :=
  ∃ p, ∀ c, whitespace.mem c = true → scanState (rulesOf .initial) 0 none (kw ++ [c]) =
    ([(moreBlanks, rule [.initial] p (.token k false next))], some (kw.length, identRule))

theorem lineStatements_read {k : Kind} (h : (kw, k) ∈ lineStatements) :
    ReadsBlanks kw k (some .strmode) := by
  simp only [lineStatements, List.mem_cons, List.not_mem_nil, or_false, Prod.mk.injEq] at h
  rcases h with ⟨rfl, rfl⟩ | ⟨rfl, rfl⟩ | ⟨rfl, rfl⟩ | ⟨rfl, rfl⟩ | ⟨rfl, rfl⟩ | ⟨rfl, rfl⟩ |
    ⟨rfl, rfl⟩ | ⟨rfl, rfl⟩ | ⟨rfl, rfl⟩ | ⟨rfl, rfl⟩
  all_goals exact ⟨_, forall_blank rfl rfl⟩

theorem timeout_reads : ReadsBlanks "timeout".toList .tTimeout none := ⟨_, forall_blank rfl rfl⟩

theorem userinterface_reads : ReadsBlanks "userinterface".toList .tUserinterface (some .uimode) :=
  ⟨_, forall_blank rfl rfl⟩

/-- A keyword and the blanks behind it. -/
theorem ReadsBlanks.flexStep {k : Kind} {next : Option Mode} (h : ReadsBlanks kw k next)
    (hw : IsBlanks w) (hv : dropBlanks v = v) (hmode : s.mode = .initial)
    (htext : s.text = kw ++ w ++ v) (active : Bool) (load : CStr → Option (List Char)) :
    s.flexStep active load = ({ s with mode := next.getD .initial, text := v },
      some (.token ⟨k, []⟩ (cstr (kw ++ w)))) := by
  obtain ⟨p, hstate⟩ := h
  have hlive : ∀ c, whitespace.mem c = true →
      live c [(moreBlanks, rule [.initial] p (.token k false next))] =
        [(moreBlanks, rule [.initial] p (.token k false next))] := forall_blank rfl rfl
  obtain ⟨best, hpick, _⟩ := pick_statement hstate hlive hw
  have hrule := hpick v
  have hscan := @scan_blanks Rule (rule [.initial] p (.token k false next)) [] v (by simp) hv
    (kw ++ w).length best
  rw [List.nil_append, List.length_nil, Nat.add_zero] at hscan
  rw [hscan] at hrule
  rw [Scanner.flexStep_rule hmode (by simp [hw.1]) htext hrule, ← hmode]
  rfl

/-- A keyword with a file name that is no URI. -/
theorem fileStatement_flexStep {k : Kind} {val : Bool} (h : (kw, k, val) ∈ fileStatements)
    (hw : IsBlanks w) (hv : dropBlanks v = v) (hnone : ¬ HasScheme v) (hmode : s.mode = .initial)
    (htext : s.text = kw ++ w ++ v) (active : Bool) (load : CStr → Option (List Char)) :
    s.flexStep active load = ({ s with mode := .strmode, text := v },
      some (.token ⟨k, if val then cstr (kw ++ w) else []⟩ (cstr (kw ++ w)))) := by
  obtain ⟨p, q, hstate⟩ : ∃ p q, ∀ c, whitespace.mem c = true →
      scanState (rulesOf .initial) 0 none (kw ++ [c]) =
        ([(moreBlanks, rule [.initial] p (.token k val (some .strmode))),
          (.seq moreBlanks uriStart, rule [.initial] q (.less k kw.length .urimode))],
          some (kw.length, identRule)) := by
    simp only [fileStatements, List.mem_cons, List.not_mem_nil, or_false, Prod.mk.injEq] at h
    rcases h with ⟨rfl, rfl, rfl⟩ | ⟨rfl, rfl, rfl⟩ | ⟨rfl, rfl, rfl⟩
    all_goals exact ⟨_, _, forall_blank rfl rfl⟩
  have hlive : ∀ c, whitespace.mem c = true →
      live c [(moreBlanks, rule [.initial] p (.token k val (some .strmode))),
        (.seq moreBlanks uriStart, rule [.initial] q (.less k kw.length .urimode))] =
      [(moreBlanks, rule [.initial] p (.token k val (some .strmode))),
        (.seq moreBlanks uriStart, rule [.initial] q (.less k kw.length .urimode))] :=
    forall_blank rfl rfl
  obtain ⟨best, hpick, hlt, _⟩ := pick_statement hstate hlive hw
  have hrule := hpick v
  rw [scan_noScheme hlt hv hnone] at hrule
  rw [Scanner.flexStep_rule hmode (by simp [hw.1]) htext hrule]
  rfl

/-- The rule of a keyword with a URI. -/
theorem uriStatement_pick {k : Kind} (h : (kw, k) ∈ uriStatements) (hw : IsBlanks w) :
    ∃ q, ∀ start rest, start ∈ uriStart.lang →
      pick (rulesOf .initial) (kw ++ w ++ (start ++ rest)) =
        some ((kw ++ w).length + start.length, rule [.initial] q (.less k kw.length .urimode)) := by
  rcases uriStatements_read h with ⟨p, q, val, hstate⟩ | ⟨q, hstate⟩
  · obtain ⟨best, hpick, hlt, _⟩ := pick_statement hstate (forall_blank rfl rfl) hw
    refine ⟨q, fun start rest hstart => ?_⟩
    rw [hpick]
    exact scan_scheme (List.mem_cons_of_mem _ List.mem_cons_self) (fun x hx => by simpa using hx)
      hlt hstart rest
  · obtain ⟨best, hpick, hlt, _⟩ := pick_statement hstate (forall_blank rfl rfl) hw
    refine ⟨q, fun start rest hstart => ?_⟩
    rw [hpick]
    exact scan_scheme (a := identRule) List.mem_cons_self
      (fun x hx => Or.inr (List.mem_singleton.mp hx)) hlt hstart rest

/-- **A keyword with a URI**: the scanner puts blanks and URI back, and takes the scheme next. -/
theorem uriStatement_delivers {k : Kind} (h : (kw, k) ∈ uriStatements) (hw : IsBlanks w)
    {start : List Char} (hstart : start ∈ uriStart.lang) (hmode : s.mode = .initial)
    (htext : s.text = kw ++ w ++ start ++ v) :
    Delivers s [⟨k, []⟩, ⟨.tUristart, start⟩] { s with mode := .urirestmode, text := v } := by
  obtain ⟨q, hpick⟩ := uriStatement_pick h hw
  have hkeyword : ∀ active load, s.flexStep active load =
      ({ s with mode := .urimode, text := w ++ (start ++ v) },
        some (.token ⟨k, []⟩ (cstr kw))) := by
    intro active load
    have hrule := hpick start v hstart
    rw [← List.append_assoc, ← List.length_append] at hrule
    rw [Scanner.flexStep_rule hmode (by simp [hw.1]) htext hrule]
    unfold Scanner.act
    dsimp only
    rw [List.append_assoc kw, List.drop_left, List.take_left, List.append_assoc]
  have hblanks : ∀ active load,
      ({ s with mode := .urimode, text := w ++ (start ++ v) } : Scanner).flexStep active load =
        ({ s with mode := .urimode, text := start ++ v }, none) := by
    intro active load
    have hpick := pick_uriBlanks hw (uriStart_blanks hstart v) (by simp [uriStart_ne_nil hstart])
    rw [Scanner.flexStep_rule (m := .urimode) rfl hw.1 rfl hpick]
    rfl
  have hscheme : ∀ active load,
      ({ s with mode := .urimode, text := start ++ v } : Scanner).flexStep active load =
        ({ s with mode := .urirestmode, text := v },
          some (.token ⟨.tUristart, start⟩ (cstr start))) := by
    intro active load
    rw [Scanner.flexStep_rule rfl (uriStart_ne_nil hstart) rfl (pick_uriStart hstart _)]
    show (_, some (Event.token ⟨.tUristart, cstr start⟩ (cstr start))) = _
    rw [cstr_eq_self (uriStart_nul hstart)]
    rfl
  exact .token hkeyword (.skip hblanks (.token hscheme (.refl _)))

/-- The rest of a line in `STRMODE`. -/
theorem delivers_line {line : List Char} (hline : '\n' ∉ line) (s : Scanner) (v : List Char) :
    Delivers { s with mode := .strmode, text := line ++ '\n' :: v }
      [⟨.tString, dropBlanks (cstr line)⟩] { s with mode := .initial, text := '\n' :: v } :=
  .token (fun _ _ => Scanner.flexStep_strmode rfl hline rfl) (.refl _)

/-- The rest of a URI without brackets. -/
theorem delivers_uriLine {c : Char} {line : List Char} (hc : c ≠ '(') (hline : '\n' ∉ line)
    (s : Scanner) (v : List Char) :
    Delivers { s with mode := .urirestmode, text := c :: line ++ '\n' :: v }
      [⟨.tString, cstr (c :: line)⟩] { s with mode := .initial, text := '\n' :: v } := by
  have htaken : (ruleEol [.urirestmode] uriLine (.token .tString true (some .initial))).taken
      (line.length + 2) = (c :: line).length := rfl
  have hstep : ∀ active load,
      ({ s with mode := .urirestmode, text := c :: line ++ '\n' :: v } :
        Scanner).flexStep active load = ({ s with mode := .initial, text := '\n' :: v },
          some (.token ⟨.tString, cstr (c :: line)⟩ (cstr (c :: line)))) := by
    intro active load
    rw [Scanner.flexStep_at (List.cons_ne_nil _ _) (pick_uriLine hc hline v), htaken,
      List.drop_left, List.take_left]
    rfl
  exact .token hstep (.refl _)

/-- The brackets of a URI, and the rest of the line. -/
theorem delivers_uriBracket {body tail : List Char} (hne : body ≠ []) (hbody : ')' ∉ body)
    (htail : '\n' ∉ tail) (s : Scanner) (v : List Char) :
    Delivers { s with mode := .urirestmode, text := '(' :: body ++ ')' :: tail ++ '\n' :: v }
      [⟨.tUribracket, cstr ('(' :: body ++ [')'])⟩, ⟨.tString, dropBlanks (cstr tail)⟩]
      { s with mode := .initial, text := '\n' :: v } := by
  have hsplit : '(' :: body ++ ')' :: tail ++ '\n' :: v =
      '(' :: body ++ [')'] ++ (tail ++ '\n' :: v) := by simp
  have hbracket : ∀ active load,
      ({ s with mode := .urirestmode, text := '(' :: body ++ ')' :: tail ++ '\n' :: v } :
        Scanner).flexStep active load = ({ s with mode := .strmode, text := tail ++ '\n' :: v },
          some (.token ⟨.tUribracket, cstr ('(' :: body ++ [')'])⟩
            (cstr ('(' :: body ++ [')'])))) := by
    intro active load
    have hpick := pick_uriBracket hne hbody (tail ++ '\n' :: v)
    rw [Scanner.flexStep_rule (m := .urirestmode) (w := '(' :: body ++ [')']) rfl (by simp) hsplit
      (by simpa using hpick)]
    rfl
  exact .token hbracket (delivers_line htail s v)

/-! ## User interfaces -/

/-- `T_SSH` in `UIMODE`. -/
def sshRule : Rule := rule [.uimode] (word "ssh".toList) (.token .tSsh false none)

/-- `T_IDENT` in `UIMODE`. -/
def uiRule : Rule := rule [.uimode] ident (.token .tIdent true (some .strmode))

theorem rulesOf_uimode : rulesOf .uimode = [(word "ssh".toList, sshRule), (ident, uiRule)] := rfl

/-- The text is at its end or goes on with a character that no identifier has. -/
def IdentEnds (v : List Char) : Prop := ∀ c tail, v = c :: tail → idRest.mem c = false

theorem ident_ssh : Ident "ssh".toList := ⟨'s', ['s', 'h'], rfl, rfl, List.all_eq_true.mp rfl⟩

/-- In `UIMODE` everything that matches is an identifier. -/
theorem ident_of_uimode {p : Pattern} {r : Rule} (hp : (p, r) ∈ rulesOf .uimode) {x : List Char}
    (hx : x ∈ p.lang) : Ident x ∧ (r = uiRule ∨ r = sshRule ∧ x = "ssh".toList) := by
  rw [rulesOf_uimode] at hp
  simp only [List.mem_cons, List.not_mem_nil, or_false, Prod.mk.injEq] at hp
  rcases hp with ⟨rfl, rfl⟩ | ⟨rfl, rfl⟩
  · obtain rfl := mem_lang_word.mp hx
    exact ⟨ident_ssh, Or.inr ⟨rfl, rfl⟩⟩
  · exact ⟨mem_ident.mp hx, Or.inl rfl⟩

/-- An identifier in `UIMODE` is the same token whatever it ends at. -/
theorem pick_uimode {id : List Char} (hid : Ident id) (hv : IdentEnds v) :
    pick (rulesOf .uimode) (id ++ v) = pick (rulesOf .uimode) id := by
  refine pick_of_short fun p r k hp hk hle hlang => ?_
  cases v with
  | nil => exact absurd hle (Nat.not_le.mpr hk)
  | cons d v =>
    obtain ⟨k, rfl⟩ := Nat.exists_eq_succ_of_ne_zero (Nat.ne_of_gt hk)
    obtain ⟨⟨c, cs, hcs, _, hrest⟩, _⟩ := ident_of_uimode hp hlang
    obtain ⟨a, as, rfl, _, _⟩ := hid
    obtain ⟨_, rfl⟩ := List.cons.inj hcs
    have hd := hrest d (List.mem_append_right _ (List.mem_cons_self))
    rw [hv d v rfl] at hd
    cases hd

/-- The user interface. -/
theorem pick_ui {id : List Char} (hid : Ident id) (hssh : id ≠ "ssh".toList) (hv : IdentEnds v) :
    pick (rulesOf .uimode) (id ++ v) = some (id.length, uiRule) := by
  rw [pick_uimode hid hv]
  refine pick_unique (List.mem_cons_of_mem _ List.mem_cons_self) (Nat.le_refl _)
    (by rw [List.take_length]; exact mem_ident.mpr hid) fun q r j hq hj hle hlang => ?_
  obtain rfl := Nat.le_antisymm hj hle
  rw [List.take_length] at hlang
  exact ⟨rfl, (ident_of_uimode hq hlang).2.resolve_right fun h => hssh h.2⟩

/-- **The user interface and its options.** -/
theorem delivers_ui {id rest : List Char} (hid : Ident id) (hssh : id ≠ "ssh".toList)
    (hends : IdentEnds rest) (hline : '\n' ∉ rest) (s : Scanner) (v : List Char) :
    Delivers { s with mode := .uimode, text := id ++ rest ++ '\n' :: v }
      [⟨.tIdent, id⟩, ⟨.tString, dropBlanks (cstr rest)⟩]
      { s with mode := .initial, text := '\n' :: v } := by
  have hbehind : IdentEnds (rest ++ '\n' :: v) := by
    intro c tail h
    cases rest with
    | nil =>
      obtain ⟨rfl, _⟩ := List.cons.inj h
      rfl
    | cons d rest =>
      obtain ⟨rfl, _⟩ := List.cons.inj h
      exact hends _ _ rfl
  have hne : id ≠ [] := by
    obtain ⟨c, cs, rfl, _⟩ := hid
    exact List.cons_ne_nil _ _
  have hident : ∀ active load,
      ({ s with mode := .uimode, text := id ++ rest ++ '\n' :: v } : Scanner).flexStep active load =
        ({ s with mode := .strmode, text := rest ++ '\n' :: v },
          some (.token ⟨.tIdent, id⟩ id)) := by
    intro active load
    have hnul : nul ∉ id := Pattern.notMem_of_avoids (p := ident) rfl (mem_ident.mpr hid)
    rw [Scanner.flexStep_rule rfl hne (List.append_assoc _ _ _) (pick_ui hid hssh hbehind)]
    show (_, some (Event.token ⟨.tIdent, cstr id⟩ (cstr id))) = _
    rw [cstr_eq_self hnul]
    rfl
  exact .token hident (delivers_line hline s v)

/-- A blank in `UIMODE` is echoed. -/
theorem delivers_uiBlanks (hw : ∀ c ∈ w, whitespace.mem c = true) (s : Scanner) (v : List Char) :
    Delivers { s with mode := .uimode, text := w ++ v } []
      { s with mode := .uimode, text := v } := by
  induction w with
  | nil => exact .refl _
  | cons c w ih =>
    obtain ⟨hc, hw⟩ := List.forall_mem_cons.mp hw
    have hnone : ∀ c, whitespace.mem c = true →
        scanState (rulesOf .uimode) 0 none [c] = ([], none) :=
      forall_blank rfl rfl
    have hecho : ∀ active load,
        ({ s with mode := .uimode, text := c :: w ++ v } : Scanner).flexStep active load =
          ({ s with mode := .uimode, text := w ++ v }, none) :=
      fun _ _ => Scanner.flexStep_of_none rfl (pick_of_dead (hnone c hc) (w ++ v))
    exact .skip hecho (ih hw)

/-- **`ssh`, the user interface and its options.** -/
theorem delivers_ssh {id rest : List Char} (hw : IsBlanks w) (hid : Ident id)
    (hssh : id ≠ "ssh".toList) (hends : IdentEnds rest) (hline : '\n' ∉ rest) (s : Scanner)
    (v : List Char) :
    Delivers { s with mode := .uimode, text := "ssh".toList ++ w ++ id ++ rest ++ '\n' :: v }
      [⟨.tSsh, []⟩, ⟨.tIdent, id⟩, ⟨.tString, dropBlanks (cstr rest)⟩]
      { s with mode := .initial, text := '\n' :: v } := by
  have hsplit : "ssh".toList ++ w ++ id ++ rest ++ '\n' :: v =
      "ssh".toList ++ (w ++ (id ++ rest ++ '\n' :: v)) := by simp
  have hbehind : IdentEnds (w ++ (id ++ rest ++ '\n' :: v)) := by
    obtain ⟨c, w, rfl⟩ := List.exists_cons_of_ne_nil hw.1
    intro d tail h
    obtain ⟨rfl, _⟩ := List.cons.inj h
    exact forall_blank (P := fun c => idRest.mem c = false) rfl rfl c
      (hw.2 c List.mem_cons_self)
  have hpick : pick (rulesOf .uimode) ("ssh".toList ++ (w ++ (id ++ rest ++ '\n' :: v))) =
      some ("ssh".toList.length, sshRule) :=
    pick_uimode ident_ssh hbehind
  have hword : ∀ active load,
      ({ s with mode := .uimode, text := "ssh".toList ++ w ++ id ++ rest ++ '\n' :: v } :
        Scanner).flexStep active load =
      ({ s with mode := .uimode, text := w ++ (id ++ rest ++ '\n' :: v) },
        some (.token ⟨.tSsh, []⟩ "ssh".toList)) := by
    intro active load
    rw [Scanner.flexStep_rule (m := .uimode) rfl (by decide) hsplit hpick]
    rfl
  exact .token hword ((delivers_uiBlanks hw.2 s _).trans (delivers_ui hid hssh hends hline s v))

end Keyword

/-! ## Pieces -/

/-- **A beginning of a text**: the tokens that it stands for, the piece itself, and what comes
behind it. A statement that takes the rest of its line ends in front of the line break. -/
inductive Piece : List Token → List Char → List Char → Prop where
  | blanks {w v : List Char} (hw : IsBlanks w) (hv : dropBlanks v = v) : Piece [] w v
  | newline (v : List Char) : Piece [] ['\n'] v
  | comment {text : List Char} (htext : '\n' ∉ text) (v : List Char) :
    Piece [] ('#' :: text) ('\n' :: v)
  | punctuation {c : Char} (hc : c ∈ punctuation) (v : List Char) :
    Piece [⟨charKind c, []⟩] [c] v
  | word {w v : List Char} {k : Kind} {val : Bool} {modes : List Mode} {p : Pattern}
    (hw : IsWord w) (hv : AtDelimiter v)
    (hpick : pick (rulesOf .initial) w = some (w.length, rule modes p (.token k val none))) :
    Piece [⟨k, if val then cstr w else []⟩] w v
  | timeout {w v : List Char} (hw : IsBlanks w) (hv : dropBlanks v = v) :
    Piece [⟨.tTimeout, []⟩] ("timeout".toList ++ w) v
  | line {kw w str : List Char} {k : Kind} (hkw : (kw, k) ∈ lineStatements) (hw : IsBlanks w)
    (hstr : IsLine str) (v : List Char) :
    Piece [⟨k, []⟩, ⟨.tString, str⟩] (kw ++ w ++ str) ('\n' :: v)
  | file {kw w str : List Char} {k : Kind} {val : Bool} (hkw : (kw, k, val) ∈ fileStatements)
    (hw : IsBlanks w) (hstr : IsLine str) (hnone : ¬ HasScheme str) (v : List Char) :
    Piece [⟨k, if val then cstr (kw ++ w) else []⟩, ⟨.tString, str⟩] (kw ++ w ++ str) ('\n' :: v)
  | uri {kw w start line : List Char} {k : Kind} {c : Char} (hkw : (kw, k) ∈ uriStatements)
    (hw : IsBlanks w) (hstart : start ∈ uriStart.lang) (hc : c ≠ '(') (hline : '\n' ∉ line)
    (v : List Char) :
    Piece [⟨k, []⟩, ⟨.tUristart, start⟩, ⟨.tString, cstr (c :: line)⟩]
      (kw ++ w ++ start ++ c :: line) ('\n' :: v)
  | uriBracket {kw w start body tail : List Char} {k : Kind} (hkw : (kw, k) ∈ uriStatements)
    (hw : IsBlanks w) (hstart : start ∈ uriStart.lang) (hne : body ≠ []) (hbody : ')' ∉ body)
    (htail : '\n' ∉ tail) (v : List Char) :
    Piece [⟨k, []⟩, ⟨.tUristart, start⟩, ⟨.tUribracket, cstr ('(' :: body ++ [')'])⟩,
        ⟨.tString, dropBlanks (cstr tail)⟩]
      (kw ++ w ++ start ++ ('(' :: body ++ ')' :: tail)) ('\n' :: v)
  | userinterface {w id rest : List Char} (hw : IsBlanks w) (hid : Ident id)
    (hssh : id ≠ "ssh".toList) (hends : IdentEnds rest) (hline : '\n' ∉ rest) (v : List Char) :
    Piece [⟨.tUserinterface, []⟩, ⟨.tIdent, id⟩, ⟨.tString, dropBlanks (cstr rest)⟩]
      ("userinterface".toList ++ w ++ (id ++ rest)) ('\n' :: v)
  | ssh {w w' id rest : List Char} (hw : IsBlanks w) (hw' : IsBlanks w') (hid : Ident id)
    (hssh : id ≠ "ssh".toList) (hends : IdentEnds rest) (hline : '\n' ∉ rest) (v : List Char) :
    Piece [⟨.tUserinterface, []⟩, ⟨.tSsh, []⟩, ⟨.tIdent, id⟩, ⟨.tString, dropBlanks (cstr rest)⟩]
      ("userinterface".toList ++ w ++ ("ssh".toList ++ w' ++ id ++ rest)) ('\n' :: v)

/-- A value in front of the end of its line has no blanks in front either. -/
theorem dropBlanks_endLine {str : List Char} (h : dropBlanks str = str) (v : List Char) :
    dropBlanks (str ++ '\n' :: v) = str ++ '\n' :: v := by
  cases str with
  | nil => rfl
  | cons c str => exact dropBlanks_behind h (List.cons_ne_nil _ _) _

/-- The first character of an identifier is no blank. -/
theorem Ident.dropBlanks {id : List Char} (h : Ident id) (v : List Char) :
    Parser.dropBlanks (id ++ v) = id ++ v := by
  obtain ⟨c, cs, rfl, hc, _⟩ := h
  refine List.dropWhile_cons_of_neg fun hblank => ?_
  have hnot := forall_blank (P := fun c => idStart.mem c = false) rfl rfl c hblank
  rw [hc] at hnot
  cases hnot

/-- **The scanner delivers the tokens of a piece** and stands behind it. -/
theorem Piece.delivers {ts : List Token} {u v : List Char} (h : Piece ts u v) {s : Scanner}
    (hmode : s.mode = .initial) (htext : s.text = u ++ v) :
    ∃ lineno, Delivers s ts { s with lineno := lineno, text := v } := by
  have hinitial : ∀ {x : List Char}, ({ s with mode := .initial, text := x } : Scanner) =
      { s with text := x } := by
    intro x
    rw [← hmode]
  cases h with
  | blanks hw hv =>
    refine ⟨s.lineno, .skip (fun active load => ?_) (.refl _)⟩
    rw [Scanner.flexStep_rule hmode hw.1 htext (pick_blanks hw hv)]
    rfl
  | newline =>
    obtain ⟨lineno, h⟩ := lexes_newline s v hmode htext
    exact ⟨lineno, h⟩
  | @comment text htext' v =>
    refine ⟨s.lineno, .skip (fun active load => ?_) (.refl _)⟩
    have htaken : (ruleEol [.initial] (.seq (chr '#') anyLine) (.skip none)).taken
        (text.length + 2) = ('#' :: text).length := rfl
    rw [Scanner.flexStep_at (by simp [htext]) (by rw [hmode, htext, pick_comment htext' v]), htaken,
      htext, List.drop_left, List.take_left]
    rfl
  | @punctuation c hc =>
    obtain ⟨r, htrail, haction, hpick⟩ := pick_punctuation hc
    have hnul : cstr [c] = [c] := cstr_eq_self (by
      intro hmem
      obtain rfl := List.mem_singleton.mp hmem
      exact absurd hc (by decide))
    have hstep : ∀ active load, s.flexStep active load =
        ({ s with text := v }, some (.token ⟨charKind c, []⟩ [c])) := by
      intro active load
      have htaken : r.taken 1 = 1 := by rw [Rule.taken, htrail]; rfl
      rw [Scanner.flexStep_at (by simp [htext]) (by rw [hmode, htext, hpick]), htaken, haction,
        htext]
      show ({ s with text := v }, some (Event.token ⟨charKind c, []⟩ (cstr [c]))) = _
      rw [hnul]
    exact ⟨s.lineno, .token hstep (.refl _)⟩
  | @word w _ k val modes p hw hv hpick =>
    have hrule := pick_word hw hv
    rw [hpick] at hrule
    have hstep : ∀ active load, s.flexStep active load =
        ({ s with text := v }, some (.token ⟨k, if val then cstr u else []⟩ (cstr u))) := by
      intro active load
      rw [Scanner.flexStep_rule hmode hw.ne_nil htext hrule]
      rfl
    exact ⟨s.lineno, .token hstep (.refl _)⟩
  | timeout hw hv =>
    have hstep := timeout_reads.flexStep hw hv hmode htext
    rw [Option.getD_none, hinitial] at hstep
    exact ⟨s.lineno, .token hstep (.refl _)⟩
  | line hkw hw hstr =>
    have hstep := (lineStatements_read hkw).flexStep hw (dropBlanks_endLine hstr.blanks _) hmode
      (htext.trans (List.append_assoc _ _ _))
    have hline := fun v => delivers_line hstr.newline s v
    simp only [cstr_eq_self hstr.nul, hstr.blanks, hinitial] at hline
    exact ⟨s.lineno, .token hstep (hline _)⟩
  | file hkw hw hstr hnone =>
    have hstep := fileStatement_flexStep hkw hw (dropBlanks_endLine hstr.blanks _)
      (mt hasScheme_line.mp hnone) hmode (htext.trans (List.append_assoc _ _ _))
    have hline := fun v => delivers_line hstr.newline s v
    simp only [cstr_eq_self hstr.nul, hstr.blanks, hinitial] at hline
    exact ⟨s.lineno, .token hstep (hline _)⟩
  | uri hkw hw hstart hc hline =>
    have hhead := uriStatement_delivers hkw hw hstart hmode (htext.trans (List.append_assoc _ _ _))
    have hrest := fun v => delivers_uriLine hc hline s v
    simp only [hinitial] at hrest
    exact ⟨s.lineno, hhead.trans (hrest _)⟩
  | uriBracket hkw hw hstart hne hbody htail =>
    have hhead := uriStatement_delivers hkw hw hstart hmode (htext.trans (List.append_assoc _ _ _))
    have hrest := fun v => delivers_uriBracket hne hbody htail s v
    simp only [hinitial] at hrest
    exact ⟨s.lineno, hhead.trans (hrest _)⟩
  | @userinterface w id rest hw hid hssh hends hline v =>
    have hblanks : Parser.dropBlanks (id ++ rest ++ '\n' :: v) = id ++ rest ++ '\n' :: v := by
      rw [List.append_assoc]
      exact hid.dropBlanks _
    have hstep := userinterface_reads.flexStep hw hblanks hmode
      (htext.trans (List.append_assoc _ _ _))
    have hui := delivers_ui hid hssh hends hline s v
    rw [hinitial] at hui
    exact ⟨s.lineno, .token hstep hui⟩
  | @ssh w w' id rest hw hw' hid hssh hends hline v =>
    have hblanks : Parser.dropBlanks ("ssh".toList ++ w' ++ id ++ rest ++ '\n' :: v) =
        "ssh".toList ++ w' ++ id ++ rest ++ '\n' :: v := rfl
    have hstep := userinterface_reads.flexStep hw hblanks hmode
      (htext.trans (List.append_assoc _ _ _))
    have hssh := delivers_ssh hw' hid hssh hends hline s v
    rw [hinitial] at hssh
    exact ⟨s.lineno, .token hstep hssh⟩

end Sysload.Parser
