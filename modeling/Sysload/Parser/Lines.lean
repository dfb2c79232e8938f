import Sysload.Parser.Entries

/-!
# The lines of a boot entry

How the scanner reads a line of a boot entry back, whatever comes behind the line. A line is a keyword
and a value. A title, a label or a command line may be any rest of a line without blanks in front
(`lexes_title`); a file name is taken for a URI if it begins like one (`lexes_file`,
`lexes_uri`).

`Delivers` are the tokens of a run of the scanner, `Lexes` those of a text at the beginning of the
input.

Source: `src/core/sysload.conf.l`, the rules for keywords, `STRMODE`, `URIMODE` and `URIRESTMODE`.
-/

namespace Sysload.Parser

open Lexer

/-! ## Runs of the scanner -/

/-- The scanner delivers these tokens, in every section and whatever could be included. -/
inductive Delivers : Scanner → List Token → Scanner → Prop where
  | refl (s : Scanner) : Delivers s [] s
  | skip {s x s' : Scanner} {ts : List Token}
    (h : ∀ active load, s.flexStep active load = (x, none)) (hrest : Delivers x ts s') :
    Delivers s ts s'
  | token {s x s' : Scanner} {t : Token} {yytext : CStr} {ts : List Token}
    (h : ∀ active load, s.flexStep active load = (x, some (.token t yytext)))
    (hrest : Delivers x ts s') : Delivers s (t :: ts) s'

theorem Delivers.trans {s x s' : Scanner} {ts us : List Token} (h : Delivers s ts x)
    (h' : Delivers x us s') : Delivers s (ts ++ us) s' := by
  induction h with
  | refl s => exact h'
  | skip h _ ih => exact .skip h (ih h')
  | token h _ ih => exact .token h (ih h')

/-- The text is read as these tokens, whatever comes behind it. -/
def Lexes (text : List Char) (ts : List Token) : Prop :=
  ∀ (s : Scanner) (rest : List Char), s.mode = .initial → s.text = text ++ rest →
    ∃ lineno, Delivers s ts { s with lineno := lineno, text := rest }

theorem lexes_nil : Lexes [] [] := by
  intro s rest _ htext
  obtain rfl : s.text = rest := htext
  exact ⟨s.lineno, .refl s⟩

theorem Lexes.append {u v : List Char} {ts us : List Token} (h : Lexes u ts) (h' : Lexes v us) :
    Lexes (u ++ v) (ts ++ us) := by
  intro s rest hmode htext
  obtain ⟨l, hl⟩ := h s (v ++ rest) hmode (by rw [htext, List.append_assoc])
  obtain ⟨l', hl'⟩ := h' { s with lineno := l, text := v ++ rest } rest hmode rfl
  exact ⟨l', hl.trans hl'⟩

section Step

variable {active : Bool} {load : CStr → Option (List Char)} {s : Scanner}

theorem Scanner.flexStep_at (hne : s.text ≠ []) {n : Nat} {r : Rule}
    (hpick : pick (rulesOf s.mode) s.text = some (n, r)) :
    s.flexStep active load =
      { s with text := s.text.drop (r.taken n) }.act active load (s.text.take (r.taken n))
        r.action := by
  obtain ⟨c, rest, htext⟩ := List.exists_cons_of_ne_nil hne
  exact flexStep_of_pick htext (htext ▸ hpick)

/-- A rule without trailing context takes the text it matches. -/
theorem Scanner.flexStep_rule {m : Mode} {p : Pattern} {a : Action} {modes : List Mode}
    {w rest : List Char} (hmode : s.mode = m) (hne : w ≠ []) (htext : s.text = w ++ rest)
    (hpick : pick (rulesOf m) (w ++ rest) = some (w.length, rule modes p a)) :
    s.flexStep active load = { s with text := rest }.act active load w a := by
  have htaken : (rule modes p a).taken w.length = w.length := rfl
  have hstep := @Scanner.flexStep_at active load s (by simp [htext, hne]) w.length (rule modes p a)
    (by rw [hmode, htext, hpick])
  rwa [htaken, htext, List.drop_left, List.take_left] at hstep

end Step

theorem pick_append (rs : List (Pattern × Rule)) (u v : List Char) :
    pick rs (u ++ v) = scan (scanState rs 0 none u).1 u.length (scanState rs 0 none u).2 v := by
  rw [pick, scan_append, Nat.zero_add]

/-! ## Words -/

/-- The end of a line. -/
theorem lexes_newline : Lexes ['\n'] [] := by
  rintro ⟨mode, lineno, text, stack⟩ rest hmode htext
  obtain rfl : mode = .initial := hmode
  have hstate : scanState (rulesOf .initial) 0 none ['\n'] =
      ([(.eps, rule [.initial] (chr '\n') .newline)], none) := rfl
  have hpick : pick (rulesOf .initial) (['\n'] ++ rest) =
      some (1, rule [.initial] (chr '\n') .newline) := by
    rw [pick_append, hstate]
    exact scan_eps _ _ _ rest
  refine ⟨lineno + 1, .skip (fun active load => ?_) (.refl _)⟩
  rw [Scanner.flexStep_rule (w := ['\n']) rfl (List.cons_ne_nil _ _) htext hpick]
  rfl

/-- A word in front of a character that cannot belong to it. -/
theorem Lexes.word {w v : List Char} {d : Char} {ts : List Token} {modes : List Mode} {p : Pattern}
    {a : Action} {t : Token}
    (hstate : scanState (rulesOf .initial) 0 none (w ++ [d]) = ([], some (w.length, rule modes p a)))
    (hne : w ≠ []) (hact : ∀ (s : Scanner) active load,
      s.act active load w a = (s, some (.token t (cstr w))))
    (h : Lexes (d :: v) ts) : Lexes (w ++ d :: v) (t :: ts) := by
  intro s rest hmode htext
  have hpick : pick (rulesOf .initial) (w ++ (d :: v ++ rest)) = some (w.length, rule modes p a) := by
    have hdead := pick_of_dead hstate (v ++ rest)
    rwa [List.append_assoc] at hdead
  rw [List.append_assoc] at htext
  obtain ⟨lineno, hrest⟩ := h { s with text := d :: v ++ rest } rest hmode rfl
  have hstep : ∀ active load, s.flexStep active load =
      ({ s with text := d :: v ++ rest }, some (.token t (cstr w))) := by
    intro active load
    rw [Scanner.flexStep_rule hmode hne htext hpick, hact]
  exact ⟨lineno, .token hstep hrest⟩

/-- A blank in front of a word. -/
theorem Lexes.blank {v : List Char} {d : Char} {ts : List Token}
    (hstate : scanState (rulesOf .initial) 0 none [' ', d] =
      ([], some (1, rule [.urimode, .initial] blanks (.skip none))))
    (h : Lexes (d :: v) ts) : Lexes (' ' :: d :: v) ts := by
  intro s rest hmode htext
  have hpick : pick (rulesOf .initial) ([' '] ++ (d :: v ++ rest)) =
      some (1, rule [.urimode, .initial] blanks (.skip none)) := pick_of_dead hstate (v ++ rest)
  obtain ⟨lineno, hrest⟩ := h { s with text := d :: v ++ rest } rest hmode rfl
  refine ⟨lineno, .skip (fun active load => ?_) hrest⟩
  rw [Scanner.flexStep_rule (w := [' ']) hmode (List.cons_ne_nil _ _) htext hpick]
  rfl

/-! ## Values -/

/-- What is left of the blanks behind a keyword. -/
abbrev moreBlanks : Pattern := .star (.cls whitespace)

theorem blanks_nil {w u v : List Char} (hw : dropBlanks w = w) (hsplit : w = u ++ v)
    (hu : ∀ c ∈ u, whitespace.mem c = true) : u = [] := by
  cases u with
  | nil => rfl
  | cons c u =>
    subst hsplit
    have hlen := congrArg List.length hw
    rw [List.cons_append, dropBlanks, List.dropWhile_cons_of_pos (hu c List.mem_cons_self),
      List.length_cons] at hlen
    have hle := (List.dropWhile_suffix (l := u ++ v) whitespace.mem).length_le
    omega

theorem head_notBlank {c : Char} {w : List Char} (h : dropBlanks (c :: w) = c :: w) :
    whitespace.mem c = false := by
  by_contra hc
  have hnil := blanks_nil h (u := [c]) rfl
    fun d hd => by rw [List.mem_singleton.mp hd]; simpa using hc
  cases hnil

section Scan

variable {a b : Rule} {n : Nat} {best : Option (Nat × Rule)}

/-- **A URI behind a keyword.** -/
theorem scan_scheme {rs : List (Pattern × Rule)} (hmem : (.seq moreBlanks uriStart, b) ∈ rs)
    (hall : ∀ x ∈ rs, x = (moreBlanks, a) ∨ x = (.seq moreBlanks uriStart, b))
    (hbest : ∀ m r, best = some (m, r) → m < n) {start : List Char} (hstart : start ∈ uriStart.lang)
    (rest : List Char) : scan rs n best (start ++ rest) = some (n + start.length, b) := by
  have hpos := List.length_pos_of_ne_nil (uriStart_ne_nil hstart)
  have hblanks := uriStart_blanks hstart rest
  refine scan_unique hmem (by simp) ?_ (fun m r h => ?_) fun q c j hq hj hle hlang => ?_
  · rw [List.take_left]
    exact ⟨[], Language.nil_mem_kstar _, start, hstart, rfl⟩
  · have := hbest m r h
    omega
  have hsplit := (List.take_append_drop j (start ++ rest)).symm
  rcases hall _ hq with heq | heq <;> obtain ⟨rfl, rfl⟩ := Prod.mk.inj heq
  · have hnil := blanks_nil hblanks hsplit (Pattern.mem_star_cls.mp hlang)
    have hlen := List.length_take_of_le hj
    rw [hnil, List.length_nil] at hlen
    omega
  · obtain ⟨u, hu, start', hstart', htake⟩ := Language.mem_mul.mp hlang
    rw [← htake, List.append_assoc] at hsplit
    obtain rfl := blanks_nil hblanks hsplit (Pattern.mem_star_cls.mp hu)
    have hlen := List.length_take_of_le hj
    rw [← htake, ← uriStart_unique hstart hstart' hsplit] at hlen
    exact ⟨hlen.symm, rfl⟩

/-- **No URI behind a keyword.** -/
theorem scan_noScheme (hbest : ∀ m r, best = some (m, r) → m < n) {w : List Char}
    (hblanks : dropBlanks w = w) (hnone : ¬ HasScheme w) :
    scan [(moreBlanks, a), (.seq moreBlanks uriStart, b)] n best w = some (n, a) := by
  refine scan_unique (k := 0) List.mem_cons_self (Nat.zero_le _) (Language.nil_mem_kstar _) hbest
    fun q c j hq hj hle hlang => ?_
  have hsplit := (List.take_append_drop j w).symm
  simp only [List.mem_cons, List.not_mem_nil, or_false, Prod.mk.injEq] at hq
  rcases hq with ⟨rfl, rfl⟩ | ⟨rfl, rfl⟩
  · have hnil := blanks_nil hblanks hsplit (Pattern.mem_star_cls.mp hlang)
    have hlen := List.length_take_of_le hj
    rw [hnil, List.length_nil] at hlen
    exact ⟨hlen.symm, rfl⟩
  · obtain ⟨u, hu, start, hstart, htake⟩ := Language.mem_mul.mp hlang
    rw [← htake, List.append_assoc] at hsplit
    obtain rfl := blanks_nil hblanks hsplit (Pattern.mem_star_cls.mp hu)
    exact absurd ⟨start, hstart, w.drop j, hsplit.symm⟩ hnone

end Scan

/-- The blank in front of a URI. -/
theorem pick_uriBlank {start : List Char} (hstart : start ∈ uriStart.lang) (rest : List Char) :
    pick (rulesOf .urimode) ([' '] ++ (start ++ rest)) =
      some (1, rule [.urimode, .initial] blanks (.skip none)) := by
  have hstate : scanState (rulesOf .urimode) 0 none [' '] =
      ([(moreBlanks, rule [.urimode, .initial] blanks (.skip none)),
        (.eps, rule [.urimode, .initial] (.cls anyChar) (.token .tUnrecognized true none))], none) :=
    rfl
  obtain ⟨c, tail, rfl⟩ := List.exists_cons_of_ne_nil (uriStart_ne_nil hstart)
  have hc := head_notBlank (uriStart_blanks hstart rest)
  have hlive : live c [(moreBlanks, rule [.urimode, .initial] blanks (.skip none)),
      (.eps, rule [.urimode, .initial] (.cls anyChar) (.token .tUnrecognized true none))] = [] := by
    simp [live, moreBlanks, Pattern.deriv, Pattern.mkSeq, hc]
  rw [pick_append, hstate]
  exact scan_stop hlive _ _ _

theorem pick_uriStart {start : List Char} (hstart : start ∈ uriStart.lang) (rest : List Char) :
    pick (rulesOf .urimode) (start ++ rest) =
      some (start.length, rule [.urimode] uriStart (.token .tUristart true (some .urirestmode))) := by
  have hmin : 4 ≤ start.length := Pattern.minLen_le hstart
  refine pick_unique (rulesOf_urimode ▸ List.mem_cons_self) (by simp) (by rwa [List.take_left])
    fun q c j hq hj hle hlang => ?_
  have hsplit := (List.take_append_drop j (start ++ rest)).symm
  have hlen := List.length_take_of_le hj
  simp only [rulesOf_urimode, List.mem_cons, List.not_mem_nil, or_false, Prod.mk.injEq] at hq
  rcases hq with ⟨rfl, rfl⟩ | ⟨rfl, rfl⟩ | ⟨rfl, rfl⟩
  · rw [← uriStart_unique hstart hlang hsplit] at hlen
    exact ⟨hlen.symm, rfl⟩
  · have hnil := blanks_nil (uriStart_blanks hstart rest) hsplit (mem_plus_cls.mp hlang).2
    rw [hnil, List.length_nil] at hlen
    omega
  · obtain ⟨d, _, hd⟩ := hlang
    rw [hd, List.length_singleton] at hlen
    omega

/-- The rest of a URI without brackets. -/
theorem pick_uriLine {c : Char} {line : List Char} (hc : c ≠ '(') (hline : '\n' ∉ line)
    (rest : List Char) :
    pick (rulesOf .urirestmode) (c :: line ++ '\n' :: rest) =
      some (line.length + 2, ruleEol [.urirestmode] uriLine (.token .tString true (some .initial))) := by
  have htext : (c :: line ++ '\n' :: rest).take (line.length + 2) = c :: (line ++ ['\n']) := by
    simp [List.take_append]
  refine pick_unique (rulesOf_urirestmode ▸ List.mem_cons_of_mem _ List.mem_cons_self) (by simp) ?_
    fun q d j hq hj hle hlang => ?_
  · rw [htext]
    exact ⟨c :: line, mem_uriLine.mpr ⟨c, line, rfl, hc, hline⟩, ['\n'], mem_lang_chr.mpr rfl, rfl⟩
  have hsplit := List.take_append_drop j (c :: line ++ '\n' :: rest)
  have hlen := List.length_take_of_le hj
  simp only [rulesOf_urirestmode, List.mem_cons, List.not_mem_nil, or_false, Prod.mk.injEq] at hq
  rcases hq with ⟨rfl, rfl⟩ | ⟨rfl, rfl⟩
  · obtain ⟨body, hbody, _⟩ := mem_uriBracket.mp hlang
    rw [hbody] at hsplit
    exact absurd (List.cons.inj hsplit).1.symm hc
  · obtain ⟨u, hu, eol, heol, htake⟩ := Language.mem_mul.mp hlang
    obtain rfl := mem_lang_chr.mp heol
    obtain ⟨c', line', rfl, _, hline'⟩ := mem_uriLine.mp hu
    rw [← htake, List.append_assoc] at hsplit
    rw [← htake, before_unique hline' hline (List.cons.inj hsplit).2] at hlen
    simp only [List.length_append, List.length_cons, List.length_nil] at hlen
    exact ⟨by omega, rfl⟩

/-- The brackets of a URI. -/
theorem pick_uriBracket {body : List Char} (hne : body ≠ []) (hbody : ')' ∉ body)
    (rest : List Char) :
    pick (rulesOf .urirestmode) ('(' :: body ++ ')' :: rest) =
      some (body.length + 2, rule [.urirestmode] uriBracket (.token .tUribracket true (some .strmode))) := by
  have htext : ('(' :: body ++ ')' :: rest).take (body.length + 2) = '(' :: body ++ [')'] := by
    simp [List.take_append]
  refine pick_unique (rulesOf_urirestmode ▸ List.mem_cons_self) (by simp) ?_
    fun q d j hq hj hle hlang => ?_
  · rw [htext]
    exact mem_uriBracket.mpr ⟨body, rfl, hne, hbody⟩
  have hsplit := List.take_append_drop j ('(' :: body ++ ')' :: rest)
  have hlen := List.length_take_of_le hj
  simp only [rulesOf_urirestmode, List.mem_cons, List.not_mem_nil, or_false, Prod.mk.injEq] at hq
  rcases hq with ⟨rfl, rfl⟩ | ⟨rfl, rfl⟩
  · obtain ⟨body', htake, _, hbody'⟩ := mem_uriBracket.mp hlang
    rw [htake, List.append_assoc] at hsplit
    rw [htake, before_unique hbody' hbody (List.cons.inj hsplit).2] at hlen
    simp only [List.length_append, List.length_cons, List.length_nil] at hlen
    exact ⟨by omega, rfl⟩
  · obtain ⟨u, hu, eol, _, htake⟩ := Language.mem_mul.mp hlang
    obtain ⟨c, line, rfl, hc, _⟩ := mem_uriLine.mp hu
    rw [← htake] at hsplit
    exact absurd (List.cons.inj hsplit).1 hc

/-! ## Lines -/

section Line

variable {kw value : List Char} {k : Kind} {p : Pattern}

/-- **A line with a string.** -/
theorem lexes_line {val : Bool} (hvalue : IsLine value)
    (hpick : ∀ rest, pick (rulesOf .initial) (kw ++ [' '] ++ (value ++ '\n' :: rest)) =
      some ((kw ++ [' ']).length, rule [.initial] p (.token k val (some .strmode)))) :
    Lexes (kw ++ ' ' :: value ++ ['\n'])
      [⟨k, if val then cstr (kw ++ [' ']) else []⟩, ⟨.tString, value⟩] := by
  intro s rest hmode htext
  have hsplit : kw ++ ' ' :: value ++ ['\n'] ++ rest = kw ++ [' '] ++ (value ++ '\n' :: rest) := by
    simp
  obtain ⟨lineno, hend⟩ := lexes_newline { s with text := '\n' :: rest } rest hmode rfl
  have hvalue' : dropBlanks (cstr value) = value := by rw [cstr_eq_self hvalue.nul, hvalue.blanks]
  have hkeyword : ∀ active load, s.flexStep active load =
      ({ s with mode := .strmode, text := value ++ '\n' :: rest },
        some (.token ⟨k, if val then cstr (kw ++ [' ']) else []⟩ (cstr (kw ++ [' '])))) := by
    intro active load
    exact Scanner.flexStep_rule hmode (by simp) (htext.trans hsplit) (hpick rest)
  have hstring : ∀ active load,
      ({ s with mode := .strmode, text := value ++ '\n' :: rest } : Scanner).flexStep active load =
      ({ s with text := '\n' :: rest }, some (.token ⟨.tString, value⟩ (cstr value))) := by
    intro active load
    rw [Scanner.flexStep_strmode rfl hvalue.newline rfl, hvalue', hmode]
  exact ⟨lineno, .token hkeyword (.token hstring hend)⟩

/-- The tokens of a `uri`. -/
inductive UriTokens : CStr → List Token → Prop where
  | line (start rest : CStr) : UriTokens (start ++ rest) [⟨.tUristart, start⟩, ⟨.tString, rest⟩]
  | bracket (start body rest : CStr) :
    UriTokens (start ++ body ++ rest)
      [⟨.tUristart, start⟩, ⟨.tUribracket, body⟩, ⟨.tString, rest⟩]

/-- The rest of a URI behind its scheme. -/
theorem delivers_uriRest {str : CStr} (h : UriRest str) (hnul : nul ∉ str) (start : CStr) :
    ∃ ts, UriTokens (start ++ str) (⟨.tUristart, start⟩ :: ts) ∧
      ∀ (s : Scanner) (rest : List Char), s.mode = .urirestmode → s.text = str ++ '\n' :: rest →
        Delivers s ts { s with mode := .initial, text := '\n' :: rest } := by
  cases h with
  | @line c line hc hline =>
    refine ⟨_, .line start (c :: line), fun s rest hmode htext => ?_⟩
    have hstep : ∀ active load, s.flexStep active load =
        ({ s with mode := .initial, text := '\n' :: rest },
          some (.token ⟨.tString, c :: line⟩ (c :: line))) := by
      intro active load
      have hpick := pick_uriLine hc hline rest
      have htaken : (ruleEol [.urirestmode] uriLine (.token .tString true (some .initial))).taken
          (line.length + 2) = (c :: line).length := rfl
      rw [Scanner.flexStep_at (by simp [htext]) (by rw [hmode, htext, hpick]), htaken, htext,
        List.drop_left, List.take_left]
      show (_, some (Event.token ⟨.tString, cstr (c :: line)⟩ (cstr (c :: line)))) = _
      rw [cstr_eq_self hnul]
      rfl
    exact .token hstep (.refl _)
  | @bracket body tail hne hbody htail =>
    have hsplit : '(' :: body ++ ')' :: tail = '(' :: body ++ [')'] ++ tail := by simp
    rw [hsplit] at hnul ⊢
    have hnuls := not_or.mp (mt List.mem_append.mpr hnul)
    have htokens := UriTokens.bracket start ('(' :: body ++ [')']) tail
    rw [List.append_assoc] at htokens
    refine ⟨_, htokens, fun s rest hmode htext => ?_⟩
    have hbracket : ∀ active load, s.flexStep active load =
        ({ s with mode := .strmode, text := tail ++ '\n' :: rest },
          some (.token ⟨.tUribracket, '(' :: body ++ [')']⟩ ('(' :: body ++ [')']))) := by
      intro active load
      have hpick := pick_uriBracket hne hbody (tail ++ '\n' :: rest)
      rw [Scanner.flexStep_rule hmode (w := '(' :: body ++ [')']) (by simp)
        (htext.trans (List.append_assoc _ _ _)) (by simpa using hpick)]
      show (_, some (Event.token ⟨.tUribracket, cstr ('(' :: body ++ [')'])⟩
        (cstr ('(' :: body ++ [')'])))) = _
      rw [cstr_eq_self hnuls.1]
      rfl
    have hstring : ∀ active load,
        ({ s with mode := .strmode, text := tail ++ '\n' :: rest } : Scanner).flexStep active load =
        ({ s with mode := .initial, text := '\n' :: rest },
          some (.token ⟨.tString, tail⟩ (cstr tail))) := by
      intro active load
      rw [Scanner.flexStep_strmode rfl htail.newline rfl, cstr_eq_self htail.nul, htail.blanks]
    exact .token hbracket (.token hstring (.refl _))

/-- **A line with a URI.** The scanner puts the URI back behind the keyword. -/
theorem lexes_uri (hvalue : IsUri value)
    (hpick : ∀ start rest, start ∈ uriStart.lang →
      pick (rulesOf .initial) (kw ++ [' '] ++ (start ++ rest)) =
        some ((kw ++ [' ']).length + start.length,
          rule [.initial] p (.less k kw.length .urimode))) :
    ∃ ts, UriTokens value ts ∧ Lexes (kw ++ ' ' :: value ++ ['\n']) (⟨k, []⟩ :: ts) := by
  obtain ⟨start, str, hstart, hrest, rfl⟩ := hvalue.parts
  have hnul : nul ∉ str := fun hmem => hvalue.nul (List.mem_append_right _ hmem)
  obtain ⟨ts, hts, hdelivers⟩ := delivers_uriRest hrest hnul start
  refine ⟨_, hts, fun s rest hmode htext => ?_⟩
  let uri := start ++ (str ++ '\n' :: rest)
  obtain ⟨lineno, hend⟩ := lexes_newline { s with text := '\n' :: rest } rest hmode rfl
  have hsplit : s.text = kw ++ [' '] ++ start ++ (str ++ '\n' :: rest) := by simp [htext]
  have hkeyword : ∀ active load, s.flexStep active load =
      ({ s with mode := .urimode, text := ' ' :: uri }, some (.token ⟨k, []⟩ (cstr kw))) := by
    intro active load
    have hrule := hpick start (str ++ '\n' :: rest) hstart
    rw [← List.append_assoc, ← List.length_append] at hrule
    rw [Scanner.flexStep_rule hmode (w := kw ++ [' '] ++ start) (by simp) hsplit hrule]
    have hback : (kw ++ [' '] ++ start).drop kw.length = ' ' :: start := by
      rw [List.append_assoc, List.drop_left]
      rfl
    have htake : (kw ++ [' '] ++ start).take kw.length = kw := by
      rw [List.append_assoc, List.take_left]
    unfold Scanner.act
    dsimp only
    rw [hback, htake]
    rfl
  have hblank : ∀ active load,
      ({ s with mode := .urimode, text := ' ' :: uri } : Scanner).flexStep active load =
        ({ s with mode := .urimode, text := uri }, none) := by
    intro active load
    have hpickBlank := pick_uriBlank hstart (str ++ '\n' :: rest)
    rw [Scanner.flexStep_rule (m := .urimode) (w := [' ']) rfl (by simp) rfl hpickBlank]
    rfl
  have hscheme : ∀ active load,
      ({ s with mode := .urimode, text := uri } : Scanner).flexStep active load =
        ({ s with mode := .urirestmode, text := str ++ '\n' :: rest },
          some (.token ⟨.tUristart, start⟩ (cstr start))) := by
    intro active load
    rw [Scanner.flexStep_rule rfl (uriStart_ne_nil hstart) rfl (pick_uriStart hstart _)]
    show (_, some (Event.token ⟨.tUristart, cstr start⟩ (cstr start))) = _
    rw [cstr_eq_self (uriStart_nul hstart)]
    rfl
  have huri := hdelivers { s with mode := .urirestmode, text := str ++ '\n' :: rest } rest rfl rfl
  have hline := Delivers.token hkeyword (.skip hblank (.token hscheme huri))
  rw [← hmode] at hline
  exact ⟨lineno, (List.append_nil (_ :: _ :: ts)) ▸ hline.trans hend⟩

/-- A keyword that is taken for an identifier without a blank behind it. -/
def identRule : Rule := rule [.modmode, .initial] ident (.token .tIdent true none)

theorem dropBlanks_behind (hvalue : dropBlanks value = value) (hne : value ≠ []) (rest : List Char) :
    dropBlanks (value ++ rest) = value ++ rest := by
  obtain ⟨c, tail, rfl⟩ := List.exists_cons_of_ne_nil hne
  exact List.dropWhile_cons_of_neg (by simp [head_notBlank hvalue])

/-- **A keyword with any string.** -/
theorem lexes_title {val : Bool} {best : Option (Nat × Rule)}
    (hstate : scanState (rulesOf .initial) 0 none (kw ++ [' ']) =
      ([(moreBlanks, rule [.initial] p (.token k val (some .strmode)))], best))
    (hvalue : IsLine value) (hne : value ≠ []) :
    Lexes (kw ++ ' ' :: value ++ ['\n'])
      [⟨k, if val then cstr (kw ++ [' ']) else []⟩, ⟨.tString, value⟩] := by
  refine lexes_line (p := p) hvalue fun rest => ?_
  obtain ⟨c, tail, rfl⟩ := List.exists_cons_of_ne_nil hne
  have hc := head_notBlank hvalue.blanks
  have hlive : live c [(moreBlanks, rule [.initial] p (.token k val (some .strmode)))] = [] := by
    simp [live, moreBlanks, Pattern.deriv, Pattern.mkSeq, hc]
  rw [pick_append, hstate]
  exact scan_stop hlive _ _ _

/-- **A keyword with a file name.** -/
theorem lexes_file {val : Bool} {q : Pattern}
    (hstate : scanState (rulesOf .initial) 0 none (kw ++ [' ']) =
      ([(moreBlanks, rule [.initial] p (.token k val (some .strmode))),
        (.seq moreBlanks uriStart, rule [.initial] q (.less k kw.length .urimode))],
        some (kw.length, identRule)))
    (hvalue : ReadsBack value) (hne : value ≠ []) :
    Lexes (kw ++ ' ' :: value ++ ['\n'])
        [⟨k, if val then cstr (kw ++ [' ']) else []⟩, ⟨.tString, value⟩] ∨
      ∃ ts, UriTokens value ts ∧ Lexes (kw ++ ' ' :: value ++ ['\n']) (⟨k, []⟩ :: ts) := by
  have hbest : ∀ m r, some (kw.length, identRule) = some (m, r) → m < (kw ++ [' ']).length := by
    intro m r h
    cases h
    simp
  rcases hvalue with huri | ⟨hline, hnone⟩
  · refine Or.inr (lexes_uri (p := q) huri fun start rest hstart => ?_)
    rw [pick_append, hstate]
    exact scan_scheme (List.mem_cons_of_mem _ List.mem_cons_self) (fun x hx => by simpa using hx)
      hbest hstart rest
  · refine Or.inl (lexes_line (p := p) hline fun rest => ?_)
    rw [pick_append, hstate]
    exact scan_noScheme hbest (dropBlanks_behind hline.blanks hne _) fun h =>
      hnone (hasScheme_line.mp h)

/-- **A keyword that needs a URI.** -/
theorem lexes_root
    (hstate : scanState (rulesOf .initial) 0 none (kw ++ [' ']) =
      ([(.seq moreBlanks uriStart, rule [.initial] p (.less k kw.length .urimode))],
        some (kw.length, identRule)))
    (hvalue : IsUri value) :
    ∃ ts, UriTokens value ts ∧ Lexes (kw ++ ' ' :: value ++ ['\n']) (⟨k, []⟩ :: ts) := by
  have hbest : ∀ m r, some (kw.length, identRule) = some (m, r) → m < (kw ++ [' ']).length := by
    intro m r h
    cases h
    simp
  refine lexes_uri (p := p) hvalue fun start rest hstart => ?_
  rw [pick_append, hstate]
  exact scan_scheme (a := identRule) List.mem_cons_self
    (fun x hx => Or.inr (List.mem_singleton.mp hx)) hbest hstart rest

end Line

end Sysload.Parser
