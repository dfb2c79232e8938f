import Sysload.Parser.Independence
import Sysload.Parser.Selection
import Mathlib.Data.List.DropRight
import Mathlib.Data.List.TakeWhile

/-!
# The strings of a boot entry (`sysload.conf.l`, `sysload.conf.y`)

Which strings a parse can put into a boot entry. What the scanner returns behind a keyword depends on
the start condition that the keyword leads to: the rest of a line in `STRMODE`, a URI in `URIMODE`
and `URIRESTMODE`.

Source: `src/core/sysload.conf.l` and `src/core/sysload.conf.y`, the options of a boot entry.
-/

namespace Sysload.Parser

open Lexer

/-! ## Strings -/

/-- The rest of a line, without the blanks in front of it. -/
structure IsLine (str : CStr) : Prop where
  newline : '\n' ∉ str
  nul : nul ∉ str
  blanks : dropBlanks str = str

/-- The string begins like a URI. -/
def HasScheme (str : CStr) : Prop := ∃ start ∈ uriStart.lang, start <+: str

/-- A URI behind its scheme, as the scanner takes it in `URIRESTMODE`. -/
inductive UriRest : CStr → Prop where
  | line {c : Char} {line : CStr} (hc : c ≠ '(') (hline : '\n' ∉ line) : UriRest (c :: line)
  | bracket {body tail : CStr} (hne : body ≠ []) (hbody : ')' ∉ body) (htail : IsLine tail) :
    UriRest ('(' :: body ++ ')' :: tail)

/-- A URI that the scanner takes as it is. -/
structure IsUri (str : CStr) : Prop where
  nul : nul ∉ str
  parts : ∃ start rest, start ∈ uriStart.lang ∧ UriRest rest ∧ str = start ++ rest

theorem isLine_nil : IsLine [] := ⟨List.not_mem_nil, List.not_mem_nil, rfl⟩

theorem dropBlanks_subset {str : CStr} {c : Char} (h : c ∈ dropBlanks str) : c ∈ str :=
  (List.dropWhile_suffix _).mem h

theorem dropBlanks_dropBlanks (str : CStr) : dropBlanks (dropBlanks str) = dropBlanks str :=
  List.dropWhile_idempotent _ str

theorem whitespace_mem {c : Char} : whitespace.mem c = true ↔ c = ' ' ∨ c = '\t' := by
  have hle : ∀ d : Char, (d ≤ c ∧ c ≤ d) ↔ c = d := fun d =>
    ⟨fun h => Char.le_antisymm h.2 h.1, fun h => h ▸ ⟨Char.le_refl _, Char.le_refl _⟩⟩
  simp [CharClass.mem, whitespace, hle]

theorem nul_notMem_cstr (mem : List Char) : nul ∉ cstr mem := by
  intro h
  exact absurd (List.mem_takeWhile_imp h) (by simp)

theorem cstr_subset {mem : List Char} {c : Char} (h : c ∈ cstr mem) : c ∈ mem :=
  (List.takeWhile_prefix _).mem h

/-- **The value of a string in `STRMODE`.** -/
theorem isLine_dropBlanks {line : List Char} (h : '\n' ∉ line) : IsLine (dropBlanks (cstr line)) where
  newline := fun hmem => h (cstr_subset (dropBlanks_subset hmem))
  nul := fun hmem => nul_notMem_cstr _ (dropBlanks_subset hmem)
  blanks := dropBlanks_dropBlanks _

theorem mem_lang_word {cs w : List Char} : w ∈ (word cs).lang ↔ w = cs := by
  induction cs generalizing w with
  | nil => exact Iff.rfl
  | cons c cs ih =>
    cases cs with
    | nil => exact mem_lang_chr
    | cons d cs =>
      show w ∈ (chr c).lang * (word (d :: cs)).lang ↔ _
      rw [Language.mem_mul]
      constructor
      · rintro ⟨a, ha, b, hb, rfl⟩
        rw [mem_lang_chr.mp ha, ih.mp hb]
        rfl
      · rintro rfl
        exact ⟨[c], mem_lang_chr.mpr rfl, d :: cs, ih.mpr rfl, rfl⟩

/-- The scheme of a URI. -/
theorem mem_uriStart {w : List Char} :
    w ∈ uriStart.lang ↔ ∃ id ∈ ident.lang, w = id ++ [':', '/', '/'] := by
  show w ∈ ident.lang * uriMiddle.lang ↔ _
  rw [Language.mem_mul]
  constructor
  · rintro ⟨a, ha, b, hb, rfl⟩
    exact ⟨a, ha, by rw [mem_lang_word.mp hb]⟩
  · rintro ⟨a, ha, rfl⟩
    exact ⟨a, ha, _, mem_lang_word.mpr rfl, rfl⟩

/-- The brackets of a URI. -/
def uriBracket : Pattern := .seq (chr '(') (.seq (plus (noneOf [(')', ')')])) (chr ')'))

/-- The rest of a URI without brackets. -/
def uriLine : Pattern := .seq (noneOf [('(', '(')]) anyLine

theorem mem_noneOf {c d : Char} : (⟨true, [(d, d)]⟩ : CharClass).mem c = true ↔ c ≠ d := by
  simp only [CharClass.mem, List.any_cons, List.any_nil, Bool.or_false, bne_iff_ne, ne_eq,
    @eq_comm Bool true, Bool.and_eq_true, decide_eq_true_eq]
  exact not_congr ⟨fun h => Char.le_antisymm h.2 h.1, fun h => h ▸ ⟨Char.le_refl _, Char.le_refl _⟩⟩

theorem mem_anyLine {w : List Char} : w ∈ anyLine.lang ↔ '\n' ∉ w := by
  rw [anyLine, Pattern.mem_star_cls]
  constructor
  · exact fun h hmem => mem_noneOf.mp (h _ hmem) rfl
  · exact fun h c hc => mem_noneOf.mpr fun heq => h (heq ▸ hc)

/-- Any number of characters of a class, but not none. -/
theorem mem_plus_cls {k : CharClass} {w : List Char} :
    w ∈ (plus (.cls k)).lang ↔ w ≠ [] ∧ ∀ c ∈ w, k.mem c = true := by
  show w ∈ (Pattern.cls k).lang * (Pattern.star (.cls k)).lang ↔ _
  rw [Language.mem_mul]
  constructor
  · rintro ⟨a, ⟨c, hc, rfl⟩, b, hb, rfl⟩
    exact ⟨List.cons_ne_nil _ _, List.forall_mem_cons.mpr ⟨hc, Pattern.mem_star_cls.mp hb⟩⟩
  · rintro ⟨hne, hall⟩
    cases w with
    | nil => exact absurd rfl hne
    | cons c w =>
      obtain ⟨hc, hw⟩ := List.forall_mem_cons.mp hall
      exact ⟨[c], ⟨c, hc, rfl⟩, w, Pattern.mem_star_cls.mpr hw, rfl⟩

theorem mem_uriBracket {w : List Char} :
    w ∈ uriBracket.lang ↔ ∃ body, w = '(' :: body ++ [')'] ∧ body ≠ [] ∧ ')' ∉ body := by
  have hbody : ∀ body : List Char, body ∈ (plus (noneOf [(')', ')')])).lang ↔
      body ≠ [] ∧ ')' ∉ body := by
    intro body
    rw [noneOf, mem_plus_cls]
    refine and_congr_right fun _ => ?_
    constructor
    · exact fun h hmem => mem_noneOf.mp (h _ hmem) rfl
    · exact fun h c hc => mem_noneOf.mpr fun heq => h (heq ▸ hc)
  constructor
  · rintro ⟨a, ha, b, ⟨body, hmem, d, hd, rfl⟩, rfl⟩
    obtain rfl := mem_lang_chr.mp ha
    obtain rfl := mem_lang_chr.mp hd
    exact ⟨body, rfl, (hbody body).mp hmem⟩
  · rintro ⟨body, rfl, hmem⟩
    exact ⟨['('], mem_lang_chr.mpr rfl, _, ⟨body, (hbody body).mpr hmem, [')'],
      mem_lang_chr.mpr rfl, rfl⟩, rfl⟩

theorem mem_uriLine {w : List Char} :
    w ∈ uriLine.lang ↔ ∃ c line, w = c :: line ∧ c ≠ '(' ∧ '\n' ∉ line := by
  constructor
  · rintro ⟨a, ⟨c, hc, rfl⟩, line, hline, rfl⟩
    exact ⟨c, line, rfl, mem_noneOf.mp hc, mem_anyLine.mp hline⟩
  · rintro ⟨c, line, rfl, hc, hline⟩
    exact ⟨[c], ⟨c, mem_noneOf.mpr hc, rfl⟩, line, mem_anyLine.mpr hline, rfl⟩

/-- What stands in front of the first delimiter. -/
theorem before_unique {d : Char} {u v x y : List Char} (hu : d ∉ u) (hv : d ∉ v)
    (h : u ++ d :: x = v ++ d :: y) : u = v := by
  have htake : ∀ {u : List Char}, d ∉ u → ∀ x, (u ++ d :: x).takeWhile (fun c => c != d) = u := by
    intro u hu x
    have hall : ∀ c ∈ u, (c != d) = true := fun c hc => bne_iff_ne.mpr fun heq => hu (heq ▸ hc)
    rw [List.takeWhile_append_of_pos hall, List.takeWhile_cons_of_neg (by simp), List.append_nil]
  rw [← htake hu x, h, htake hv y]

/-- **A text begins with one scheme only.** -/
theorem uriStart_unique {start start' rest rest' : List Char} (h : start ∈ uriStart.lang)
    (h' : start' ∈ uriStart.lang) (heq : start ++ rest = start' ++ rest') : start = start' := by
  obtain ⟨id, hid, rfl⟩ := mem_uriStart.mp h
  obtain ⟨id', hid', rfl⟩ := mem_uriStart.mp h'
  have hcolon : ∀ {id : List Char}, id ∈ ident.lang → ':' ∉ id := fun hid =>
    Pattern.notMem_of_avoids (p := ident) rfl hid
  have hids : id ++ ':' :: ('/' :: '/' :: rest) = id' ++ ':' :: ('/' :: '/' :: rest') := by
    simpa using heq
  rw [before_unique (hcolon hid) (hcolon hid') hids]

theorem uriStart_ne_nil {start : List Char} (h : start ∈ uriStart.lang) : start ≠ [] := by
  obtain ⟨id, _, rfl⟩ := mem_uriStart.mp h
  simp

theorem uriStart_newline {start : List Char} (h : start ∈ uriStart.lang) : '\n' ∉ start :=
  Pattern.notMem_of_avoids (p := uriStart) rfl h

theorem uriStart_nul {start : List Char} (h : start ∈ uriStart.lang) : nul ∉ start :=
  Pattern.notMem_of_avoids (p := uriStart) rfl h

/-- A scheme has no blank in front. -/
theorem uriStart_blanks {start : List Char} (h : start ∈ uriStart.lang) (rest : List Char) :
    dropBlanks (start ++ rest) = start ++ rest := by
  cases start with
  | nil => exact absurd rfl (uriStart_ne_nil h)
  | cons c start =>
    have hspace : ' ' ∉ c :: start := Pattern.notMem_of_avoids (p := uriStart) rfl h
    have htab : '\t' ∉ c :: start := Pattern.notMem_of_avoids (p := uriStart) rfl h
    have hblank : ¬ whitespace.mem c = true := by
      intro hc
      rcases whitespace_mem.mp hc with rfl | rfl
      · exact hspace List.mem_cons_self
      · exact htab List.mem_cons_self
    exact List.dropWhile_cons_of_neg hblank

/-- A line that begins like a URI does so before its end. -/
theorem hasScheme_line {line rest : List Char} :
    HasScheme (line ++ '\n' :: rest) ↔ HasScheme line := by
  constructor
  · rintro ⟨start, hstart, tail, heq⟩
    refine ⟨start, hstart, ?_⟩
    rcases List.append_eq_append_iff.mp heq with ⟨more, hline, _⟩ | ⟨more, hstart', hrest⟩
    · exact ⟨more, hline.symm⟩
    · cases more with
      | nil => exact ⟨[], by rw [hstart', List.append_nil, List.append_nil]⟩
      | cons c more =>
        obtain ⟨rfl, _⟩ := List.cons.inj hrest
        exact absurd (hstart' ▸ List.mem_append_right _ List.mem_cons_self) (uriStart_newline hstart)
  · rintro ⟨start, hstart, hprefix⟩
    exact ⟨start, hstart, hprefix.trans (List.prefix_append _ _)⟩

theorem noScheme_newline (rest : List Char) : ¬ HasScheme (dropBlanks ('\n' :: rest)) := by
  rintro ⟨start, hstart, tail, heq⟩
  cases start with
  | nil => exact uriStart_ne_nil hstart rfl
  | cons c start =>
    obtain rfl : c = '\n' := (List.cons.inj heq).1
    exact uriStart_newline hstart List.mem_cons_self

theorem dropBlanks_line {line : List Char} (rest : List Char) :
    dropBlanks (line ++ '\n' :: rest) = dropBlanks line ++ '\n' :: rest := by
  induction line with
  | nil => rfl
  | cons c line ih =>
    by_cases hc : whitespace.mem c = true
    · rw [List.cons_append, dropBlanks, List.dropWhile_cons_of_pos hc, dropBlanks,
        List.dropWhile_cons_of_pos hc]
      exact ih
    · rw [List.cons_append, dropBlanks, List.dropWhile_cons_of_neg hc, dropBlanks,
        List.dropWhile_cons_of_neg hc, List.cons_append]

/-! ## Start conditions -/

/-- What comes behind a token: the rest of a line; a URI or the rest of a line; a URI; the rest of a
URI; or anything. -/
inductive Behind where
  | line
  | file
  | uri
  | rest
  | any
  deriving DecidableEq, Repr

/-- What comes behind a token of this kind. -/
def Kind.behind : Kind → Behind
  | .tTitle | .tLabel | .tCmdline | .tUribracket => .line
  | .tKernel | .tInitrd | .tParmfile => .file
  | .tRoot | .tInsfile | .tBootmap => .uri
  | .tUristart => .rest
  | _ => .any

section Coupled

variable (clean : Prop)

/-- The scanner behind a token. In a text without `NUL`, the rest of the line is no URI where it is
taken for a string. -/
def Coupled (s : Scanner) : Behind → Prop
  | .line => s.mode = .strmode
  | .file => s.mode = .urimode ∨
    s.mode = .strmode ∧ (clean → '\n' ∈ s.text → ¬ HasScheme (dropBlanks s.text))
  | .uri => s.mode = .urimode
  | .rest => s.mode = .urirestmode
  | .any => True

/-- A string behind a token. -/
def Follows (str : CStr) : Behind → Prop
  | .line => IsLine str
  | .file => IsLine str ∧ (clean → ¬ HasScheme str)
  | .uri => False
  | .rest => clean → UriRest str ∧ nul ∉ str
  | .any => True

/-- A part of a URI. -/
structure TokenOk (t : Token) : Prop where
  start : t.kind = .tUristart → t.val ∈ uriStart.lang
  bracket : t.kind = .tUribracket → clean →
    ∃ body, t.val = '(' :: body ++ [')'] ∧ body ≠ [] ∧ ')' ∉ body ∧ nul ∉ body

/-- Texts without `NUL`; the suspended buffers go on with a line break. -/
structure Clean (s : Scanner) : Prop where
  nul : nul ∉ s.text
  stack : ∀ saved ∈ s.stack, Sysload.nul ∉ saved.text
  lines : AtLineEnd s

end Coupled

theorem rulesOf_urimode : rulesOf .urimode =
    [(uriStart, rule [.urimode] uriStart (.token .tUristart true (some .urirestmode))),
      (blanks, rule [.urimode, .initial] blanks (.skip none)),
      (.cls anyChar, rule [.urimode, .initial] (.cls anyChar) (.token .tUnrecognized true none))] :=
  rfl

theorem rulesOf_urirestmode : rulesOf .urirestmode =
    [(uriBracket, rule [.urirestmode] uriBracket (.token .tUribracket true (some .strmode))),
      (.seq uriLine (chr '\n'), ruleEol [.urirestmode] uriLine (.token .tString true (some .initial)))] :=
  rfl

theorem Scanner.Matches.mem_rulesOf {s : Scanner} {n : Nat} {r : Rule} (h : s.Matches n r) :
    (r.pattern, r) ∈ rulesOf s.mode := Parser.mem_rulesOf.mpr ⟨h.rule, h.mode, rfl⟩

/-- A match of a pattern with `$`. -/
theorem Scanner.Matches.eol {s : Scanner} {n : Nat} {modes : List Mode} {p : Pattern} {a : Action}
    (h : s.Matches n (ruleEol modes p a)) :
    ∃ line rest, line ∈ p.lang ∧ s.text = line ++ '\n' :: rest ∧
      s.text.take ((ruleEol modes p a).taken n) = line := by
  obtain ⟨line, hline, eol, heol, htake⟩ := Language.mem_mul.mp h.lang
  obtain rfl := mem_lang_chr.mp heol
  have hlen : n = line.length + 1 := by
    have hlen := congrArg List.length htake
    rw [List.length_take_of_le h.length, List.length_append] at hlen
    exact hlen.symm
  have htext : s.text = line ++ '\n' :: s.text.drop n := by
    have hsplit := List.take_append_drop n s.text
    rw [← htake, List.append_assoc] at hsplit
    exact hsplit.symm
  refine ⟨line, _, hline, htext, ?_⟩
  have htaken : (ruleEol modes p a).taken n = line.length := by
    rw [hlen]
    rfl
  rw [htaken, htext, List.take_left]

/-! ## Steps of the scanner -/

/-- An event comes from the rule that is picked. -/
theorem Scanner.flexStep_token {active : Bool} {load : CStr → Option (List Char)} {s : Scanner}
    {t : Token} {yytext : CStr} (h : (s.flexStep active load).2 = some (.token t yytext)) :
    ∃ n r, s.Matches n r ∧ pick (rulesOf s.mode) s.text = some (n, r) ∧
      s.flexStep active load =
        { s with text := s.text.drop (r.taken n) }.act active load (s.text.take (r.taken n))
          r.action := by
  cases htext : s.text with
  | nil =>
    unfold flexStep at h
    rw [htext] at h
    cases hstack : s.stack with
    | nil =>
      rw [hstack] at h
      cases h
    | cons saved stack =>
      rw [hstack] at h
      cases h
  | cons c rest =>
    cases hpick : pick (rulesOf s.mode) (c :: rest) with
    | none =>
      rw [flexStep_of_none htext hpick] at h
      cases h
    | some found =>
      obtain ⟨n, r⟩ := found
      obtain ⟨p, hmem, hn, hlang⟩ := pick_sound hpick
      obtain ⟨hr, hm, rfl⟩ := mem_rulesOf.mp hmem
      refine ⟨n, r, ⟨hr, hm, htext ▸ hn, htext ▸ hlang⟩, rfl, ?_⟩
      rw [← htext]
      exact flexStep_of_pick htext hpick

/-- The keywords that a file name comes behind. -/
def fileKeywords : List (List Char) := ["kernel".toList, "initrd".toList, "parmfile".toList]

/-- The rule leads to the start condition for what comes behind its token. -/
def Rule.leads (r : Rule) : Bool :=
  match r.action with
  | .token k val next =>
    match k.behind with
    | .line => next == some .strmode && (k != .tUribracket || r.pattern == uriBracket && val && !r.trail)
    | .file => next == some .strmode && !r.trail && r.modes == [.initial] &&
      fileKeywords.any fun w => r.pattern == .seq (word w) blanks &&
        rules.any fun r' => r'.pattern == .seq (word w) (.seq blanks uriStart) &&
          r'.modes == [.initial]
    | .uri => false
    | .rest => next == some .urirestmode && r.pattern == uriStart && val && !r.trail
    | .any => true
  | .less k _ next =>
    match k.behind with
    | .file => next == .urimode
    | .uri => next == .urimode
    | .any => true
    | _ => false
  | _ => true

theorem rules_lead : rules.all Rule.leads = true := by decide +kernel

/-- No longer match: where a keyword is taken alone, no URI is behind it. -/
theorem noScheme_behind {s : Scanner} {w : List Char} {n : Nat} {r r' : Rule}
    (hpick : pick (rulesOf s.mode) s.text = some (n, r)) (hmatch : s.Matches n r)
    (hpattern : r.pattern = .seq (word w) blanks) (hr' : (r'.pattern, r') ∈ rulesOf s.mode)
    (hpattern' : r'.pattern = .seq (word w) (.seq blanks uriStart)) :
    ¬ HasScheme (dropBlanks (s.text.drop n)) := by
  rintro ⟨start, hstart, tail, htail⟩
  obtain ⟨a, ha, b, hb, hab⟩ := Language.mem_mul.mp (hpattern ▸ hmatch.lang)
  obtain ⟨hne, hblank⟩ := mem_plus_cls.mp hb
  -- the blanks in front of the URI could be taken with the keyword, and the URI behind them
  have hbehind : s.text.drop n =
      (s.text.drop n).takeWhile whitespace.mem ++ (start ++ tail) := by
    rw [htail, dropBlanks, List.takeWhile_append_dropWhile]
  generalize hmore : (s.text.drop n).takeWhile whitespace.mem = more at hbehind
  have hmoreblank : ∀ c ∈ more, whitespace.mem c = true :=
    fun c hc => List.mem_takeWhile_imp (hmore ▸ hc)
  have htext : s.text = (a ++ (b ++ more) ++ start) ++ tail := by
    have hsplit := List.take_append_drop n s.text
    rw [hbehind, ← hab] at hsplit
    simpa using hsplit.symm
  have hlang : s.text.take (a ++ (b ++ more) ++ start).length ∈ r'.pattern.lang := by
    rw [htext, List.take_left, hpattern', List.append_assoc]
    refine ⟨a, ha, _, ⟨b ++ more, mem_plus_cls.mpr ⟨by simp [hne], fun c hc => ?_⟩, start, hstart,
      rfl⟩, rfl⟩
    exact (List.mem_append.mp hc).elim (hblank c) (hmoreblank c)
  have hle := pick_longest hpick hr' (by rw [htext]; simp) hlang
  have hn : n = (a ++ b).length := by
    have hlen := congrArg List.length hab
    rw [List.length_take_of_le hmatch.length] at hlen
    exact hlen.symm
  have hpos := List.length_pos_of_ne_nil (uriStart_ne_nil hstart)
  simp only [List.length_append] at hle hn
  omega

section Step

variable {clean : Prop} {active : Bool} {load : CStr → Option (List Char)} {s : Scanner}

theorem Kind.behind_uristart {k : Kind} (h : k = .tUristart) : k.behind = .rest := h ▸ rfl

theorem Kind.behind_uribracket {k : Kind} (h : k = .tUribracket) : k.behind = .line := h ▸ rfl

/-- Nothing is behind a token that is no part of a URI. -/
theorem tokenOk_of_any {t : Token} (h : t.kind.behind = .any) : TokenOk clean t where
  start := fun hk => by
    rw [Kind.behind_uristart hk] at h
    cases h
  bracket := fun hk => by
    rw [Kind.behind_uribracket hk] at h
    cases h

theorem charKind_behind (c : Char) : (charKind c).behind = .any := by
  unfold charKind
  repeat' split
  all_goals rfl

/-- **A token** leads to the start condition for what comes behind it. -/
theorem token_coupled (hclean : clean → nul ∉ s.text) {t : Token} {yytext : CStr}
    (h : (s.flexStep active load).2 = some (.token t yytext)) :
    TokenOk clean t ∧ Coupled clean (s.flexStep active load).1 t.kind.behind := by
  obtain ⟨n, r, hmatch, hpick, hstep⟩ := Scanner.flexStep_token h
  have hlead := List.all_eq_true.mp rules_lead r hmatch.rule
  rw [hstep] at h ⊢
  unfold Rule.leads at hlead
  cases haction : r.action with
  | token k val next =>
    rw [haction] at h hlead
    obtain ⟨rfl, -⟩ := Event.token.inj (Option.some.inj h)
    dsimp only at hlead ⊢
    cases hbehind : k.behind with
    | any => exact ⟨tokenOk_of_any hbehind, trivial⟩
    | uri =>
      rw [hbehind] at hlead
      cases hlead
    | line =>
      rw [hbehind] at hlead
      obtain ⟨hnext, hbracket⟩ := Bool.and_eq_true_iff.mp hlead
      obtain rfl := beq_iff_eq.mp hnext
      refine ⟨⟨fun hk => ?_, fun hk hc => ?_⟩, rfl⟩
      · rw [Kind.behind_uristart hk] at hbehind
        cases hbehind
      · obtain rfl : k = .tUribracket := hk
        simp only [bne_self_eq_false, Bool.false_or, Bool.and_eq_true, beq_iff_eq,
          Bool.not_eq_true'] at hbracket
        obtain ⟨⟨hpattern, rfl⟩, htrail⟩ := hbracket
        have htaken : r.taken n = n := by rw [Rule.taken, htrail]; rfl
        obtain ⟨body, hbody, hne, hparen⟩ := mem_uriBracket.mp (hpattern ▸ hmatch.lang)
        have hnul : nul ∉ '(' :: body ++ [')'] := fun hmem =>
          hclean hc (List.take_subset n _ (hbody ▸ hmem))
        refine ⟨body, ?_, hne, hparen, fun hmem => hnul (by simp [hmem])⟩
        show cstr (s.text.take (r.taken n)) = _
        rw [htaken, hbody, cstr_eq_self hnul]
    | file =>
      rw [hbehind] at hlead
      simp only [Bool.and_eq_true, List.any_eq_true, beq_iff_eq, Bool.not_eq_true'] at hlead
      obtain ⟨⟨⟨rfl, htrail⟩, hmodes⟩, w, _, hpattern, r', hr', hpattern', hmodes'⟩ := hlead
      have htaken : r.taken n = n := by rw [Rule.taken, htrail]; rfl
      have hmode : s.mode = .initial := List.mem_singleton.mp (hmodes ▸ hmatch.mode)
      have hmem : (r'.pattern, r') ∈ rulesOf s.mode :=
        mem_rulesOf.mpr ⟨hr', by rw [hmodes', hmode]; exact List.mem_cons_self, rfl⟩
      refine ⟨⟨fun hk => ?_, fun hk => ?_⟩, Or.inr ⟨rfl, fun _ _ => ?_⟩⟩
      · rw [Kind.behind_uristart hk] at hbehind
        cases hbehind
      · rw [Kind.behind_uribracket hk] at hbehind
        cases hbehind
      · rw [htaken]
        exact noScheme_behind hpick hmatch hpattern hmem hpattern'
    | rest =>
      rw [hbehind] at hlead
      simp only [Bool.and_eq_true, beq_iff_eq, Bool.not_eq_true'] at hlead
      obtain ⟨⟨⟨rfl, hpattern⟩, rfl⟩, htrail⟩ := hlead
      have htaken : r.taken n = n := by rw [Rule.taken, htrail]; rfl
      have hstart : s.text.take n ∈ uriStart.lang := hpattern ▸ hmatch.lang
      refine ⟨⟨fun _ => ?_, fun hk => ?_⟩, rfl⟩
      · show cstr (s.text.take (r.taken n)) ∈ uriStart.lang
        rwa [htaken, cstr_eq_self (uriStart_nul hstart)]
      · rw [Kind.behind_uribracket hk] at hbehind
        cases hbehind
  | less k m next =>
    rw [haction] at h hlead
    obtain ⟨rfl, -⟩ := Event.token.inj (Option.some.inj h)
    dsimp only at hlead ⊢
    cases hbehind : k.behind with
    | any => exact ⟨tokenOk_of_any hbehind, trivial⟩
    | file =>
      rw [hbehind] at hlead
      obtain rfl := beq_iff_eq.mp hlead
      refine ⟨⟨fun hk => ?_, fun hk => ?_⟩, Or.inl rfl⟩
      · rw [Kind.behind_uristart hk] at hbehind
        cases hbehind
      · rw [Kind.behind_uribracket hk] at hbehind
        cases hbehind
    | uri =>
      rw [hbehind] at hlead
      obtain rfl := beq_iff_eq.mp hlead
      refine ⟨⟨fun hk => ?_, fun hk => ?_⟩, rfl⟩
      · rw [Kind.behind_uristart hk] at hbehind
        cases hbehind
      · rw [Kind.behind_uribracket hk] at hbehind
        cases hbehind
    | line =>
      rw [hbehind] at hlead
      cases hlead
    | rest =>
      rw [hbehind] at hlead
      cases hlead
  | char next =>
    rw [haction] at h
    obtain ⟨rfl, -⟩ := Event.token.inj (Option.some.inj h)
    have hany := charKind_behind ((s.text.take (r.taken n)).headD nul)
    refine ⟨tokenOk_of_any hany, ?_⟩
    dsimp only
    rw [hany]
    trivial
  | string =>
    rw [haction] at h
    obtain ⟨rfl, -⟩ := Event.token.inj (Option.some.inj h)
    exact ⟨tokenOk_of_any rfl, trivial⟩
  | skip next =>
    rw [haction] at h
    cases h
  | newline =>
    rw [haction] at h
    cases h
  | incl =>
    rw [haction] at h
    cases h

/-- A rule of `STRMODE`. -/
theorem rule_strmode {n : Nat} {r : Rule} (hmode : s.mode = .strmode) (h : s.Matches n r) :
    r = ruleEol [.strmode] anyLine .string := by
  have hmem := h.mem_rulesOf
  rw [hmode, rulesOf_strmode] at hmem
  exact (Prod.mk.inj (List.mem_singleton.mp hmem)).2

/-- In `STRMODE` without a line break nothing is returned. -/
theorem strmode_unended (hmode : s.mode = .strmode) (h : '\n' ∉ s.text) :
    (∀ t yytext, (s.flexStep active load).2 ≠ some (.token t yytext)) ∧
      (s.flexStep active load).1.mode = .strmode ∧
      (AtLineEnd s → '\n' ∈ (s.flexStep active load).1.text →
        ∃ rest, (s.flexStep active load).1.text = '\n' :: rest) := by
  rcases s.flexStep_cases active load with ⟨_, _, hstep⟩ |
    ⟨saved, stack, _, hstack, hstep⟩ | ⟨c, rest, htext, hstep⟩ | ⟨n, r, hmatch, _⟩
  · rw [hstep]
    exact ⟨by simp, hmode, fun _ hmem => absurd hmem h⟩
  · rw [hstep]
    exact ⟨by simp, hmode, fun hlines _ => hlines saved (hstack ▸ List.mem_cons_self)⟩
  · rw [hstep]
    exact ⟨by simp, hmode, fun _ hmem => absurd (htext ▸ List.mem_cons_of_mem _ hmem) h⟩
  · obtain rfl := rule_strmode hmode hmatch
    obtain ⟨line, rest, _, htext, _⟩ := hmatch.eol
    exact absurd (htext ▸ List.mem_append_right _ List.mem_cons_self) h

/-- **What comes behind a token is still to come** after a step that returns nothing. -/
theorem Coupled.skip (hlines : clean → AtLineEnd s) {b : Behind} (h : Coupled clean s b)
    (hstep : (s.flexStep active load).2 = none) : Coupled clean (s.flexStep active load).1 b := by
  have hline : s.mode = .strmode → '\n' ∉ s.text := by
    intro hmode hmem
    obtain ⟨line, rest, htext, hline⟩ := List.eq_append_cons_of_mem hmem
    rw [Scanner.flexStep_strmode hmode hline htext] at hstep
    cases hstep
  have hmode : s.mode = .urimode ∨ s.mode = .urirestmode →
      (s.flexStep active load).1.mode = s.mode := by
    intro hmode
    rcases s.flexStep_cases active load with ⟨_, _, heq⟩ |
      ⟨_, _, _, _, heq⟩ | ⟨_, _, _, heq⟩ | ⟨n, r, hmatch, heq⟩
    · rw [heq]
    · rw [heq]
    · rw [heq]
    · have hmem := hmatch.mem_rulesOf
      rcases hmode with hmode | hmode
      · rw [hmode, rulesOf_urimode] at hmem
        rw [heq] at hstep ⊢
        simp only [List.mem_cons, Prod.mk.injEq, List.not_mem_nil, or_false] at hmem
        rcases hmem with ⟨_, rfl⟩ | ⟨_, rfl⟩ | ⟨_, rfl⟩
        · cases hstep
        · rfl
        · cases hstep
      · rw [hmode, rulesOf_urirestmode] at hmem
        rw [heq] at hstep
        simp only [List.mem_cons, Prod.mk.injEq, List.not_mem_nil, or_false] at hmem
        rcases hmem with ⟨_, rfl⟩ | ⟨_, rfl⟩
        · cases hstep
        · cases hstep
  cases b with
  | line => exact (strmode_unended h (hline h)).2.1
  | file =>
    rcases h with h | ⟨h, _⟩
    · exact Or.inl ((hmode (Or.inl h)).trans h)
    · obtain ⟨_, hmode', htext⟩ := @strmode_unended active load s h (hline h)
      refine Or.inr ⟨hmode', fun hc hmem => ?_⟩
      obtain ⟨rest, hrest⟩ := htext (hlines hc) hmem
      rw [hrest]
      exact noScheme_newline rest
  | uri => exact (hmode (Or.inl h)).trans h
  | rest => exact (hmode (Or.inr h)).trans h
  | any => trivial

/-- **A string behind a token.** -/
theorem Coupled.follows (hclean : clean → nul ∉ s.text) {b : Behind} (h : Coupled clean s b)
    {t : Token} {yytext : CStr} (hstep : (s.flexStep active load).2 = some (.token t yytext))
    (ht : t.kind = .tString) : Follows clean t.val b := by
  have hline : s.mode = .strmode → ∃ line rest, '\n' ∉ line ∧ s.text = line ++ '\n' :: rest ∧
      t.val = dropBlanks (cstr line) := by
    intro hmode
    by_cases hmem : '\n' ∈ s.text
    · obtain ⟨line, rest, htext, hline⟩ := List.eq_append_cons_of_mem hmem
      rw [Scanner.flexStep_strmode hmode hline htext] at hstep
      obtain ⟨rfl, -⟩ := Event.token.inj (Option.some.inj hstep)
      exact ⟨line, rest, hline, htext, rfl⟩
    · exact absurd hstep ((strmode_unended hmode hmem).1 t yytext)
  obtain ⟨n, r, hmatch, _, heq⟩ := Scanner.flexStep_token hstep
  have hmem := hmatch.mem_rulesOf
  have huri : s.mode ≠ .urimode := by
    intro hmode
    rw [hmode, rulesOf_urimode] at hmem
    rw [heq] at hstep
    simp only [List.mem_cons, Prod.mk.injEq, List.not_mem_nil, or_false] at hmem
    rcases hmem with ⟨_, rfl⟩ | ⟨_, rfl⟩ | ⟨_, rfl⟩
    · obtain ⟨rfl, -⟩ := Event.token.inj (Option.some.inj hstep)
      cases ht
    · cases hstep
    · obtain ⟨rfl, -⟩ := Event.token.inj (Option.some.inj hstep)
      cases ht
  cases b with
  | line =>
    obtain ⟨line, rest, hnewline, _, hval⟩ := hline h
    exact hval ▸ isLine_dropBlanks hnewline
  | file =>
    rcases h with h | ⟨h, hscheme⟩
    · exact absurd h huri
    · obtain ⟨line, rest, hnewline, htext, hval⟩ := hline h
      refine ⟨hval ▸ isLine_dropBlanks hnewline, fun hc => ?_⟩
      have hnul : nul ∉ line := fun hmem => hclean hc (htext ▸ List.mem_append_left _ hmem)
      have hnone := hscheme hc (htext ▸ List.mem_append_right _ List.mem_cons_self)
      rw [htext, dropBlanks_line, hasScheme_line] at hnone
      rwa [hval, cstr_eq_self hnul]
  | uri => exact absurd h huri
  | rest =>
    intro hc
    rw [show s.mode = .urirestmode from h, rulesOf_urirestmode] at hmem
    simp only [List.mem_cons, Prod.mk.injEq, List.not_mem_nil, or_false] at hmem
    rcases hmem with ⟨_, rfl⟩ | ⟨_, rfl⟩
    · rw [heq] at hstep
      obtain ⟨rfl, -⟩ := Event.token.inj (Option.some.inj hstep)
      cases ht
    · obtain ⟨line, rest, hmem, htext, htake⟩ := hmatch.eol
      rw [heq, htake] at hstep
      obtain ⟨rfl, -⟩ := Event.token.inj (Option.some.inj hstep)
      obtain ⟨c, line, rfl, hc', hnewline⟩ := mem_uriLine.mp hmem
      have hnul : nul ∉ c :: line := fun hmem => hclean hc (htext ▸ List.mem_append_left _ hmem)
      have hval : cstr (c :: line) = c :: line := cstr_eq_self hnul
      show UriRest (cstr (c :: line)) ∧ nul ∉ cstr (c :: line)
      rw [hval]
      exact ⟨.line hc' hnewline, hnul⟩
  | any => trivial

/-- The texts stay without `NUL` if those that are included are. -/
theorem Clean.step (h : Clean s)
    (hload : ∀ uri content, load uri = some content → Sysload.nul ∉ content) :
    Clean (s.flexStep active load).1 := by
  have hlines : AtLineEnd (s.flexStep active load).1 := flexStep_atLineEnd s h.lines
  have hsub : ∀ {text : List Char}, (∀ c ∈ text, c ∈ s.text) → Sysload.nul ∉ text :=
    fun hall hmem => h.nul (hall _ hmem)
  rcases s.flexStep_cases active load with ⟨_, _, heq⟩ |
    ⟨saved, stack, _, hstack, heq⟩ | ⟨c, rest, htext, heq⟩ | ⟨n, r, _, heq⟩
  · rwa [heq]
  · rw [heq] at hlines ⊢
    have hsaved := h.stack
    rw [hstack, List.forall_mem_cons] at hsaved
    exact ⟨hsaved.1, hsaved.2, hlines⟩
  · rw [heq] at hlines ⊢
    exact ⟨hsub fun d hd => htext ▸ List.mem_cons_of_mem _ hd, h.stack, hlines⟩
  · have hdrop : Sysload.nul ∉ s.text.drop (r.taken n) := hsub fun d hd => List.mem_of_mem_drop hd
    rw [heq] at hlines ⊢
    cases haction : r.action with
    | less k m next =>
      rw [haction] at hlines
      refine ⟨hsub fun d hd => ?_, h.stack, hlines⟩
      rcases List.mem_append.mp hd with hd | hd
      · exact List.mem_of_mem_take (List.mem_of_mem_drop hd)
      · exact List.mem_of_mem_drop hd
    | incl =>
      rw [haction] at hlines
      refine ⟨?_, ?_, hlines⟩ <;> unfold Scanner.act
      all_goals
        rcases Scanner.include_cases active load
          { s with text := s.text.drop (r.taken n), mode := .initial }
          (dropBlanks (cstr (s.text.take (r.taken n)))) with hskip | ⟨_, _, content, hcontent, hopen⟩
      · rw [hskip]
        exact hdrop
      · rw [hopen]
        exact hload _ _ hcontent
      · rw [hskip]
        exact h.stack
      · rw [hopen]
        exact List.forall_mem_cons.mpr ⟨hdrop, h.stack⟩
    | _ =>
      rw [haction] at hlines
      exact ⟨hdrop, h.stack, hlines⟩

end Step

/-! ## Actions -/

/-- A file name that the scanner takes as it is: a URI, or the rest of a line that is none. -/
def ReadsBack (str : CStr) : Prop := IsUri str ∨ IsLine str ∧ ¬ HasScheme str

section Act

variable (clean : Prop)

/-- The strings of an option. -/
def OptionOk : BootOption → Prop
  | .root str => clean → IsUri str
  | .kernel str | .initrd str | .parmfile str => clean → ReadsBack str
  | .cmdline str => IsLine str
  | .insfile str | .bootmap str => str ≠ [] ∧ (clean → IsUri str)
  | .lock | .pause _ | .reboot | .halt | .shell | .exit => True

/-- The strings of an action for a boot entry. -/
def ActOk : Act → Prop
  | .title str | .label str => IsLine str
  | .option o => OptionOk clean o
  | _ => True

/-- The tokens of a row, as far as they are read. -/
structure ReadOk (s : Scanner) (read : List Token) : Prop where
  tokens : ∀ t ∈ read, TokenOk clean t
  last : ∀ t, read.getLast? = some t → Coupled clean s t.kind.behind

/-- What comes behind some tokens of a row. -/
def TokenFollows (read : List Token) (t : Token) : Prop :=
  t.kind = .tString → ∀ u, read.getLast? = some u → Follows clean t.val u.kind.behind

end Act

/-- An action that is none for a boot entry. -/
def Act.plain : Act → Bool
  | .title _ | .label _ | .option _ => false
  | _ => true

theorem actOk_of_plain {clean : Prop} {a : Act} (h : a.plain = true) : ActOk clean a := by
  cases a with
  | title str => cases h
  | label str => cases h
  | option o => cases h
  | _ => trivial

theorem addrActs_plain (members : List (CStr → NetParam)) (addrs : List CStr) :
    ∀ a ∈ addrActs members addrs, a.plain = true := by
  intro a ha
  obtain ⟨f, addr, _, rfl⟩ : ∃ f addr, (f, addr) ∈ members.zip addrs ∧ Act.netrest (f addr) = a := by
    have hmem := List.mem_reverse.mp ha
    rw [← List.map_uncurry_zip_eq_zipWith] at hmem
    obtain ⟨⟨f, addr⟩, hzip, rfl⟩ := List.mem_map.mp hmem
    exact ⟨f, addr, hzip, rfl⟩
  rfl

theorem knetActs_plain (ident : CStr) (addrs : List CStr) :
    ∀ a ∈ knetActs ident addrs, a.plain = true := by
  intro a ha
  rcases List.mem_append.mp ha with ha | ha
  · exact addrActs_plain _ _ a ha
  · simp only [List.mem_cons, List.not_mem_nil, or_false] at ha
    rcases ha with rfl | rfl | rfl | rfl <;> rfl

theorem netRestActs_plain (ident : CStr) (addrs : List CStr) :
    ∀ a ∈ netRestActs ident addrs, a.plain = true := by
  intro a ha
  rcases List.mem_append.mp ha with ha | ha
  · exact addrActs_plain _ _ a ha
  · rw [List.mem_singleton.mp ha]
    rfl

/-- A default reduction does nothing to a boot entry. -/
theorem reduction_plain {p p' : Place} {acts : List Act} (h : p.reduction = some (acts, p')) :
    ∀ a ∈ acts, a.plain = true := by
  cases p with
  | label =>
    cases h
    exact fun a ha => absurd ha List.not_mem_nil
  | systemlist l nots acc =>
    cases nots with
    | zero =>
      cases acc with
      | none => cases h
      | some acc =>
        cases h
        exact fun a ha => by rw [List.mem_singleton.mp ha]; rfl
    | succ nots => cases h
  | knetRest ident addrs =>
    cases h
    exact knetActs_plain ident addrs
  | netRest mode ident addrs =>
    cases h
    exact netRestActs_plain ident addrs
  | _ => cases h

/-! ## Rows -/

/-- A row that does nothing to a boot entry. -/
def Row.Plain (r : Row) : Prop := ∀ v, ∀ a ∈ (r.effect v).1, a.plain = true

theorem plain_of_nil {r : Row} (h : ∀ v, (r.effect v).1 = []) : r.Plain := by
  intro v a ha
  rw [h v] at ha
  exact absurd ha List.not_mem_nil

theorem itemRows_plain {α : Type} (l : Level) {f : α → Act}
    {table : List (List Kind × ((Nat → CStr) → α))}
    (hf : ∀ r ∈ table, ∀ v, (f (r.2 v)).plain = true) : ∀ r ∈ itemRows l f table, r.Plain := by
  intro r hr v a ha
  obtain ⟨row, hrow, rfl⟩ := List.mem_map.mp hr
  rw [List.mem_singleton.mp ha]
  exact hf row hrow v

theorem globaldefTable_plain : ∀ r ∈ globaldefTable, ∀ v, (id (r.2 v)).plain = true := by
  intro r hr v
  simp only [globaldefTable, List.mem_cons, List.not_mem_nil, or_false] at hr
  rcases hr with rfl | rfl | rfl | rfl | rfl | rfl | rfl | rfl | rfl <;> rfl

theorem defRows_plain : ∀ r ∈ defRows, r.Plain := by
  intro r hr
  rcases List.mem_append.mp hr with hr | hr
  · exact itemRows_plain .deflist globaldefTable_plain r hr
  · simp only [List.mem_cons, List.not_mem_nil, or_false] at hr
    rcases hr with rfl | rfl | rfl | rfl <;> exact plain_of_nil fun _ => rfl

theorem systemidRows_plain (l : Level) (nots : Nat) (acc : Option SystemList) :
    ∀ r ∈ systemidRows l nots acc, r.Plain := by
  intro r hr
  obtain ⟨row, _, rfl⟩ := List.mem_map.mp hr
  exact plain_of_nil fun _ => rfl

/-- **Outside of boot entries** nothing is done to one. -/
theorem rows_plain {p : Place} (htitle : p ≠ .title) (hlabel : p ≠ .label)
    (hlist : ∀ b, p ≠ .list .optionlist b) : ∀ r ∈ rows p, r.Plain := by
  intro r hr
  cases p with
  | input =>
    rcases List.mem_append.mp hr with hr | hr
    · exact defRows_plain r hr
    · simp only [List.mem_cons, List.not_mem_nil, or_false] at hr
      rcases hr with rfl | rfl | rfl
      · intro v a ha
        simp only [List.mem_cons, List.not_mem_nil, or_false] at ha
        rcases ha with rfl | rfl | rfl <;> rfl
      · exact plain_of_nil fun _ => rfl
      · exact plain_of_nil fun _ => rfl
  | list l b =>
    have hcases : r = closeRow ∨ r ∈ elementRows l := by
      cases b with
      | true => exact List.mem_cons.mp hr
      | false =>
        cases l with
        | deflist => exact List.mem_cons.mp hr
        | modparamlist => exact Or.inr hr
        | netparamlist => exact Or.inr hr
        | optionlist => exact Or.inr hr
    rcases hcases with rfl | hr
    · exact plain_of_nil fun _ => rfl
    · cases l with
      | deflist => exact defRows_plain r hr
      | modparamlist =>
        rcases List.mem_append.mp hr with hr | hr
        · exact itemRows_plain .modparamlist (fun _ _ _ => rfl) r hr
        · rw [List.mem_singleton.mp hr]
          exact plain_of_nil fun _ => rfl
      | netparamlist =>
        rcases List.mem_append.mp hr with hr | hr
        · exact itemRows_plain .netparamlist (fun _ _ _ => rfl) r hr
        · rw [List.mem_singleton.mp hr]
          exact plain_of_nil fun _ => rfl
      | optionlist => exact absurd rfl (hlist b)
  | title => exact absurd rfl htitle
  | label => exact absurd rfl hlabel
  | systemlist l nots acc =>
    cases acc with
    | none =>
      rcases List.mem_cons.mp hr with rfl | hr
      · exact plain_of_nil fun _ => rfl
      · exact systemidRows_plain _ _ _ r hr
    | some acc =>
      cases nots with
      | zero => exact systemidRows_plain _ _ _ r hr
      | succ nots =>
        rcases List.mem_cons.mp hr with rfl | hr
        · exact plain_of_nil fun _ => rfl
        · exact systemidRows_plain _ _ _ r hr
  | brace l =>
    rw [List.mem_singleton.mp hr]
    exact plain_of_nil fun _ => rfl
  | knetRest ident addrs =>
    rw [List.mem_singleton.mp hr]
    intro v a ha
    dsimp only at ha
    split at ha
    · exact absurd ha List.not_mem_nil
    · exact knetActs_plain _ _ a ha
  | finished => exact absurd hr List.not_mem_nil
  | ksetParam =>
    simp only [rows, List.mem_cons, List.not_mem_nil, or_false] at hr
    rcases hr with rfl | rfl | rfl | rfl | rfl | rfl <;> intro v a ha
    · rw [List.mem_singleton.mp ha]
      rfl
    · rw [List.mem_singleton.mp ha]
      rfl
    · rw [List.mem_singleton.mp ha]
      rfl
    · exact absurd ha List.not_mem_nil
    · exact absurd ha List.not_mem_nil
    · rw [List.mem_singleton.mp ha]
      rfl
  | ksetRest =>
    rw [List.mem_singleton.mp hr]
    exact plain_of_nil fun _ => rfl
  | netRest mode ident addrs =>
    rw [List.mem_singleton.mp hr]
    intro v a ha
    dsimp only at ha
    split at ha
    · exact absurd ha List.not_mem_nil
    · exact netRestActs_plain _ _ a ha
  | netClose mode =>
    rw [List.mem_singleton.mp hr]
    intro v a ha
    simp only [List.mem_cons, List.not_mem_nil, or_false] at ha
    rcases ha with rfl | rfl <;> rfl

section Row

variable {clean : Prop} {s : Scanner} {read : List Token} {t : Token}

/-- A URI in two parts. -/
theorem uri_two {v w : CStr} (hstart : v ∈ uriStart.lang)
    (hrest : clean → UriRest w ∧ nul ∉ w) : v ++ w ≠ [] ∧ (clean → IsUri (v ++ w)) := by
  refine ⟨by simp [uriStart_ne_nil hstart], fun hc => ⟨fun hmem => ?_, v, w, hstart,
    (hrest hc).1, rfl⟩⟩
  exact (List.mem_append.mp hmem).elim (uriStart_nul hstart) (hrest hc).2

/-- A URI with brackets. -/
theorem uri_three {v w x : CStr} (hstart : v ∈ uriStart.lang)
    (hbracket : clean → ∃ body, w = '(' :: body ++ [')'] ∧ body ≠ [] ∧ ')' ∉ body ∧ nul ∉ body)
    (htail : IsLine x) : v ++ w ++ x ≠ [] ∧ (clean → IsUri (v ++ w ++ x)) := by
  have hrest : clean → UriRest (w ++ x) ∧ nul ∉ w ++ x := by
    intro hc
    obtain ⟨body, rfl, hne, hparen, hnul⟩ := hbracket hc
    have hsplit : '(' :: body ++ [')'] ++ x = '(' :: body ++ ')' :: x := by simp
    refine ⟨hsplit ▸ .bracket hne hparen htail, ?_⟩
    simp [hnul, htail.nul, show nul ≠ '(' by decide, show nul ≠ ')' by decide]
  rw [List.append_assoc]
  exact uri_two hstart hrest

/-- The string of a row of a keyword and a string. -/
theorem string_read {k : Kind} (hkinds : (read ++ [t]).map Token.kind = [k, .tString])
    (hfollows : TokenFollows clean read t) :
    Follows clean (dollar ((read ++ [t]).map Token.val) 2) k.behind := by
  obtain ⟨u, rfl⟩ : ∃ u, read = [u] := by
    have hlen := congrArg List.length hkinds
    exact List.length_eq_one_iff.mp (by simpa using hlen)
  obtain ⟨rfl, ht, _⟩ : u.kind = k ∧ t.kind = .tString ∧ True := by simpa using hkinds
  exact hfollows ht u rfl

/-- The value of a row of a keyword and a URI. -/
theorem uri_read {k : Kind} (hkinds : (read ++ [t]).map Token.kind = [k, .tUristart, .tString])
    (hread : ReadOk clean s read) (hfollows : TokenFollows clean read t) :
    dollar ((read ++ [t]).map Token.val) 2 ++ dollar ((read ++ [t]).map Token.val) 3 ≠ [] ∧
      (clean → IsUri (dollar ((read ++ [t]).map Token.val) 2 ++
        dollar ((read ++ [t]).map Token.val) 3)) := by
  obtain ⟨u, v, rfl⟩ : ∃ u v, read = [u, v] := by
    have hlen := congrArg List.length hkinds
    exact List.length_eq_two.mp (by simpa using hlen)
  obtain ⟨_, hv, ht⟩ : u.kind = k ∧ v.kind = .tUristart ∧ t.kind = .tString := by
    simpa using hkinds
  have hrest := hfollows ht v rfl
  rw [hv] at hrest
  exact uri_two ((hread.tokens v (by simp)).start hv) hrest

/-- The value of a row of a keyword and a URI with brackets. -/
theorem bracket_read {k : Kind}
    (hkinds : (read ++ [t]).map Token.kind = [k, .tUristart, .tUribracket, .tString])
    (hread : ReadOk clean s read) (hfollows : TokenFollows clean read t) :
    dollar ((read ++ [t]).map Token.val) 2 ++ dollar ((read ++ [t]).map Token.val) 3 ++
        dollar ((read ++ [t]).map Token.val) 4 ≠ [] ∧
      (clean → IsUri (dollar ((read ++ [t]).map Token.val) 2 ++
        dollar ((read ++ [t]).map Token.val) 3 ++ dollar ((read ++ [t]).map Token.val) 4)) := by
  obtain ⟨u, v, w, rfl⟩ : ∃ u v w, read = [u, v, w] := by
    have hlen := congrArg List.length hkinds
    exact List.length_eq_three.mp (by simpa using hlen)
  obtain ⟨_, hv, hw, ht⟩ : u.kind = k ∧ v.kind = .tUristart ∧ w.kind = .tUribracket ∧
      t.kind = .tString := by simpa using hkinds
  have htail := hfollows ht w rfl
  rw [hw] at htail
  exact uri_three ((hread.tokens v (by simp)).start hv) ((hread.tokens w (by simp)).bracket hw) htail

/-- **The strings of an option** are what the scanner has returned. -/
theorem option_ok {r : List Kind × ((Nat → CStr) → BootOption)} (hr : r ∈ optionTable)
    (hkinds : (read ++ [t]).map Token.kind = r.1) (hread : ReadOk clean s read)
    (hfollows : TokenFollows clean read t) :
    OptionOk clean (r.2 (dollar ((read ++ [t]).map Token.val))) := by
  have hfile : ∀ {str : CStr}, (IsLine str ∧ (clean → ¬ HasScheme str)) → clean → ReadsBack str :=
    fun h hc => Or.inr ⟨h.1, h.2 hc⟩
  have huri : ∀ {str : CStr}, (str ≠ [] ∧ (clean → IsUri str)) → clean → ReadsBack str :=
    fun h hc => Or.inl (h.2 hc)
  simp only [optionTable, uriRows, stringRow, List.mem_append, List.mem_cons, List.not_mem_nil,
    or_false] at hr
  rcases hr with (((((((((((rfl | rfl) | rfl | rfl | rfl) | rfl | rfl) | rfl) | rfl | rfl) |
    rfl | rfl) | rfl | rfl) | rfl) | rfl | rfl) | rfl) | rfl | rfl) | rfl | rfl | rfl | rfl
  · exact (uri_read hkinds hread hfollows).2
  · exact (bracket_read hkinds hread hfollows).2
  · trivial
  · trivial
  · exact hfile (string_read hkinds hfollows)
  · exact huri (uri_read hkinds hread hfollows)
  · exact huri (bracket_read hkinds hread hfollows)
  · exact hfile (string_read hkinds hfollows)
  · exact huri (uri_read hkinds hread hfollows)
  · exact huri (bracket_read hkinds hread hfollows)
  · exact string_read (k := .tCmdline) hkinds hfollows
  · exact hfile (string_read hkinds hfollows)
  · exact huri (uri_read hkinds hread hfollows)
  · exact huri (bracket_read hkinds hread hfollows)
  · exact absurd (string_read (k := .tInsfile) hkinds hfollows) id
  · exact uri_read hkinds hread hfollows
  · exact bracket_read hkinds hread hfollows
  · exact absurd (string_read (k := .tBootmap) hkinds hfollows) id
  · exact uri_read hkinds hread hfollows
  · exact bracket_read hkinds hread hfollows
  · trivial
  · trivial
  · trivial
  · trivial

/-- **The actions of a row** have strings that the scanner has returned. -/
theorem row_ok {p : Place} {r : Row} (hr : r ∈ rows p)
    (hkinds : (read ++ [t]).map Token.kind = r.kinds) (hread : ReadOk clean s read)
    (hfollows : TokenFollows clean read t) :
    ∀ a ∈ (r.effect (dollar ((read ++ [t]).map Token.val))).1, ActOk clean a := by
  intro a ha
  by_cases htitle : p = .title
  · subst htitle
    obtain rfl := List.mem_singleton.mp hr
    rw [List.mem_singleton.mp ha]
    exact string_read (k := .tTitle) hkinds hfollows
  by_cases hlabel : p = .label
  · subst hlabel
    obtain rfl := List.mem_singleton.mp hr
    rw [List.mem_singleton.mp ha]
    exact string_read (k := .tLabel) hkinds hfollows
  by_cases hlist : ∃ b, p = .list .optionlist b
  · obtain ⟨b, rfl⟩ := hlist
    have hcases : r = closeRow ∨ r ∈ elementRows .optionlist := by
      cases b with
      | true => exact List.mem_cons.mp hr
      | false => exact Or.inr hr
    rcases hcases with rfl | hr
    · exact absurd ha List.not_mem_nil
    · rcases List.mem_append.mp hr with hr | hr
      · obtain ⟨row, hrow, rfl⟩ := List.mem_map.mp hr
        rw [List.mem_singleton.mp ha]
        exact option_ok hrow hkinds hread hfollows
      · obtain rfl := List.mem_singleton.mp hr
        exact absurd ha List.not_mem_nil
  · exact actOk_of_plain (rows_plain htitle hlabel (fun b h => hlist ⟨b, h⟩) r hr _ a ha)

end Row

/-! ## The parser at a token -/

section Control

variable {clean : Prop} {s : Scanner} {c : Control} {t : Token}

theorem apply_ok {stack : List Closer} {acts : List Act} {next : Next}
    (h : ∀ a ∈ acts, ActOk clean a) :
    (∀ a ∈ (next.apply stack acts).1, ActOk clean a) ∧
      ∀ c', (next.apply stack acts).2 = some c' → c'.read = [] := by
  cases next with
  | goto p =>
    refine ⟨h, fun c' hc' => ?_⟩
    cases hc'
    rfl
  | push k p =>
    refine ⟨h, fun c' hc' => ?_⟩
    cases hc'
    rfl
  | pop =>
    cases stack with
    | nil => exact ⟨h, fun c' hc' => by cases hc'⟩
    | cons k stack =>
      refine ⟨fun a ha => ?_, fun c' hc' => ?_⟩
      · rcases List.mem_append.mp ha with ha | ha
        · exact h a ha
        · rw [List.mem_singleton.mp ha]
          exact actOk_of_plain (by cases k <;> rfl)
      · cases hc'
        rfl

theorem advance_ok (hread : ReadOk clean s c.read) (hfollows : TokenFollows clean c.read t) :
    (∀ a ∈ (c.advance t).1, ActOk clean a) ∧
      ∀ c', (c.advance t).2 = some c' → c'.read = [] ∨ c'.read = c.read ++ [t] := by
  unfold Control.advance
  cases hfind : (rows c.place).find? (·.fits (c.read ++ [t])) with
  | none =>
    simp only [hfind]
    split
    · refine ⟨fun a ha => absurd ha List.not_mem_nil, fun c' hc' => ?_⟩
      cases hc'
      exact Or.inr rfl
    · exact ⟨fun a ha => absurd ha List.not_mem_nil, fun c' hc' => by cases hc'⟩
  | some r =>
    simp only [hfind]
    have hfits := List.find?_some hfind
    have hkinds : r.kinds = (c.read ++ [t]).map Token.kind := of_decide_eq_true hfits
    have hrow := row_ok (List.mem_of_find?_eq_some hfind) hkinds.symm hread hfollows
    obtain ⟨hacts, hnext⟩ := @apply_ok clean c.stack _
      (r.effect (dollar ((c.read ++ [t]).map Token.val))).2 hrow
    exact ⟨hacts, fun c' hc' => Or.inl (hnext c' hc')⟩

/-- **The actions at a token** have strings that the scanner has returned. -/
theorem shift_ok (hread : ReadOk clean s c.read) (hfollows : TokenFollows clean c.read t) :
    (∀ a ∈ (c.shift t).1, ActOk clean a) ∧
      ∀ c', (c.shift t).2 = some c' → c'.read = [] ∨ c'.read = c.read ++ [t] := by
  unfold Control.shift
  cases hreducible : c.reducible t with
  | none => exact advance_ok hread hfollows
  | some red =>
    obtain ⟨acts, p⟩ := red
    have hreduction : c.place.reduction = some (acts, p) := by
      unfold Control.reducible at hreducible
      split at hreducible
      · exact hreducible
      · cases hreducible
    obtain ⟨hacts, hnext⟩ := @advance_ok clean s { c with place := p } t hread hfollows
    refine ⟨fun a ha => ?_, hnext⟩
    rcases List.mem_append.mp ha with ha | ha
    · exact actOk_of_plain (reduction_plain hreduction a ha)
    · exact hacts a ha

theorem finish_ok : ∀ a ∈ c.finish.1, ActOk clean a := by
  unfold Control.finish
  split
  · split
    · rename_i hreduction
      exact fun a ha => actOk_of_plain (reduction_plain hreduction a ha)
    · exact fun a ha => absurd ha List.not_mem_nil
  · exact fun a ha => absurd ha List.not_mem_nil

end Control

/-! ## Boot entries -/

/-- The strings of a boot entry. -/
structure BentryOk (clean : Prop) (b : CfgBentry) : Prop where
  title : IsLine b.title
  label : IsLine b.label
  cmdline : IsLine b.cmdline
  root : clean → b.root = [] ∨ IsUri b.root
  kernel : clean → ReadsBack b.kernel
  initrd : clean → ReadsBack b.initrd
  parmfile : clean → ReadsBack b.parmfile
  insfile : clean → b.insfile = [] ∨ IsUri b.insfile
  bootmap : clean → b.bootmap = [] ∨ IsUri b.bootmap
  insfileSet : b.action = .insfileBoot → b.insfile ≠ []
  bootmapSet : b.action = .bootmapBoot → b.bootmap ≠ []

theorem readsBack_nil : ReadsBack [] := by
  refine Or.inr ⟨isLine_nil, ?_⟩
  rintro ⟨start, hstart, hprefix⟩
  exact uriStart_ne_nil hstart (List.prefix_nil.mp hprefix)

section Bentry

variable {clean : Prop} {b : CfgBentry}

theorem bentryOk_init : BentryOk clean .init where
  title := isLine_nil
  label := isLine_nil
  cmdline := isLine_nil
  root := fun _ => Or.inl rfl
  kernel := fun _ => readsBack_nil
  initrd := fun _ => readsBack_nil
  parmfile := fun _ => readsBack_nil
  insfile := fun _ => Or.inl rfl
  bootmap := fun _ => Or.inl rfl
  insfileSet := fun h => by cases h
  bootmapSet := fun h => by cases h

theorem BentryOk.set (h : BentryOk clean b) {o : BootOption} (ho : OptionOk clean o) :
    BentryOk clean (o.set b) := by
  cases o with
  | root str => exact { h with root := fun hc => Or.inr (ho hc) }
  | lock => exact { h with }
  | pause str => exact { h with }
  | kernel str =>
    exact { h with kernel := ho, insfileSet := fun h => (by cases h),
                   bootmapSet := fun h => (by cases h) }
  | initrd str => exact { h with initrd := ho }
  | cmdline str => exact { h with cmdline := ho }
  | parmfile str => exact { h with parmfile := ho }
  | insfile str =>
    exact { h with insfile := fun hc => Or.inr (ho.2 hc), insfileSet := fun _ => ho.1,
                   bootmapSet := fun h => (by cases h) }
  | bootmap str =>
    exact { h with bootmap := fun hc => Or.inr (ho.2 hc), bootmapSet := fun _ => ho.1,
                   insfileSet := fun h => (by cases h) }
  | reboot =>
    exact { h with insfileSet := fun h => (by cases h), bootmapSet := fun h => (by cases h) }
  | halt =>
    exact { h with insfileSet := fun h => (by cases h), bootmapSet := fun h => (by cases h) }
  | shell =>
    exact { h with insfileSet := fun h => (by cases h), bootmapSet := fun h => (by cases h) }
  | exit =>
    exact { h with insfileSet := fun h => (by cases h), bootmapSet := fun h => (by cases h) }

theorem BentryOk.step (h : BentryOk clean b) {a : Act} (ha : ActOk clean a) (active : Bool) :
    BentryOk clean (bentryStep b (a, active)) := by
  cases a with
  | title str => exact { h with title := ha }
  | label str => exact { h with label := ha }
  | bootentry => exact bentryOk_init
  | option o =>
    show BentryOk clean (if active then o.set b else b)
    split
    · exact h.set ha
    · exact h
  | _ => exact h

/-- The boot entry that is being built, and those that have been added. -/
def BentriesOk (clean : Prop) (c : ParserContext) : Prop :=
  BentryOk clean c.bentry ∧ ∀ b ∈ c.toplevel.bentryList, BentryOk clean b

theorem BentriesOk.exec {env : Env} {c d : ParserContext} (hc : BentriesOk clean c) {a : Act}
    (ha : ActOk clean a) (h : exec env c a = .ok d) : BentriesOk clean d := by
  obtain ⟨hbentry, hlist⟩ := exec_bentries h
  refine ⟨hbentry ▸ hc.1.step ha _, fun b hb => ?_⟩
  rw [hlist] at hb
  rcases List.mem_append.mp hb with hb | hb
  · exact hc.2 b hb
  · have hb : b ∈ if (a, c.active) = (.bootentry, true) then [c.bentry] else [] := by
      simpa [bentries] using hb
    split at hb
    · exact List.mem_singleton.mp hb ▸ hc.1
    · exact absurd hb List.not_mem_nil

theorem BentriesOk.execAll {env : Env} {as : List Act} {c d : ParserContext}
    (hc : BentriesOk clean c) (has : ∀ a ∈ as, ActOk clean a) (h : execAll env as c = .ok d) :
    BentriesOk clean d := by
  induction as generalizing c with
  | nil =>
    cases h
    exact hc
  | cons a as ih =>
    obtain ⟨e, he, hrest⟩ := execAll_cons_eq_ok.mp h
    obtain ⟨ha, has⟩ := List.forall_mem_cons.mp has
    exact ih (hc.exec ha he) has hrest

end Bentry

/-! ## A whole parse -/

section Parse

variable {clean : Prop} {env : Env} {msgs : Messages}

/-- What can be included has no `NUL`. -/
def NulFree (env : Env) : Prop :=
  ∀ executed uri content, env.load executed uri = some content → nul ∉ content

theorem NulFree.openInclUri (h : NulFree env) {executed : List Command} {uri : CStr}
    {content : List Char} (hopen : env.openInclUri executed uri = some content) :
    nul ∉ content := by
  unfold Env.openInclUri at hopen
  split at hopen
  · exact h executed uri content hopen
  · cases hopen

/-- What holds throughout a parse. -/
structure EntriesInv (clean : Prop) (s : Parse) : Prop where
  scan : clean → Clean s.scan
  read : ReadOk clean s.scan s.control.read
  bentries : BentriesOk clean s.ctx

theorem EntriesInv.flexStep (hload : clean → NulFree env) {s : Parse} (h : EntriesInv clean s) :
    clean → Clean (s.flexStep env).1 := fun hc =>
  (h.scan hc).step fun _ _ hopen => (hload hc).openInclUri hopen

/-- The actions at an event, and what is read behind it. -/
theorem EntriesInv.take {s : Parse} (h : EntriesInv clean s) {e : Event}
    (hevent : (s.flexStep env).2 = some e) :
    (∀ a ∈ (s.control.take e).1, ActOk clean a) ∧
      ∀ c', (s.control.take e).2 = .shifted c' → ReadOk clean (s.flexStep env).1 c'.read := by
  cases e with
  | eof => exact ⟨finish_ok, fun c' hc' => absurd hc' (s.control.take_eof c')⟩
  | token t yytext =>
    obtain ⟨ht, hcoupled⟩ := token_coupled (fun hc => (h.scan hc).nul) hevent
    have hfollows : TokenFollows clean s.control.read t := fun hstring u hu =>
      (h.read.last u hu).follows (fun hc => (h.scan hc).nul) hevent hstring
    obtain ⟨hacts, hread⟩ := shift_ok h.read hfollows
    unfold Control.take
    cases hshift : (s.control.shift t).2 with
    | none =>
      simp only [hshift]
      exact ⟨hacts, fun c' hc' => by cases hc'⟩
    | some c' =>
      simp only [hshift]
      refine ⟨hacts, fun c'' hc'' => ?_⟩
      cases hc''
      rcases hread c' hshift with hnil | hcons
      · rw [hnil]
        exact ⟨fun t ht => absurd ht List.not_mem_nil, fun t ht => by cases ht⟩
      · rw [hcons]
        refine ⟨fun u hu => ?_, fun u hu => ?_⟩
        · rcases List.mem_append.mp hu with hu | hu
          · exact h.read.tokens u hu
          · rwa [List.mem_singleton.mp hu]
        · rw [List.getLast?_concat] at hu
          rwa [← Option.some.inj hu]

/-- **Every boot entry of a parse** has strings that the scanner has returned. -/
theorem yyparse_bentriesOk (hload : clean → NulFree env) {s s' : Parse} {accepted : Bool}
    (hs : EntriesInv clean s) (h : (yyparse env msgs s).Gives (.ok (accepted, s'))) :
    BentriesOk clean s'.ctx := by
  suffices H : ∀ r, (yyparse env msgs s).Gives r → EntriesInv clean s →
      ∀ accepted s', r = .ok (accepted, s') → BentriesOk clean s'.ctx from H _ h hs _ _ rfl
  intro r hr
  refine Prog.loop_induction (motive := fun s r => EntriesInv clean s →
    ∀ (accepted : Bool) (s' : Parse), r = .ok (accepted, s') → BentriesOk clean s'.ctx)
    (fun s a ha hs accepted s' heq => ?_) (fun s e _ _ _ _ heq => by cases heq)
    (fun s t r ht ih hs => ih ?_) hr
  · have hpass := passes_pass env msgs s
    rw [Prog.gives_lift.mp ha] at hpass
    cases heq
    cases hpass with
    | accepted hevent hexec _ => exact hs.bentries.execAll (hs.take hevent).1 hexec
    | rejected hevent hexec _ hmsg =>
      have hbentries := hs.bentries.execAll (hs.take hevent).1 hexec
      unfold ParserContext.yyerror at hmsg
      split at hmsg
      · cases hmsg
        exact hbentries
      · cases hmsg
  · have hpass := passes_pass env msgs s
    rw [Prog.gives_lift.mp ht] at hpass
    cases hpass with
    | skipped hevent =>
      refine ⟨hs.flexStep hload, ⟨hs.read.tokens, fun t ht => ?_⟩, hs.bentries⟩
      exact (hs.read.last t ht).skip (fun hc => (hs.scan hc).lines) hevent
    | shifted hevent hexec hverdict =>
      obtain ⟨hacts, hread⟩ := hs.take hevent
      exact ⟨hs.flexStep hload, hread _ hverdict, hs.bentries.execAll hacts hexec⟩

theorem entriesInv_start (scan : Scanner) (args : Option CStr) (text : List Char)
    (hclean : clean → Clean (scan.restart text)) : EntriesInv clean (.start scan args text) where
  scan := hclean
  read := ⟨fun t ht => absurd ht List.not_mem_nil, fun t ht => by cases ht⟩
  bentries := ⟨bentryOk_init, fun b hb => absurd hb List.not_mem_nil⟩

end Parse

end Sysload.Parser
