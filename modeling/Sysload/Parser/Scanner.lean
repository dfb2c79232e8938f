import Sysload.Lib.Lexer
import Sysload.Parser.Automaton

/-!
# The scanner (`sysload.conf.l`)

`rules` are the rules of the scanner in their order, each with its start conditions, its pattern
and what its code does. A pattern with `$` needs a line break behind it, which counts for the
longest match and stays in the input (`trail`). All start conditions are exclusive, so a rule
without one is for `INITIAL` only. What no rule matches is echoed, one character at a time.

`flexStep` is one match. At the end of a buffer the scanner goes on with the buffer that was
suspended by an `include`; the start condition stays what it is.

Source: `src/core/sysload.conf.l`; `src/core/parser.c`, `open_incl_uri`. Out of scope are the
buffers of flex, and a `YY_INPUT` that fails.
-/

namespace Sysload.Parser

open Lexer

/-- The start conditions. -/
inductive Mode where
  | initial
  | strmode
  | urimode
  | urirestmode
  | uimode
  | includemode
  | modmode
  deriving DecidableEq, Repr

/-- What the code of a rule does. -/
inductive Action where
  /-- Return the token, if `val` with the text as its value; `BEGIN(next)`. -/
  | token (k : Kind) (val : Bool) (next : Option Mode)
  /-- `yyless(n)`, `BEGIN(next)` and return the token. -/
  | less (k : Kind) (n : Nat) (next : Mode)
  /-- Return the character; `BEGIN(next)`. -/
  | char (next : Option Mode)
  /-- Return the rest of the line as a `T_STRING`. -/
  | string
  /-- Return nothing; `BEGIN(next)`. -/
  | skip (next : Option Mode)
  /-- Count the line. -/
  | newline
  /-- Open the URI in the rest of the line. -/
  | incl
  deriving DecidableEq, Repr

/-- A rule of the scanner. -/
structure Rule where
  modes : List Mode
  pattern : Pattern
  trail : Bool
  action : Action
  deriving DecidableEq, Repr

/-! ## The rules -/

/-- A class of characters. -/
def oneOf (ranges : List (Char × Char)) : Pattern := .cls ⟨false, ranges⟩

/-- All characters but those of a class. -/
def noneOf (ranges : List (Char × Char)) : Pattern := .cls ⟨true, ranges⟩

/-- One character. -/
def chr (c : Char) : Pattern := oneOf [(c, c)]

/-- A string. -/
def word : List Char → Pattern
  | [] => .eps
  | [c] => chr c
  | c :: cs => .seq (chr c) (word cs)

/-- `p+`. -/
def plus (p : Pattern) : Pattern := .seq p (.star p)

/-- `DIGIT`. -/
def digit : Pattern := oneOf [('0', '9')]

/-- `HEXCH`. -/
def hexch : Pattern := oneOf [('0', '9'), ('A', 'F'), ('a', 'f')]

/-- The first character of an `ID`. -/
def idStart : CharClass := ⟨false, [('a', 'z'), ('A', 'Z'), ('_', '_')]⟩

/-- The other characters of an `ID`. -/
def idRest : CharClass :=
  ⟨false, [('a', 'z'), ('A', 'Z'), ('0', '9'), ('_', '_'), ('.', '.'), ('-', '-')]⟩

/-- `ID`. -/
def ident : Pattern := .seq (.cls idStart) (.star (.cls idRest))

/-- `URIMIDDLE`. -/
def uriMiddle : Pattern := word [':', '/', '/']

/-- `{ID}{URIMIDDLE}`. -/
def uriStart : Pattern := .seq ident uriMiddle

/-- `WHITESPACE`. -/
def whitespace : CharClass := ⟨false, [(' ', ' '), ('\t', '\t')]⟩

/-- `{WHITESPACE}+`. -/
def blanks : Pattern := plus (.cls whitespace)

/-- The period. -/
def anyChar : CharClass := ⟨true, [('\n', '\n')]⟩

/-- `.*`. -/
def anyLine : Pattern := .star (.cls anyChar)

/-- A rule without trailing context. -/
def rule (modes : List Mode) (p : Pattern) (a : Action) : Rule := ⟨modes, p, false, a⟩

/-- A rule with `$`. -/
def ruleEol (modes : List Mode) (p : Pattern) (a : Action) : Rule := ⟨modes, .seq p (chr '\n'), true, a⟩

/-- A keyword. -/
def keyword (s : String) (k : Kind) : Rule := rule [.initial] (word s.toList) (.token k false none)

/-- A keyword with a value behind it. -/
def keywordWs (s : String) (k : Kind) (next : Option Mode) : Rule :=
  rule [.initial] (.seq (word s.toList) blanks) (.token k false next)

/-- A keyword with a URI behind it; only the keyword is consumed. -/
def keywordUri (s : String) (k : Kind) : Rule :=
  rule [.initial] (.seq (word s.toList) (.seq blanks uriStart)) (.less k s.length .urimode)

open Kind Mode in
/-- The rules, in their order. -/
def rules : List Rule :=
  [ruleEol [strmode] anyLine .string,
    ruleEol [includemode] anyLine .incl,
    rule [urimode] uriStart (.token tUristart true (some urirestmode)),
    rule [urirestmode] (.seq (chr '(') (.seq (plus (noneOf [(')', ')')])) (chr ')')))
      (.token tUribracket true (some strmode)),
    ruleEol [urirestmode] (.seq (noneOf [('(', '(')]) anyLine) (.token tString true (some initial)),
    rule [initial] (plus digit) (.token tNumber true none),
    rule [initial] (.seq (chr '0') (.seq (oneOf [('x', 'x'), ('X', 'X')]) (plus hexch)))
      (.token tHexnum true none),
    rule [initial] (.seq (plus hexch) (.seq (chr '.') (.seq (plus hexch) (.seq (chr '.')
      (plus hexch))))) (.token tBusidval true none),
    rule [initial] (.seq (plus hexch) (.seq (chr ':') (.seq (plus hexch) (.seq (chr ':')
      (.seq (plus hexch) (.seq (chr ':') (.seq (plus hexch) (.seq (chr ':') (.seq (plus hexch)
      (.seq (chr ':') (plus hexch))))))))))) (.token tMacval true none),
    rule [initial] (.seq (plus digit) (.seq (chr '.') (.seq (plus digit) (.seq (chr '.')
      (.seq (plus digit) (.seq (chr '.') (plus digit))))))) (.token tIpaddr true none),
    ruleEol [initial] (.seq (chr '#') anyLine) (.skip none),
    keywordWs "default" tDefault (some strmode),
    keywordWs "timeout" tTimeout none,
    keywordWs "password" tPassword (some strmode),
    keywordWs "exec" tExec (some strmode),
    keywordWs "userinterface" tUserinterface (some uimode),
    keywordWs "pause" tPause (some strmode),
    rule [initial] (word "include".toList) (.skip (some includemode)),
    rule [initial] (word "mod".toList) (.token tMod false (some modmode)),
    keyword "boot_entry" tBootEntry,
    keyword "lock" tLock,
    keyword "reboot" tReboot,
    keyword "halt" tHalt,
    keyword "exit" tExit,
    keyword "shell" tShell,
    keyword "network" tNetwork,
    keyword "knet" tKnet,
    keyword "mode" tMode,
    keyword "dhcp" tDhcp,
    keyword "static" tStatic,
    keyword "address" tAddress,
    keyword "mask" tMask,
    keyword "gateway" tGateway,
    keyword "nameserver" tNameserver,
    keyword "interface" tInterface,
    keyword "setup" tSetup,
    keyword "kset" tKset,
    keyword "qeth" tQeth,
    keyword "zfcp" tZfcp,
    keyword "dasd" tDasd,
    keyword "busid" tBusid,
    keyword "wwpn" tWwpn,
    keyword "lun" tLun,
    keyword "system" tSystem,
    keyword "uuid" tUuid,
    keyword "mac" tMac,
    keyword "vmguest" tVmguest,
    keyword "lpar" tLpar,
    keyword "module" tModule,
    keyword "true" tTrue,
    keyword "false" tFalse,
    keyword "not" tNot,
    keywordWs "name" tName (some strmode),
    keywordWs "param" tParam (some strmode),
    keywordWs "kernelversion" tKernelversion (some strmode),
    keywordWs "title" tTitle (some strmode),
    keywordWs "label" tLabel (some strmode),
    keywordWs "cmdline" tCmdline (some strmode),
    keywordWs "kernel" tKernel (some strmode),
    keywordUri "kernel" tKernel,
    rule [initial] (.seq (word "initrd".toList) blanks) (.token tInitrd true (some strmode)),
    keywordUri "initrd" tInitrd,
    keywordUri "root" tRoot,
    keywordWs "parmfile" tParmfile (some strmode),
    keywordUri "parmfile" tParmfile,
    keywordUri "insfile" tInsfile,
    keywordUri "bootmap" tBootmap,
    rule [modmode, initial] ident (.token tIdent true none),
    rule [uimode] (word "ssh".toList) (.token tSsh false none),
    rule [uimode] ident (.token tIdent true (some strmode)),
    rule [urimode, initial] blanks (.skip none),
    rule [initial] (chr '\n') .newline,
    rule [modmode, initial] (oneOf [('(', '('), (',', ','), ('/', '/'), ('{', '{'), ('}', '}'),
      ('=', '=')]) (.char none),
    rule [modmode] (chr ')') (.char (some initial)),
    rule [initial] (chr ')') (.char none),
    rule [urimode, initial] (.cls anyChar) (.token tUnrecognized true none)]

/-- The rules of a start condition, with their patterns. -/
def rulesOf (m : Mode) : List (Pattern × Rule) :=
  (rules.filter fun r => r.modes.contains m).map fun r => (r.pattern, r)

/-- The token of a single character. -/
def charKind (c : Char) : Kind :=
  if c = '(' then .lparen
  else if c = ')' then .rparen
  else if c = ',' then .comma
  else if c = '/' then .slash
  else if c = '{' then .lbrace
  else if c = '}' then .rbrace
  else .equals

/-! ## The scanner -/

/-- A suspended buffer: what is left of it, and its line. -/
structure Saved where
  text : List Char
  lineno : Nat
  deriving DecidableEq, Repr

/-- The state of the scanner. -/
structure Scanner where
  mode : Mode
  lineno : Nat
  text : List Char
  stack : List Saved
  deriving DecidableEq, Repr

/-- `MAX_INCL_DEPTH`. -/
def maxInclDepth : Nat := 20

/-- The state in a new process. -/
def Scanner.fresh : Scanner := ⟨.initial, 1, [], []⟩

/-- `yyrestart`, `yy_scan_string`: only the buffer is replaced. -/
def Scanner.restart (s : Scanner) (text : List Char) : Scanner := { s with text := text }

/-- What the scanner delivers; with a token comes `yytext`. -/
inductive Event where
  | token (t : Token) (yytext : CStr)
  | eof
  deriving DecidableEq, Repr

/-- A string without its blanks in front. -/
def dropBlanks (str : CStr) : CStr := str.dropWhile whitespace.mem

section Step

variable (active : Bool) (load : CStr → Option (List Char))

/-- Include a URI. Too deep, in an inactive section, or if it cannot be loaded it is ignored. -/
def Scanner.include (s : Scanner) (uri : CStr) : Scanner :=
  if maxInclDepth ≤ s.stack.length then s
  else if !active then s
  else
    match load uri with
    | some content =>
      { s with text := content, lineno := 1, stack := ⟨s.text, s.lineno⟩ :: s.stack }
    | none => s

/-- The code of a rule, for the text it has matched; the scanner is already behind the text. -/
def Scanner.act (s : Scanner) (yytext : List Char) : Action → Scanner × Option Event
  | .token k val next =>
    ({ s with mode := next.getD s.mode },
      some (.token ⟨k, if val then cstr yytext else []⟩ (cstr yytext)))
  | .less k n next =>
    ({ s with mode := next, text := yytext.drop n ++ s.text },
      some (.token ⟨k, []⟩ (cstr (yytext.take n))))
  | .char next =>
    ({ s with mode := next.getD s.mode },
      some (.token ⟨charKind (yytext.headD nul), []⟩ (cstr yytext)))
  | .string =>
    ({ s with mode := .initial }, some (.token ⟨.tString, dropBlanks (cstr yytext)⟩ (cstr yytext)))
  | .skip next => ({ s with mode := next.getD s.mode }, none)
  | .newline => ({ s with mode := .initial, lineno := s.lineno + 1 }, none)
  | .incl => ({ s with mode := .initial }.include active load (dropBlanks (cstr yytext)), none)

/-- How much of a match of `n` characters is taken: the trailing context is not. -/
def Rule.taken (r : Rule) (n : Nat) : Nat := if r.trail then n - 1 else n

/-- One match, or the end of a buffer. -/
def Scanner.flexStep (s : Scanner) : Scanner × Option Event :=
  match s.text with
  | [] =>
    match s.stack with
    | [] => (s, some .eof)
    | saved :: stack =>
      ({ s with text := saved.text, lineno := saved.lineno, stack := stack }, none)
  | c :: rest =>
    match pick (rulesOf s.mode) (c :: rest) with
    | none => ({ s with text := rest }, none)
    | some (n, r) =>
      { s with text := (c :: rest).drop (r.taken n) }.act active load ((c :: rest).take (r.taken n))
        r.action

/-- The rule `r` matches the next `n` characters. -/
structure Scanner.Matches (s : Scanner) (n : Nat) (r : Rule) : Prop where
  rule : r ∈ rules
  mode : s.mode ∈ r.modes
  length : n ≤ s.text.length
  lang : s.text.take n ∈ r.pattern.lang

theorem mem_lang_chr {c : Char} {w : List Char} : w ∈ (chr c).lang ↔ w = [c] := by
  constructor
  · rintro ⟨d, hd, rfl⟩
    have hd : c ≤ d ∧ d ≤ c := by simpa [CharClass.mem, oneOf] using hd
    rw [Char.le_antisymm hd.1 hd.2]
  · rintro rfl
    exact ⟨c, by simp [CharClass.mem], rfl⟩

theorem mem_rulesOf {m : Mode} {p : Pattern} {r : Rule} :
    (p, r) ∈ rulesOf m ↔ r ∈ rules ∧ m ∈ r.modes ∧ r.pattern = p := by
  simp only [rulesOf, List.mem_map, List.mem_filter, List.contains_iff_mem, Prod.mk.injEq]
  constructor
  · rintro ⟨r', ⟨hr, hm⟩, hp, rfl⟩
    exact ⟨hr, hm, hp⟩
  · rintro ⟨hr, hm, hp⟩
    exact ⟨r, ⟨hr, hm⟩, hp, rfl⟩

variable {active load} in
/-- The code of the rule that is picked. -/
theorem Scanner.flexStep_of_pick {s : Scanner} {c : Char} {rest : List Char} (htext : s.text = c :: rest)
    {n : Nat} {r : Rule} (hpick : pick (rulesOf s.mode) (c :: rest) = some (n, r)) :
    s.flexStep active load =
      { s with text := s.text.drop (r.taken n) }.act active load (s.text.take (r.taken n))
        r.action := by
  unfold flexStep
  rw [htext]
  dsimp only
  rw [hpick]

variable {active load} in
/-- An echo. -/
theorem Scanner.flexStep_of_none {s : Scanner} {c : Char} {rest : List Char}
    (htext : s.text = c :: rest) (hpick : pick (rulesOf s.mode) (c :: rest) = none) :
    s.flexStep active load = ({ s with text := rest }, none) := by
  unfold flexStep
  rw [htext]
  dsimp only
  rw [hpick]

/-- An include is followed or ignored. -/
theorem Scanner.include_cases (s : Scanner) (uri : CStr) :
    s.include active load uri = s ∨
    s.stack.length < maxInclDepth ∧ active = true ∧ ∃ content, load uri = some content ∧
      s.include active load uri =
        { s with text := content, lineno := 1, stack := ⟨s.text, s.lineno⟩ :: s.stack } := by
  by_cases hdepth : maxInclDepth ≤ s.stack.length
  · exact Or.inl (if_pos hdepth)
  by_cases hactive : active = true
  · rw [Scanner.include, if_neg hdepth, if_neg (by simp [hactive])]
    cases hload : load uri with
    | none => exact Or.inl rfl
    | some content => exact Or.inr ⟨Nat.lt_of_not_le hdepth, hactive, content, rfl, rfl⟩
  · rw [Scanner.include, if_neg hdepth, if_pos (by simpa using hactive)]
    exact Or.inl rfl

/-- **What one step of the scanner can be**: the end of the input, the end of an included buffer, an
echo, or the code of a rule that matches. -/
theorem Scanner.flexStep_cases (s : Scanner) :
    (s.text = [] ∧ s.stack = [] ∧ s.flexStep active load = (s, some .eof)) ∨
    (∃ saved stack, s.text = [] ∧ s.stack = saved :: stack ∧ s.flexStep active load =
      ({ s with text := saved.text, lineno := saved.lineno, stack := stack }, none)) ∨
    (∃ c rest, s.text = c :: rest ∧ s.flexStep active load = ({ s with text := rest }, none)) ∨
    ∃ n r, s.Matches n r ∧ s.flexStep active load =
      { s with text := s.text.drop (r.taken n) }.act active load (s.text.take (r.taken n))
        r.action := by
  cases htext : s.text with
  | nil =>
    cases hstack : s.stack with
    | nil =>
      refine Or.inl ⟨rfl, rfl, ?_⟩
      unfold flexStep
      rw [htext, hstack]
    | cons saved stack =>
      refine Or.inr (Or.inl ⟨saved, stack, rfl, rfl, ?_⟩)
      unfold flexStep
      rw [htext, hstack]
  | cons c rest =>
    cases hpick : pick (rulesOf s.mode) (c :: rest) with
    | none => exact Or.inr (Or.inr (Or.inl ⟨c, rest, rfl, flexStep_of_none htext hpick⟩))
    | some match_ =>
      obtain ⟨n, r⟩ := match_
      obtain ⟨p, hmem, hn, hlang⟩ := pick_sound hpick
      obtain ⟨hr, hm, rfl⟩ := mem_rulesOf.mp hmem
      refine Or.inr (Or.inr (Or.inr ⟨n, r, ⟨hr, hm, htext ▸ hn, htext ▸ hlang⟩, ?_⟩))
      rw [← htext]
      exact flexStep_of_pick htext hpick

/-- No rule delivers the end of the input. -/
theorem Scanner.act_ne_eof (s : Scanner) (yytext : List Char) (action : Action) :
    (s.act active load yytext action).2 ≠ some .eof := by
  cases action <;> exact fun h => by cases h

/-- **At the end of the input** nothing is left to read. -/
theorem Scanner.flexStep_eof {s : Scanner} (h : (s.flexStep active load).2 = some .eof) :
    s.text = [] ∧ s.stack = [] := by
  rcases s.flexStep_cases active load with ⟨htext, hstack, _⟩ | ⟨_, _, _, _, heq⟩ | ⟨_, _, _, heq⟩ |
    ⟨_, _, _, heq⟩
  · exact ⟨htext, hstack⟩
  · rw [heq] at h
    cases h
  · rw [heq] at h
    cases h
  · rw [heq] at h
    exact absurd h (act_ne_eof _ _ _ _ _)

end Step

/-! ## The rest of a line -/

theorem rulesOf_strmode :
    rulesOf .strmode = [(.seq anyLine (chr '\n'), ruleEol [.strmode] anyLine .string)] := rfl

theorem live_strmode {c : Char} (hc : c ≠ '\n') :
    live c (rulesOf .strmode) = rulesOf .strmode := by
  have hne : (decide ('\n' ≤ c) && decide (c ≤ '\n')) = false := by
    rw [← Bool.decide_and]
    exact decide_eq_false fun h => hc (Char.le_antisymm h.2 h.1)
  have hany : anyChar.mem c = true := by
    simp only [CharClass.mem, anyChar, List.any_cons, List.any_nil, hne]
    rfl
  have hchr : (chr '\n').deriv c = .empty := by
    simp only [chr, oneOf, Pattern.deriv, CharClass.mem, List.any_cons, List.any_nil, hne]
    rfl
  have hderiv : (Pattern.seq anyLine (chr '\n')).deriv c = .seq anyLine (chr '\n') := by
    rw [Pattern.deriv, hchr, anyLine, Pattern.deriv, Pattern.deriv, if_pos hany]
    rfl
  rw [rulesOf_strmode, live, List.map_singleton, hderiv]
  rfl

theorem scan_strmode {line : List Char} (h : '\n' ∉ line) (rest : List Char) (n : Nat) :
    scan (rulesOf .strmode) n none (line ++ '\n' :: rest) =
      some (n + line.length + 1, ruleEol [.strmode] anyLine .string) := by
  induction line generalizing n with
  | nil =>
    have hlive : live '\n' (rulesOf .strmode) = [(.eps, ruleEol [.strmode] anyLine .string)] := rfl
    rw [List.nil_append, scan, hlive]
    exact scan_eps _ _ _ rest
  | cons c line ih =>
    obtain ⟨hc, hline⟩ := not_or.mp (mt List.mem_cons.mpr h)
    rw [List.cons_append, scan, live_strmode (Ne.symm hc), rulesOf_strmode]
    show scan (rulesOf .strmode) (n + 1) none (line ++ '\n' :: rest) = _
    rw [ih hline, List.length_cons]
    congr 2
    omega

/-- **In `STRMODE` the rest of the line is one string.** -/
theorem pick_strmode {line : List Char} (h : '\n' ∉ line) (rest : List Char) :
    pick (rulesOf .strmode) (line ++ '\n' :: rest) =
      some (line.length + 1, ruleEol [.strmode] anyLine .string) := by
  rw [pick, scan_strmode h, Nat.zero_add]

theorem Scanner.flexStep_strmode {active : Bool} {load : CStr → Option (List Char)} {s : Scanner}
    (hmode : s.mode = .strmode) {line rest : List Char} (hline : '\n' ∉ line)
    (htext : s.text = line ++ '\n' :: rest) :
    s.flexStep active load = ({ s with mode := .initial, text := '\n' :: rest },
      some (.token ⟨.tString, dropBlanks (cstr line)⟩ (cstr line))) := by
  obtain ⟨c, tail, hcons⟩ : ∃ c tail, s.text = c :: tail := by
    refine List.exists_cons_of_ne_nil fun hnil => ?_
    rw [hnil] at htext
    exact absurd htext.symm (by simp)
  have hpick : pick (rulesOf s.mode) (c :: tail) =
      some (line.length + 1, ruleEol [.strmode] anyLine .string) := by
    rw [← hcons, htext, hmode]
    exact pick_strmode hline rest
  have htaken : (ruleEol [.strmode] anyLine .string).taken (line.length + 1) = line.length := rfl
  rw [flexStep_of_pick hcons hpick, htaken, htext, List.take_left, List.drop_left]
  rfl

end Sysload.Parser
