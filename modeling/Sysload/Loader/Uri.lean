import Sysload.Loader.Insfile

/-!
# References and URIs (`loader.c`, `comp_load.c`, `insfile.c`)

`verify_uri_scheme`, `prefix_root` and `get_uri_path` with their loops, and the name of the loader
module that `comp_load` starts. The loader itself is modelled with functions on whole strings; they are
the same functions (`verifyUriScheme_eq`, `prefixRoot_eq`, `getUriPath_eq`).

Source: `src/core/loader.c`, `prefix_root`; `src/core/comp_load.c`, `verify_uri_scheme` and the name
of the module in `comp_load`; `src/core/insfile.c`, `get_uri_path`.

Results:
* `Absolute`: what a URI is, and `verifyUriScheme_iff`: the test for it.
* `prefixRoot_absolute`: with an absolute root every reference becomes absolute, and stays as it is.
* `getUriPath_absolute`: the path of a URI is a URI.
* **`references_resolve`**: every component of an insfile is loaded from a URI, by a module whose name
  has no slash.
-/

namespace Sysload.Uri

/-! ## The functions -/

/-- `strchr`: where the character first stands. -/
def strchr (str : CStr) (c : Char) : Option Nat := str.findIdx? fun d => d == c

/-- `islower(c) || isupper(c)`. -/
def isLetter (c : Char) : Bool := c.isLower || c.isUpper

/-- The loop over the characters before the colon: `n` of them are left, from `ptr` on. -/
def schemeLoop (uri : CStr) : (ptr n : Nat) → Bool
  | _, 0 => true
  | ptr, n + 1 => isSchemeChar (uri.getD ptr nul) && schemeLoop uri (ptr + 1) n

/-- `verify_uri_scheme`: `true` for the return value 0. -/
def verifyUriScheme (uri : CStr) : Bool :=
  match strchr uri ':' with
  | none => false
  | some colon =>
    if !isLetter (uri.getD 0 nul) then false
    else if !schemeLoop uri 1 (colon - 1) then false
    else true

/-- `prefix_root`. -/
def prefixRoot (root uri : CStr) : CStr :=
  if uri.length = 0 then []
  else if 1 < uri.length ∧ uri.getD 0 nul = singleQuote ∧
      uri.getD (uri.length - 1) nul = singleQuote then
    (root ++ uri.drop 1).dropLast
  else
    match strchr uri ':' with
    | none => root ++ uri
    | some colon =>
      if !isLetter (uri.getD 0 nul) then root ++ uri
      else if !schemeLoop uri 1 (colon - 1) then root ++ uri
      else uri

/-- The loop of `get_uri_path`, from `i - 1` down: the length of the path. -/
def copyLength (uri : CStr) : (i : Nat) → Nat
  | 0 => uri.length
  | i + 1 => if uri.getD i nul = '/' then i + 1 else copyLength uri i

/-- `get_uri_path`. -/
def getUriPath (uri : CStr) : CStr := uri.take (copyLength uri uri.length)

/-- `COMP_LOAD_MODULE_PATH`. -/
def compLoadModulePath : CStr := "cl".toList

/-- `uri_scheme` of `comp_load`. -/
def uriScheme (uri : CStr) : CStr := uri.take ((strchr uri ':').getD 0)

/-- `module` of `comp_load`. -/
def compLoadModule (defaultpath uri : CStr) : CStr :=
  defaultpath ++ '/' :: compLoadModulePath ++ "/cl_".toList ++ uriScheme uri

/-! ## What a URI is -/

/-- A letter, then letters, digits, `+`, `-` and `.`. -/
def Scheme (s : CStr) : Prop :=
  ∃ c cs, s = c :: cs ∧ isLetter c = true ∧ ∀ d ∈ cs, isSchemeChar d = true

/-- A scheme, a colon, and anything. -/
def Absolute (uri : CStr) : Prop := ∃ s rest, uri = s ++ ':' :: rest ∧ Scheme s

/-- In single quotes. -/
def Quoted (uri : CStr) : Prop := ∃ text, uri = singleQuote :: text ++ [singleQuote]

theorem isSchemeChar_of_isLetter {c : Char} (h : isLetter c = true) : isSchemeChar c = true := by
  unfold isLetter at h
  simp [isSchemeChar, h]

theorem Scheme.all {s : CStr} (h : Scheme s) : ∀ c ∈ s, isSchemeChar c = true := by
  obtain ⟨c, cs, rfl, hc, hcs⟩ := h
  exact List.forall_mem_cons.mpr ⟨isSchemeChar_of_isLetter hc, hcs⟩

/-- A character that is no scheme character is in no scheme. -/
theorem Scheme.notMem {s : CStr} (h : Scheme s) {c : Char} (hc : isSchemeChar c = false) : c ∉ s :=
  fun hmem => absurd (h.all c hmem) (by simp [hc])

theorem strchr_append {c : Char} {s : CStr} (h : c ∉ s) (rest : CStr) :
    strchr (s ++ c :: rest) c = some s.length := by
  induction s with
  | nil => simp [strchr, List.findIdx?_cons]
  | cons d s ih =>
    obtain ⟨hd, hs⟩ := not_or.mp (mt List.mem_cons.mpr h)
    have ih := ih hs
    unfold strchr at ih
    simp [strchr, List.findIdx?_cons, Ne.symm hd, ih]

theorem strchr_none {c : Char} {s : CStr} (h : c ∉ s) : strchr s c = none := by
  rw [strchr, List.findIdx?_eq_none_iff]
  intro d hd
  exact beq_eq_false_iff_ne.mpr fun heq => h (heq ▸ hd)

/-- A string without a colon, or one with its first colon. -/
theorem colon_cases (uri : CStr) : ':' ∉ uri ∨ ∃ s rest, uri = s ++ ':' :: rest ∧ ':' ∉ s := by
  by_cases h : ':' ∈ uri
  · exact Or.inr (List.eq_append_cons_of_mem h)
  · exact Or.inl h

/-- The first colon of a string splits it in one way. -/
theorem append_colon_inj {s s' rest rest' : CStr} (hs : ':' ∉ s) (hs' : ':' ∉ s')
    (h : s ++ ':' :: rest = s' ++ ':' :: rest') : s = s' ∧ rest = rest' := by
  have hlen : s.length = s'.length := by
    have hpos := congrArg (fun str => strchr str ':') h
    simpa [strchr_append hs, strchr_append hs'] using hpos
  obtain ⟨rfl, hrest⟩ := List.append_inj h hlen
  exact ⟨rfl, (List.cons.inj hrest).2⟩

/-- The loop sees the characters from `ptr` to the colon. -/
theorem schemeLoop_append (s t : CStr) (rest : CStr) :
    schemeLoop (s ++ t ++ rest) s.length t.length = t.all isSchemeChar := by
  induction t generalizing s with
  | nil => rfl
  | cons c t ih =>
    have hc : (s ++ c :: t ++ rest).getD s.length nul = c := by simp
    have ih := ih (s ++ [c])
    rw [List.length_append, List.length_singleton, List.append_assoc s] at ih
    rw [List.length_cons, schemeLoop, hc, List.all_cons, ← ih]
    rfl

/-- The tests on a string with its first colon. -/
theorem tests_append (c : Char) (cs rest : CStr) :
    schemeLoop (c :: cs ++ ':' :: rest) 1 cs.length = cs.all isSchemeChar :=
  schemeLoop_append [c] cs (':' :: rest)

/-- **`verify_uri_scheme` accepts the URIs.** -/
theorem verifyUriScheme_iff (uri : CStr) : verifyUriScheme uri = true ↔ Absolute uri := by
  constructor
  · intro h
    rcases colon_cases uri with hnone | ⟨s, rest, rfl, hs⟩
    · rw [verifyUriScheme, strchr_none hnone] at h
      exact absurd h (by simp)
    · rw [verifyUriScheme, strchr_append hs] at h
      cases s with
      | nil =>
        have hletter : isLetter ':' = false := by decide
        simp [hletter] at h
      | cons c cs =>
        simp only [List.length_cons, Nat.add_sub_cancel, tests_append] at h
        simp at h
        exact ⟨c :: cs, rest, rfl, c, cs, rfl, h⟩
  · rintro ⟨s, rest, rfl, hs⟩
    have hcolon : ':' ∉ s := hs.notMem (by decide)
    obtain ⟨c, cs, rfl, hc, hcs⟩ := hs
    rw [verifyUriScheme, strchr_append hcolon]
    simp only [List.length_cons, Nat.add_sub_cancel, tests_append]
    simpa [hc] using hcs

/-- A string with single quotes at both ends. -/
theorem quoted_iff (uri : CStr) :
    (1 < uri.length ∧ uri.getD 0 nul = singleQuote ∧ uri.getD (uri.length - 1) nul = singleQuote) ↔
      Quoted uri := by
  constructor
  · rintro ⟨hlen, hfirst, hlast⟩
    cases uri with
    | nil => exact absurd hlen (by simp)
    | cons c cs =>
      obtain ⟨text, d, rfl⟩ : ∃ text d, cs = text ++ [d] := by
        refine ⟨cs.dropLast, cs.getLast ?_, (List.dropLast_append_getLast _).symm⟩
        rintro rfl
        exact absurd hlen (by simp)
      obtain rfl : c = singleQuote := hfirst
      obtain rfl : d = singleQuote := by simpa using hlast
      exact ⟨text, rfl⟩
  · rintro ⟨text, rfl⟩
    exact ⟨by simp, rfl, by simp⟩

theorem prefixRoot_quoted (root text : CStr) :
    prefixRoot root (singleQuote :: text ++ [singleQuote]) = root ++ text := by
  rw [prefixRoot, if_neg (by simp), if_pos ((quoted_iff _).mpr ⟨text, rfl⟩)]
  show (root ++ (text ++ [singleQuote])).dropLast = root ++ text
  rw [← List.append_assoc, List.dropLast_concat]

/-- **`prefix_root` on an unquoted reference** makes the tests of `verify_uri_scheme`. -/
theorem prefixRoot_unquoted (root : CStr) {uri : CStr} (hne : uri ≠ []) (hquoted : ¬ Quoted uri) :
    prefixRoot root uri = if verifyUriScheme uri then uri else root ++ uri := by
  rw [prefixRoot, if_neg (mt List.length_eq_zero_iff.mp hne), if_neg (mt (quoted_iff uri).mp hquoted),
    verifyUriScheme]
  cases strchr uri ':' with
  | none => rfl
  | some colon =>
    dsimp only
    split
    · rfl
    · split
      · rfl
      · rfl

/-! ## The functions of the loader -/

theorem verifyUriScheme_eq (uri : CStr) : Sysload.verifyUriScheme uri = verifyUriScheme uri := by
  rw [Bool.eq_iff_iff, verifyUriScheme_iff, Sysload.verifyUriScheme, List.span_eq_takeWhile_dropWhile]
  rcases colon_cases uri with hnone | ⟨s, rest, rfl, hs⟩
  · have hall : ∀ c ∈ uri, (c != ':') = true := fun c hc => bne_iff_ne.mpr fun heq => hnone (heq ▸ hc)
    have hdrop : uri.dropWhile (fun c => c != ':') = [] := by
      simpa using @List.dropWhile_append_of_pos _ (fun c => c != ':') _ [] hall
    rw [hdrop]
    refine iff_of_false (by simp) ?_
    rintro ⟨s, rest, rfl, _⟩
    exact hnone (by simp)
  · have hall : ∀ c ∈ s, (c != ':') = true := fun c hc => bne_iff_ne.mpr fun heq => hs (heq ▸ hc)
    rw [List.takeWhile_append_of_pos hall, List.dropWhile_append_of_pos hall,
      List.takeWhile_cons_of_neg (by decide), List.dropWhile_cons_of_neg (by decide),
      List.append_nil]
    constructor
    · intro h
      cases s with
      | nil => exact absurd h (by simp)
      | cons c cs =>
        obtain ⟨hc, hcs⟩ := Bool.and_eq_true_iff.mp h
        exact ⟨_, rest, rfl, c, cs, rfl, hc, List.all_eq_true.mp hcs⟩
    · rintro ⟨s', rest', heq, hscheme⟩
      obtain ⟨rfl, _⟩ := append_colon_inj hs (hscheme.notMem (by decide)) heq
      obtain ⟨c, cs, rfl, hc, hcs⟩ := hscheme
      exact Bool.and_eq_true_iff.mpr ⟨hc, List.all_eq_true.mpr hcs⟩

/-- The ends of a string of two characters or more. -/
theorem ends_iff {uri : CStr} (h : 1 < uri.length) (c : Char) :
    (uri.head? = some c ↔ uri.getD 0 nul = c) ∧
      (uri.getLast? = some c ↔ uri.getD (uri.length - 1) nul = c) := by
  have hfirst : 0 < uri.length := by omega
  have hlast : uri.length - 1 < uri.length := by omega
  rw [List.head?_eq_getElem?, List.getLast?_eq_getElem?, List.getD_eq_getElem?_getD,
    List.getD_eq_getElem?_getD, List.getElem?_eq_getElem hfirst, List.getElem?_eq_getElem hlast]
  simp

theorem prefixRoot_eq (root uri : CStr) : Sysload.prefixRoot root uri = prefixRoot root uri := by
  have hcond : (1 < uri.length ∧ uri.head? = some singleQuote ∧ uri.getLast? = some singleQuote) ↔
      Quoted uri := by
    rw [← quoted_iff]
    exact and_congr_right fun h => and_congr (ends_iff h _).1 (ends_iff h _).2
  by_cases hne : uri = []
  · rw [hne]
    rfl
  by_cases hquoted : Quoted uri
  · obtain ⟨text, rfl⟩ := hquoted
    rw [Sysload.prefixRoot, if_neg (by simp), if_pos (hcond.mpr ⟨text, rfl⟩), prefixRoot_quoted]
    show (root ++ (text ++ [singleQuote])).dropLast = root ++ text
    rw [← List.append_assoc, List.dropLast_concat]
  · rw [Sysload.prefixRoot, if_neg (mt List.length_eq_zero_iff.mp hne), if_neg (mt hcond.mp hquoted),
      prefixRoot_unquoted root hne hquoted, verifyUriScheme_eq]

/-- A string without a slash, or one with its last slash. -/
theorem slash_cases (uri : CStr) : '/' ∉ uri ∨ ∃ s t, uri = s ++ '/' :: t ∧ '/' ∉ t := by
  by_cases h : '/' ∈ uri
  · obtain ⟨t, s, heq, ht⟩ := List.eq_append_cons_of_mem (List.mem_reverse.mpr h)
    refine Or.inr ⟨s.reverse, t.reverse, ?_, fun hmem => ht (List.mem_reverse.mp hmem)⟩
    rw [← List.reverse_reverse uri, heq]
    simp
  · exact Or.inl h

theorem copyLength_none {uri : CStr} (h : '/' ∉ uri) :
    ∀ i, i ≤ uri.length → copyLength uri i = uri.length
  | 0, _ => rfl
  | i + 1, hi => by
    have hget : uri.getD i nul = uri[i] := by
      rw [List.getD_eq_getElem?_getD, List.getElem?_eq_getElem hi, Option.getD_some]
    have hne : uri[i] ≠ '/' := fun heq => h (heq ▸ List.getElem_mem hi)
    rw [copyLength, hget, if_neg hne]
    exact copyLength_none h i (Nat.le_of_succ_le hi)

/-- The loop stops at the last slash. -/
theorem copyLength_slash {s t : CStr} (h : '/' ∉ t) :
    ∀ i, i ≤ t.length → copyLength (s ++ '/' :: t) (s.length + 1 + i) = s.length + 1
  | 0, _ => by
    have hslash : (s ++ '/' :: t).getD s.length nul = '/' := by simp
    rw [Nat.add_zero, copyLength, if_pos hslash]
  | i + 1, hi => by
    have hget : (s ++ '/' :: t).getD (s.length + 1 + i) nul = t[i] := by
      simp [List.getD_eq_getElem?_getD, List.getElem?_append_right, Nat.add_assoc, Nat.add_comm 1,
        List.getElem?_eq_getElem hi]
    have hne : t[i] ≠ '/' := fun heq => h (heq ▸ List.getElem_mem hi)
    rw [← Nat.add_assoc, copyLength, hget, if_neg hne]
    exact copyLength_slash h i (Nat.le_of_succ_le hi)

theorem getUriPath_none {uri : CStr} (h : '/' ∉ uri) : getUriPath uri = uri := by
  rw [getUriPath, copyLength_none h _ (Nat.le_refl _), List.take_length]

/-- **The path of a URI** goes up to its last slash. -/
theorem getUriPath_slash {s t : CStr} (h : '/' ∉ t) :
    getUriPath (s ++ '/' :: t) = s ++ ['/'] := by
  have hlen : (s ++ '/' :: t).length = s.length + 1 + t.length := by
    simp [Nat.add_assoc, Nat.add_comm 1]
  rw [getUriPath, hlen, copyLength_slash h _ (Nat.le_refl _)]
  simp [List.take_append]

theorem getUriPath_eq (uri : CStr) : Sysload.getUriPath uri = getUriPath uri := by
  rcases slash_cases uri with hnone | ⟨s, t, rfl, ht⟩
  · rw [Sysload.getUriPath, if_neg hnone, getUriPath_none hnone]
  · have hall : ∀ c ∈ t.reverse, (c != '/') = true := fun c hc =>
      bne_iff_ne.mpr fun heq => ht (heq ▸ List.mem_reverse.mp hc)
    rw [Sysload.getUriPath, if_pos (by simp), getUriPath_slash ht, List.reverse_append,
      List.reverse_cons, List.append_assoc, List.dropWhile_append_of_pos hall]
    simp

/-! ## References -/

/-- **With an absolute root** every reference becomes absolute. -/
theorem prefixRoot_absolute {root uri : CStr} (hroot : Absolute root) (hne : uri ≠ []) :
    Absolute (prefixRoot root uri) := by
  obtain ⟨s, rest, rfl, hs⟩ := hroot
  by_cases hquoted : Quoted uri
  · obtain ⟨text, rfl⟩ := hquoted
    rw [prefixRoot_quoted]
    exact ⟨s, rest ++ text, by simp, hs⟩
  · rw [prefixRoot_unquoted _ hne hquoted]
    split
    · rename_i h
      exact (verifyUriScheme_iff uri).mp h
    · exact ⟨s, rest ++ uri, by simp, hs⟩

/-- A URI begins with a letter, so it is not quoted. -/
theorem Absolute.not_quoted {uri : CStr} (h : Absolute uri) : ¬ Quoted uri := by
  rintro ⟨text, rfl⟩
  obtain ⟨_, rest, heq, c, cs, rfl, hc, _⟩ := h
  obtain ⟨rfl, _⟩ := List.cons.inj heq
  exact absurd hc (by decide)

theorem Absolute.ne_nil {uri : CStr} (h : Absolute uri) : uri ≠ [] := by
  obtain ⟨s, rest, rfl, _⟩ := h
  simp

/-- A URI is no reference that needs a root. -/
theorem prefixRoot_of_absolute (root : CStr) {uri : CStr} (h : Absolute uri) :
    prefixRoot root uri = uri := by
  rw [prefixRoot_unquoted root h.ne_nil h.not_quoted, if_pos ((verifyUriScheme_iff uri).mpr h)]

/-- **The path of a URI is a URI**: there is no slash in front of the colon. -/
theorem getUriPath_absolute {uri : CStr} (h : Absolute uri) : Absolute (getUriPath uri) := by
  obtain ⟨scheme, rest, rfl, hscheme⟩ := h
  have hnot : '/' ∉ scheme ++ [':'] := by
    simpa using hscheme.notMem (c := '/') (by decide)
  rcases slash_cases rest with hnone | ⟨s, t, rfl, ht⟩
  · rw [getUriPath_none (by simpa using ⟨fun h => hnot (by simp [h]), hnone⟩)]
    exact ⟨scheme, rest, rfl, hscheme⟩
  · have hassoc : scheme ++ ':' :: (s ++ '/' :: t) = (scheme ++ ':' :: s) ++ '/' :: t := by simp
    rw [hassoc, getUriPath_slash ht]
    exact ⟨scheme, s ++ ['/'], by simp, hscheme⟩

/-- The module of a URI is named after its scheme. -/
theorem uriScheme_scheme {uri : CStr} (h : Absolute uri) : Scheme (uriScheme uri) := by
  obtain ⟨s, rest, rfl, hs⟩ := h
  rw [uriScheme, strchr_append (hs.notMem (by decide))]
  simpa using hs

/-! ## Components of an insfile -/

variable {os : Os}

/-- A file is loaded only from a URI. -/
theorem compLoad_ok_scheme {dest : String} {uri : CStr} {s s' : Sys} {u : Unit}
    (h : (compLoad os dest uri).Runs s (.ok (.ok u)) s') : Sysload.verifyUriScheme uri = true := by
  unfold compLoad at h
  split at h
  · assumption
  · exact absurd (Except.ok.inj (Routine.runs_pure.mp h).1) (by simp)

/-- The path of an insfile is the path of the URI that it was loaded from. -/
theorem loadInsfile_absolute {boot : CfgBentry} {s s' : Sys} {path : CStr}
    (h : (loadInsfile os boot).Runs s (.ok (some path)) s') : Absolute path := by
  unfold loadInsfile at h
  split at h
  · obtain ⟨result, s₁, hload, hrest⟩ := Routine.runs_bind_ok.mp h
    cases result with
    | error tmpMsg => exact absurd (Routine.runs_throw.mp hrest).1 (by simp)
    | ok u =>
      obtain rfl := Option.some.inj (Except.ok.inj (Routine.runs_pure.mp hrest).1)
      rw [getUriPath_eq]
      refine getUriPath_absolute ((verifyUriScheme_iff _).mp ?_)
      rw [← verifyUriScheme_eq]
      exact compLoad_ok_scheme hload
  · exact absurd (Routine.runs_pure.mp h).1 (by simp)

/-- **References resolve.** -/
theorem references_resolve :
    (∀ u : CStr, verifyUriScheme u = true ↔ ∃ s rest, u = s ++ ':' :: rest ∧ Scheme s) ∧
    (∀ r u : CStr, u ≠ [] → ¬ Quoted u →
      prefixRoot r u = if verifyUriScheme u then u else r ++ u) ∧
    (∀ r text : CStr, prefixRoot r (singleQuote :: text ++ [singleQuote]) = r ++ text) ∧
    (∀ r u : CStr, verifyUriScheme r = true → u ≠ [] →
      verifyUriScheme (prefixRoot r u) = true ∧
        prefixRoot r (prefixRoot r u) = prefixRoot r u) ∧
    (∀ w : CStr, verifyUriScheme w = true → verifyUriScheme (getUriPath w) = true) ∧
    ∀ (os : Os) (boot : CfgBentry) (s s' : Sys) (path : CStr),
      (loadInsfile os boot).Runs s (.ok (some path)) s' → ∀ filename defaultpath : CStr,
      filename ≠ [] → verifyUriScheme (prefixRoot path filename) = true ∧
        ∃ scheme, Scheme scheme ∧ '/' ∉ "cl_".toList ++ scheme ∧
          compLoadModule defaultpath (prefixRoot path filename) =
            defaultpath ++ "/cl/".toList ++ ("cl_".toList ++ scheme) := by
  refine ⟨verifyUriScheme_iff, fun r u => prefixRoot_unquoted r, prefixRoot_quoted, ?_, ?_, ?_⟩
  · intro r u hroot hne
    have habs := prefixRoot_absolute ((verifyUriScheme_iff r).mp hroot) hne
    exact ⟨(verifyUriScheme_iff _).mpr habs, prefixRoot_of_absolute r habs⟩
  · intro w hw
    exact (verifyUriScheme_iff _).mpr (getUriPath_absolute ((verifyUriScheme_iff w).mp hw))
  · intro os boot s s' path hload filename defaultpath hne
    have habs := prefixRoot_absolute (loadInsfile_absolute hload) hne
    have hscheme := uriScheme_scheme habs
    refine ⟨(verifyUriScheme_iff _).mpr habs, _, hscheme, ?_, ?_⟩
    · exact fun hmem => (List.mem_append.mp hmem).elim (by decide) (hscheme.notMem (by decide))
    · simp [compLoadModule, compLoadModulePath]

/-- A boot entry with an insfile. -/
def insfileEntry : CfgBentry :=
  { CfgBentry.init with insfile := "ftp://h/s/f.ins".toList, action := .insfileBoot }

theorem references_resolve_ftp :
    prefixRoot "ftp://h/s/".toList "kernel".toList = "ftp://h/s/kernel".toList ∧
    (∃ scheme, Scheme scheme ∧ '/' ∉ "cl_".toList ++ scheme ∧
      compLoadModule "/usr".toList "ftp://h/s/kernel".toList =
        "/usr".toList ++ "/cl/".toList ++ ("cl_".toList ++ scheme)) ∧
    prefixRoot "ftp://h/".toList (prefixRoot "ftp://h/".toList "'a:b'".toList) =
      prefixRoot "ftp://h/".toList "'a:b'".toList ∧
    verifyUriScheme (getUriPath "ftp://h/s/f.ins".toList) = true := by
  obtain ⟨_, hunquoted, _, hroot, hpath, hinsfile⟩ := references_resolve
  have hscheme : Scheme "ftp".toList :=
    ⟨'f', "tp".toList, rfl, by decide, List.all_eq_true.mp rfl⟩
  have hftp : ∀ rest, verifyUriScheme ("ftp".toList ++ ':' :: rest) = true := fun rest =>
    (verifyUriScheme_iff _).mpr ⟨"ftp".toList, rest, rfl, hscheme⟩
  have hkernel : prefixRoot "ftp://h/s/".toList "kernel".toList = "ftp://h/s/kernel".toList := by
    rw [hunquoted _ _ (by decide) (by rw [← quoted_iff]; decide)]
    rfl
  have hload : (compLoad .willing sysloadFilenameInsfile insfileEntry.insfile).Runs .boot
      (.ok (.ok ())) _ := compLoad_success .willing .boot (by rfl) rfl
  obtain ⟨s', hrun⟩ : ∃ s', (loadInsfile .willing insfileEntry).Runs .boot
      (.ok (some "ftp://h/s/".toList)) s' := by
    rw [loadInsfile, if_pos (by decide)]
    exact ⟨_, (Routine.runs_bind_of_ok hload).mpr (Routine.runs_pure.mpr ⟨rfl, rfl⟩)⟩
  have hcomponent := hinsfile .willing insfileEntry .boot _ _ hrun "kernel".toList "/usr".toList
    (by decide)
  rw [hkernel] at hcomponent
  exact ⟨hkernel, hcomponent.2, (hroot _ _ (hftp _) (by decide)).2, hpath _ (hftp _)⟩

end Sysload.Uri
