import Sysload.Lib.Words
import Sysload.Loader.Insfile
import Sysload.Parser.Parse

/-!
# The kernel command line (`parse_kernel_cmdline`)

The settings on the kernel command line are the words that begin with `kset=` or `knet=`. The file
is read in pieces of a buffer's length, and each piece is searched twice. `parseKernelCmdline` does
this for any function that is called with a setting; `kernelArguments` are the strings it is called
with.

Source: `src/core/parser_sysload.c`, `parse_kernel_cmdline`; `src/core/config.c`, `cfg_strncpy`. Out
of scope are files with a NUL.

Results:
* `parseKernelCmdline_eq`: what is called, and with what.
* **`kernelArguments_iff`**: the settings of the command line are found, each whole and once, if and
  only if the pieces do no harm (`Settled`).
* `evaluated_of_settled`: what `parse_kernel_cmdline` then does.
-/

namespace Sysload.Parser

open Words

/-! ## The search -/

/-- Where a setting ends. -/
def isSeparator (c : Char) : Bool := c == ' ' || c == '\t' || c == '\n'

/-- `kset=`. -/
def kset : Key isSeparator := ⟨"kset=".toList, by decide, by simp [isSeparator]⟩

/-- `knet=`. -/
def knet : Key isSeparator := ⟨"knet=".toList, by decide, by simp [isSeparator]⟩

/-- `strstr`. -/
def strstr (haystack needle : CStr) : Option CStr := (infixIdx needle haystack).map haystack.drop

/-- `strcspn`, for the separators. -/
def strcspn (str : CStr) : Nat := (str.takeWhile fun c => !isSeparator c).length

/-- `cfg_strncpy`. -/
def cfgStrncpy (src : CStr) (len : Nat) : CStr :=
  src.take (if src.length < len then src.length else len)

theorem strstr_eq_some {haystack pos : CStr} (key : Key isSeparator)
    (h : strstr haystack key.text = some pos) :
    ∃ i, infixIdx key.text haystack = some i ∧ pos = haystack.drop i ∧ i < haystack.length ∧
      0 < strcspn pos := by
  obtain ⟨i, hi, rfl⟩ := Option.map_eq_some_iff.mp h
  obtain ⟨hlt, hpos⟩ := key.taken_pos hi
  exact ⟨i, hi, rfl, hlt, hpos⟩

theorem cfgStrncpy_strcspn (pos : CStr) :
    cfgStrncpy pos (strcspn pos) = pos.takeWhile fun c => !isSeparator c := by
  have hprefix := List.takeWhile_prefix (fun c => !isSeparator c) (l := pos)
  have hle : ¬ pos.length < strcspn pos := Nat.not_lt.mpr hprefix.length_le
  rw [cfgStrncpy, if_neg hle, strcspn, ← List.prefix_iff_eq_take.mp hprefix]

section Call

variable {m : Type → Type} [Monad m] (call : CStr → m PUnit)

/-- One of the two inner loops, from a position on. -/
def passSettings (key : Key isSeparator) (pos : CStr) : m PUnit :=
  match _h : strstr pos key.text with
  | none => pure ⟨⟩
  | some pos' => do
    call (cfgStrncpy pos' (strcspn pos'))
    passSettings key (pos'.drop (strcspn pos'))
termination_by pos.length
decreasing_by
  obtain ⟨i, _, rfl, hlt, hpos⟩ := strstr_eq_some key _h
  simp only [List.length_drop]
  omega

/-- `parse_kernel_cmdline`, for what it does with a setting. Without the file nothing is done. -/
def parseKernelCmdline : Option (List Char) → m PUnit
  | none => pure ⟨⟩
  | some data => forM (fgetsPieces data (cfgStrMaxLen - 1) []) fun input => do
    passSettings call kset (cstr input)
    passSettings call knet (cstr input)

theorem passSettings_eq (key : Key isSeparator) (pos : CStr) (n : Nat) :
    passSettings call key pos = forM (search key n pos) fun p => call p.text := by
  induction h : pos.length using Nat.strongRecOn generalizing pos n with
  | ind len ih =>
    rw [passSettings]
    split
    · rename_i hnone
      rw [search_none key (Option.map_eq_none_iff.mp hnone), List.forM_nil]
    · rename_i pos' hsome
      obtain ⟨i, hi, rfl, hlt, hpos⟩ := strstr_eq_some key hsome
      rw [search_some key hi, List.forM_cons, cfgStrncpy_strcspn, List.drop_drop]
      refine congrArg _ (funext fun _ => ?_)
      exact ih _ (by simp only [← h, List.length_drop]; omega) _ _ rfl

end Call

/-! ## Pieces -/

/-- The pieces are the file. -/
theorem fgetsPieces_flatten (data : List Char) (room : Nat) (piece : CStr) :
    (fgetsPieces data room piece).flatten = piece ++ data := by
  induction data generalizing room piece with
  | nil =>
    rw [fgetsPieces]
    split
    · rename_i hnil
      rw [hnil]
      rfl
    · simp
  | cons c data ih =>
    rw [fgetsPieces]
    split
    · rw [List.flatten_cons, ih, List.nil_append, List.append_assoc]
      rfl
    · rw [ih, List.append_assoc]
      rfl

/-- The pieces of the command line. -/
def cmdlinePieces (data : List Char) : List CStr := fgetsPieces data (cfgStrMaxLen - 1) []

/-- The settings that are found, with their places. -/
def foundSettings (data : List Char) : List (Words.Part Char) :=
  searchTwo kset knet 0 (cmdlinePieces data)

/-- The settings: the words that begin with `kset=`, then those that begin with `knet=`. -/
def settings (data : List Char) : List (Words.Part Char) :=
  sorted kset knet (words isSeparator 0 data)

/-- **The pieces do no harm.** -/
def Settled (data : List Char) : Prop := Harmless kset knet (cmdlinePieces data)

section Call

variable {m : Type → Type} [Monad m] [LawfulMonad m] (call : CStr → m PUnit)

theorem forM_pieces (pieces : List CStr) (h : ∀ piece ∈ pieces, nul ∉ piece) (n : Nat) :
    (forM pieces fun input => do
      passSettings call kset (cstr input)
      passSettings call knet (cstr input)) =
      forM (searchTwo kset knet n pieces) fun p => call p.text := by
  induction pieces generalizing n with
  | nil => rfl
  | cons piece pieces ih =>
    obtain ⟨hpiece, hpieces⟩ := List.forall_mem_cons.mp h
    rw [List.forM_cons, ih hpieces (n + piece.length), cstr_eq_self hpiece,
      passSettings_eq call kset piece n, passSettings_eq call knet piece n, searchTwo,
      List.forM_append, List.forM_append]

/-- **What `parse_kernel_cmdline` calls.** -/
theorem parseKernelCmdline_eq {data : List Char} (h : nul ∉ data) :
    parseKernelCmdline call (some data) = forM (foundSettings data) fun p => call p.text := by
  refine forM_pieces call _ (fun piece hpiece hmem => h ?_) 0
  have hflatten := fgetsPieces_flatten data (cfgStrMaxLen - 1) []
  rw [List.nil_append] at hflatten
  rw [← hflatten]
  exact List.mem_flatten_of_mem hpiece hmem

end Call

/-- The strings that `parse_kernel_argument` is called with. -/
def kernelArguments (data : List Char) : List CStr :=
  (parseKernelCmdline (fun karg => modify (· ++ [karg]) : CStr → StateM (List CStr) PUnit)
    (some data) []).2

theorem forM_modify (ps : List (Words.Part Char)) (kargs : List CStr) :
    ((forM ps fun p => modify (· ++ [p.text]) : StateM (List CStr) PUnit) kargs).2 =
      kargs ++ ps.map Part.text := by
  induction ps generalizing kargs with
  | nil => exact (List.append_nil kargs).symm
  | cons p ps ih =>
    rw [List.forM_cons]
    show ((forM ps fun p => modify (· ++ [p.text]) : StateM (List CStr) PUnit)
      (kargs ++ [p.text])).2 = _
    rw [ih, List.append_assoc, List.map_cons]
    rfl

theorem kernelArguments_eq {data : List Char} (h : nul ∉ data) :
    kernelArguments data = (foundSettings data).map Part.text := by
  rw [kernelArguments, parseKernelCmdline_eq _ h, forM_modify, List.nil_append]

theorem settled_iff (data : List Char) : foundSettings data = settings data ↔ Settled data := by
  have hdistinct : Distinct kset knet := ⟨by decide, by decide⟩
  have hiff := searchTwo_iff hdistinct (cmdlinePieces data)
  rw [cmdlinePieces, fgetsPieces_flatten, List.nil_append] at hiff
  exact hiff

/-- **The settings of the command line** are found, each whole and once, if and only if the pieces
do no harm. -/
theorem kernelArguments_iff {data : List Char} (h : nul ∉ data) :
    kernelArguments data = (foundSettings data).map Part.text ∧
      (foundSettings data = settings data ↔ Settled data) :=
  ⟨kernelArguments_eq h, settled_iff data⟩

/-- A call of `parse_kernel_argument`: the state of the scanner outlives it, and so does what it has
executed. -/
def passKernelArgument (env : List Command → Env) (msgs : Messages) (karg : CStr) :
    StateT (Scanner × List Command) (Prog Stop) PUnit := do
  let (scan, executed) ← get
  let (scan', executed') ← parseKernelArgument (env executed) msgs scan karg
  set (scan', executed ++ executed')

/-- **The command line is evaluated** setting by setting, where the pieces do no harm. -/
theorem evaluated_of_settled (env : List Command → Env) (msgs : Messages) {data : List Char}
    (h : nul ∉ data) (hsettled : Settled data) :
    parseKernelCmdline (passKernelArgument env msgs) (some data) =
      forM ((settings data).map Part.text) (passKernelArgument env msgs) := by
  rw [parseKernelCmdline_eq _ h, (settled_iff data).mpr hsettled, List.forM_map]

/-! ## Lines of a few words -/

theorem words_word {w : CStr} (hne : w ≠ []) (hw : ∀ c ∈ w, isSeparator c = false) {c : Char}
    (hc : isSeparator c = true) (n : Nat) (l : List Char) :
    words isSeparator n (w ++ c :: l) = ⟨n, w⟩ :: words isSeparator (n + w.length + 1) l := by
  have hend : ∀ d ∈ (c :: l).head?, isSeparator d = true := by simp [hc]
  rw [words_append hw hend hne, words_sep hc]

theorem words_oneWord {w : CStr} (hne : w ≠ []) (hw : ∀ c ∈ w, isSeparator c = false) :
    words isSeparator 0 (w ++ ['\n']) = [⟨0, w⟩] := by
  rw [words_word hne hw rfl, words_nil]

/-- A line with a setting of each kind, and another word between them. -/
def mixedLine : List Char := "knet=b ro kset=a\n".toList

theorem mixedLine_words : words isSeparator 0 mixedLine =
    [⟨0, "knet=b".toList⟩, ⟨7, "ro".toList⟩, ⟨10, "kset=a".toList⟩] := by
  have hnet := @words_word "knet=b".toList (by decide) (by simp [isSeparator]) ' ' rfl 0
    ("ro".toList ++ ' ' :: ("kset=a".toList ++ ['\n']))
  have hro := @words_word "ro".toList (by decide) (by simp [isSeparator]) ' ' rfl 7
    ("kset=a".toList ++ ['\n'])
  have hset := @words_word "kset=a".toList (by decide) (by simp [isSeparator]) '\n' rfl 10 []
  rw [words_nil] at hset
  exact hnet.trans (congrArg _ (hro.trans (congrArg _ hset)))

/-- The settings for `kset=` are found before those for `knet=`. -/
theorem kernelArguments_iff_mixedLine :
    kernelArguments mixedLine = ["kset=a".toList, "knet=b".toList] := by
  have hpieces : cmdlinePieces mixedLine = [mixedLine] := by decide
  have hplaced : placedWords isSeparator 0 [mixedLine] =
      [[⟨0, "knet=b".toList⟩, ⟨7, "ro".toList⟩, ⟨10, "kset=a".toList⟩]] := by
    rw [placedWords, mixedLine_words, placedWords]
  have hsettled : Settled mixedLine := by
    rw [Settled, hpieces]
    refine ⟨?_, ?_, ?_⟩
    · rw [hplaced, List.flatten_singleton, mixedLine_words]
      decide
    · rw [hplaced, List.flatten_singleton, mixedLine_words]
      decide
    · rw [hplaced]
      exact List.pairwise_singleton _ _
  obtain ⟨hfound, hiff⟩ := @kernelArguments_iff mixedLine (by decide)
  rw [hfound, hiff.mpr hsettled, settings, mixedLine_words]
  decide

/-- **A word that only has `kset=` in it** is taken for a setting from there on. -/
theorem kernelArguments_akset :
    kernelArguments "akset=b\n".toList ≠ (settings "akset=b\n".toList).map Part.text := by
  have hwords : words isSeparator 0 "akset=b\n".toList = [⟨0, "akset=b".toList⟩] :=
    @words_oneWord "akset=b".toList (by decide) (by simp [isSeparator])
  have hpieces : cmdlinePieces "akset=b\n".toList = ["akset=b\n".toList] := by decide
  rw [kernelArguments_eq (by decide), foundSettings, settings, hpieces, searchTwo_eq, placedWords,
    hwords, placedWords]
  decide

end Sysload.Parser
