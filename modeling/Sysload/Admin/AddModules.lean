import Mathlib.Data.List.Infix
import Sysload.Lib.Words
import Sysload.Lib.Worklist
import Sysload.Loader.Insfile

/-!
# Kernel modules for the ramdisk (`sysload_admin`)

`add_modules` walks the list of the requested modules. A line of `modules.dep` that matches a module
is printed, and the modules it depends on come behind the list; a line that is done has lost its
first colon, so that it matches nothing any more.

* A module is interpolated into a pattern. One with a character that has a meaning there, besides
  the period, is outside of this model: the loop fails with it (`perlMeta`).
* The command that tells the kernel's version, the file system and `cp` are a parameter (`ModWorld`).
* The messages of the function are left out, and `%check`, which only they read.

Source: `src/admin/sysload_admin`, `add_modules`. Out of scope are the other functions of the tool,
which run shell commands.

Results:
* `addModules_walk`: the function walks a work list of modules.
* **`addModules_closure`**: it returns, what it copies is closed under the dependencies, and the new
  `modules.dep` has the line of every module that is copied, once.
-/

namespace Sysload.Admin

open Comp Worklist

/-! ## Patterns -/

/-- The characters with a meaning in a pattern, besides the period. -/
def perlMeta : List Char := "\\|()[]\x7b\x7d^$*+?".toList

/-- A pattern without such characters at the beginning of a text. -/
def matchesHead : CStr → CStr → Bool
  | [], _ => true
  | p :: ps, c :: cs => (p == c || (p == '.' && c != '\n')) && matchesHead ps cs
  | _ :: _, [] => false

/-- `/$module.ko:/`. -/
def isMatch (module line : CStr) : Bool :=
  line.tails.any fun behind => matchesHead (module ++ ".ko:".toList) behind

/-- `[\w-]`. -/
def isNameChar (c : Char) : Bool := c.isAlphanum || c == '_' || c == '-'

/-- `\/([\w-]*)\.ko` at the beginning of a text. -/
def nameAt : CStr → Option CStr
  | '/' :: rest =>
    if ".ko".toList <+: rest.dropWhile isNameChar then some (rest.takeWhile isNameChar) else none
  | _ => none

/-- `s/.*\/([\w-]*)\.ko.*/$1/`: the last such place. -/
def baseName (file : CStr) : CStr := (file.tails.reverse.findSome? nameAt).getD file

/-- `split(/\s+/, line)`: an empty field is only at the beginning. -/
def splitSpace (line : CStr) : List CStr :=
  match (Words.words isSpaceChar 0 line).map Words.Part.text with
  | [] => []
  | field :: fields =>
    if (line.head?.map isSpaceChar).getD false then [] :: field :: fields else field :: fields

/-- `/([^\s]*).*/`. -/
def firstWord (module : CStr) : CStr := module.takeWhile fun c => !isSpaceChar c

/-! ## The function -/

/-- What the function finds: the output of `GET_K_VERS` for a kernel, the lines of a
`modules.dep`, and whether the directory and the file for the new one can be made. -/
structure ModWorld where
  getKVers : CStr → CStr
  modulesDep : CStr → Option (List CStr)
  mkpath : Bool
  openNew : Bool

/-- `@mod`, `@mod_dep`, `@mod_list`, and what has been printed to the new `modules.dep`. -/
structure Adding where
  mod : List CStr
  modDep : List CStr
  modList : List CStr
  printed : List CStr
  deriving DecidableEq, Repr

/-- The body of the inner loop; the line stays in its place in `@mod_dep`. -/
def addLine (module : CStr) (s : Adding) (line : CStr) : Adding :=
  if isMatch module line then
    let line' := line.erase ':'
    let dummy := splitSpace line'
    { mod := s.mod ++ (dummy.map baseName).drop 1
      modDep := s.modDep ++ [line']
      modList := s.modList ++ dummy
      printed := s.printed ++ [line] }
  else { s with modDep := s.modDep ++ [line] }

/-- The inner loop. -/
def addModule (s : Adding) (module : CStr) : Adding :=
  s.modDep.foldl (addLine module) { s with modDep := [] }

/-- The body of the outer loop: the list may have grown. -/
def addNext (s : Adding × Nat) : Prog CStr (Pass (Adding × Nat) Adding) :=
  match s.1.mod[s.2]? with
  | none => pure (.done s.1)
  | some module =>
    if module.any perlMeta.contains then throw module
    else pure (.next (addModule s.1 module, s.2 + 1))

/-- The new `modules.dep`, and the files that are copied. -/
structure Added where
  modulesDep : List CStr
  copied : List CStr
  deriving DecidableEq, Repr

/-- The beginning of the function: `@mod_dep`, or `none` for `return undef`. -/
def ModWorld.setUp (w : ModWorld) (kernel : CStr) : Option (List CStr) :=
  let output := w.getKVers kernel
  if output = [] ∨ output = ['0'] then none
  else
    let kVersion := if output.getLast? = some '\n' then output.dropLast else output
    match w.modulesDep kVersion with
    | none => none
    | some modDep => if w.mkpath && w.openNew then some modDep else none

/-- `add_modules`; `none` for `undef`. -/
def addModules (w : ModWorld) (kernel : CStr) (mod : List CStr) : Prog CStr (Option Added) :=
  match w.setUp kernel with
  | none => pure none
  | some modDep => do
    let s ← Prog.loop addNext ((⟨mod.map firstWord, modDep, [], []⟩ : Adding), 0)
    pure (some ⟨s.printed, s.modList⟩)

/-! ## The format of `modules.dep` -/

/-- The file of a module. -/
structure ModFile where
  dir : CStr
  name : CStr
  dir_space : ∀ c ∈ dir, isSpaceChar c = false
  dir_colon : ':' ∉ dir
  name_char : ∀ c ∈ name, isNameChar c = true

/-- The path of a module. -/
def ModFile.path (f : ModFile) : CStr := f.dir ++ '/' :: (f.name ++ ".ko".toList)

/-- White space. -/
structure Blanks where
  text : CStr
  space : ∀ c ∈ text, isSpaceChar c = true

/-- A line of `modules.dep`: a module, and those it depends on, each with the white space in front
of it. -/
structure DepLine where
  file : ModFile
  deps : List (Blanks × ModFile)
  behind : Blanks
  gap : ∀ d ∈ deps, d.1.text ≠ []

/-- The dependencies in the text. -/
def depText (deps : List (Blanks × ModFile)) : CStr := deps.flatMap fun d => d.1.text ++ d.2.path

/-- The text of a line. -/
def DepLine.text (l : DepLine) : CStr :=
  l.file.path ++ ':' :: (depText l.deps ++ l.behind.text)

/-- The files on a line. -/
def DepLine.files (l : DepLine) : List ModFile := l.file :: l.deps.map Prod.snd

/-! ## One line -/

theorem mem_of_matchesHead {c : Char} (hc : c ≠ '.') {pattern text : CStr} (h : c ∈ pattern)
    (hmatch : matchesHead pattern text = true) : c ∈ text := by
  induction pattern generalizing text with
  | nil => exact absurd h List.not_mem_nil
  | cons p ps ih =>
    cases text with
    | nil => cases hmatch
    | cons d text =>
      obtain ⟨hd, hrest⟩ := Bool.and_eq_true_iff.mp hmatch
      rcases List.mem_cons.mp h with rfl | h
      · have heq : c = d := by simpa [hc] using hd
        exact heq ▸ List.mem_cons_self
      · exact List.mem_cons_of_mem _ (ih h hrest)

theorem matchesHead_self (pattern text : CStr) : matchesHead pattern (pattern ++ text) = true := by
  induction pattern with
  | nil => rfl
  | cons p ps ih => simp [matchesHead, ih]

/-- A line that has lost its colon matches nothing. -/
theorem isMatch_of_notMem {module line : CStr} (h : ':' ∉ line) : isMatch module line = false := by
  refine Bool.eq_false_iff.mpr fun hmatch => ?_
  obtain ⟨behind, hmem, hhead⟩ := List.any_eq_true.mp hmatch
  have hcolon : ':' ∈ behind := mem_of_matchesHead (by decide) (by simp) hhead
  exact h (((List.mem_tails _ _).mp hmem).subset hcolon)

section Files

variable (f : ModFile) (l : DepLine)

theorem not_space_of_all {text : CStr} (h : text.all (fun c => !isSpaceChar c) = true) :
    ∀ c ∈ text, isSpaceChar c = false :=
  fun c hc => by simpa using List.all_eq_true.mp h c hc

theorem isSpaceChar_of_isNameChar {c : Char} (h : isNameChar c = true) : isSpaceChar c = false := by
  refine Bool.eq_false_iff.mpr fun hspace => ?_
  rcases Bool.or_eq_true_iff.mp hspace with heq | hrange
  · obtain rfl := eq_of_beq heq
    exact absurd h (by decide)
  · simp only [Bool.and_eq_true, decide_eq_true_eq] at hrange
    obtain ⟨hlow, hhigh⟩ := hrange
    have hchar := Char.ofNat_toNat c
    obtain heq | heq | heq | heq | heq : c.toNat = 9 ∨ c.toNat = 10 ∨ c.toNat = 11 ∨ c.toNat = 12 ∨
        c.toNat = 13 := by omega
    all_goals
      rw [heq] at hchar
      exact absurd (hchar ▸ h) (by decide)

theorem ModFile.path_space : ∀ c ∈ f.path, isSpaceChar c = false := by
  intro c hc
  rw [ModFile.path, List.mem_append, List.mem_cons, List.mem_append] at hc
  rcases hc with hdir | rfl | hname | hko
  · exact f.dir_space c hdir
  · rfl
  · exact isSpaceChar_of_isNameChar (f.name_char c hname)
  · exact not_space_of_all rfl c hko

theorem ModFile.path_colon : ':' ∉ f.path := by
  rw [ModFile.path, List.mem_append, List.mem_cons, List.mem_append]
  rintro (hdir | heq | hname | hko)
  · exact f.dir_colon hdir
  · exact absurd heq (by decide)
  · exact absurd (f.name_char _ hname) (by decide)
  · exact absurd hko (by decide)

theorem depText_colon (deps : List (Blanks × ModFile)) : ':' ∉ depText deps := by
  intro hmem
  obtain ⟨d, -, hd⟩ := List.mem_flatMap.mp hmem
  rcases List.mem_append.mp hd with hblank | hpath
  · exact absurd (d.1.space _ hblank) (by decide)
  · exact d.2.path_colon hpath

/-- What is left of a line when it is done. -/
theorem DepLine.erase_text :
    l.text.erase ':' = l.file.path ++ (depText l.deps ++ l.behind.text) := by
  rw [DepLine.text, List.erase_append_right _ l.file.path_colon, List.erase_cons_head]

theorem DepLine.erase_colon : ':' ∉ l.text.erase ':' := by
  rw [l.erase_text, List.mem_append, List.mem_append]
  rintro (hpath | hdeps | hbehind)
  · exact l.file.path_colon hpath
  · exact depText_colon l.deps hdeps
  · exact absurd (l.behind.space _ hbehind) (by decide)

/-- A line matches the name of its module. -/
theorem DepLine.isMatch_name : isMatch l.file.name l.text = true := by
  refine List.any_eq_true.mpr ⟨l.file.name ++ ".ko:".toList ++ (depText l.deps ++ l.behind.text), ?_,
    matchesHead_self _ _⟩
  refine (List.mem_tails _ _).mpr ⟨l.file.dir ++ ['/'], ?_⟩
  simp [DepLine.text, ModFile.path]

/-- No place for a name without a slash. -/
theorem findSome_nameAt {text : CStr} (h : '/' ∉ text) :
    text.tails.reverse.findSome? nameAt = none := by
  refine List.findSome?_eq_none_iff.mpr fun t ht => ?_
  have hsub := ((List.mem_tails _ _).mp (List.mem_reverse.mp ht)).subset
  unfold nameAt
  split
  · exact absurd (hsub List.mem_cons_self) h
  · rfl

/-- **The base name** of a module's file is its name. -/
theorem ModFile.baseName_path : baseName f.path = f.name := by
  have hslash : '/' ∉ f.name ++ ".ko".toList := by
    rw [List.mem_append]
    rintro (hname | hko)
    · exact absurd (f.name_char _ hname) (by decide)
    · exact absurd hko (by decide)
  have hname : nameAt ('/' :: (f.name ++ ".ko".toList)) = some f.name := by
    have htake : (f.name ++ ".ko".toList).takeWhile isNameChar = f.name := by
      rw [List.takeWhile_append_of_pos f.name_char]
      exact List.append_nil _
    have hdrop : (f.name ++ ".ko".toList).dropWhile isNameChar = ".ko".toList := by
      rw [List.dropWhile_append_of_pos f.name_char]
      rfl
    rw [nameAt, hdrop, htake, if_pos (List.prefix_refl _)]
  have hfind : f.path.tails.reverse.findSome? nameAt = some f.name := by
    unfold ModFile.path
    induction f.dir with
    | nil =>
      rw [List.nil_append, List.tails_cons, List.reverse_cons, List.findSome?_append,
        findSome_nameAt hslash, Option.none_or, List.findSome?_singleton, hname]
    | cons c dir ih =>
      rw [List.cons_append, List.tails_cons, List.reverse_cons, List.findSome?_append, ih,
        Option.some_or]
  rw [baseName, hfind, Option.getD_some]

/-- White space in front of a text. -/
theorem words_blanks {blanks : CStr} (h : ∀ c ∈ blanks, isSpaceChar c = true) (n : Nat)
    (text : CStr) :
    Words.words isSpaceChar n (blanks ++ text) =
      Words.words isSpaceChar (n + blanks.length) text := by
  induction blanks generalizing n with
  | nil => rfl
  | cons c blanks ih =>
    obtain ⟨hc, hblanks⟩ := List.forall_mem_cons.mp h
    rw [List.cons_append, Words.words_sep hc, ih hblanks, List.length_cons]
    congr 1
    omega

/-- What is behind a file begins with white space. -/
theorem head_depText {deps : List (Blanks × ModFile)} (h : ∀ d ∈ deps, d.1.text ≠ [])
    (behind : Blanks) : ∀ c ∈ (depText deps ++ behind.text).head?, isSpaceChar c = true := by
  cases deps with
  | nil => exact fun c hc => behind.space c (List.mem_of_mem_head? hc)
  | cons d deps =>
    obtain ⟨c, blanks, hblanks⟩ := List.exists_cons_of_ne_nil (h d List.mem_cons_self)
    intro c' hc'
    rw [depText, List.flatMap_cons, hblanks] at hc'
    obtain rfl := Option.some.inj hc'
    exact d.1.space c (hblanks ▸ List.mem_cons_self)

theorem ModFile.path_ne_nil : f.path ≠ [] :=
  List.append_ne_nil_of_right_ne_nil _ (List.cons_ne_nil _ _)

theorem words_depText {deps : List (Blanks × ModFile)} (h : ∀ d ∈ deps, d.1.text ≠ [])
    (behind : Blanks) (n : Nat) :
    (Words.words isSpaceChar n (depText deps ++ behind.text)).map Words.Part.text =
      deps.map fun d => d.2.path := by
  induction deps generalizing n with
  | nil =>
    have hwords := words_blanks behind.space n []
    rw [List.append_nil, Words.words_nil] at hwords
    rw [depText, List.flatMap_nil, List.nil_append, hwords]
    rfl
  | cons d deps ih =>
    obtain ⟨-, hdeps⟩ := List.forall_mem_cons.mp h
    have htext : depText (d :: deps) ++ behind.text =
        d.1.text ++ (d.2.path ++ (depText deps ++ behind.text)) := by
      simp only [depText, List.flatMap_cons, List.append_assoc]
    rw [htext, words_blanks d.1.space,
      Words.words_append d.2.path_space (head_depText hdeps behind) d.2.path_ne_nil, List.map_cons,
      ih hdeps, List.map_cons]

/-- **The fields of a line** that is done are its files. -/
theorem DepLine.splitSpace_erase : splitSpace (l.text.erase ':') = l.files.map ModFile.path := by
  obtain ⟨c, path, hpath⟩ := List.exists_cons_of_ne_nil l.file.path_ne_nil
  have hc : isSpaceChar c = false := l.file.path_space c (hpath ▸ List.mem_cons_self)
  have hwords : (Words.words isSpaceChar 0 (l.text.erase ':')).map Words.Part.text =
      l.file.path :: l.deps.map fun d => d.2.path := by
    rw [l.erase_text, Words.words_append l.file.path_space (head_depText l.gap l.behind)
      l.file.path_ne_nil, List.map_cons, words_depText l.gap l.behind]
  have hhead : (l.text.erase ':').head? = some c := by
    rw [l.erase_text, hpath]
    rfl
  rw [splitSpace, hwords, hhead]
  dsimp only
  rw [Option.map_some, Option.getD_some, if_neg (by rw [hc]; exact Bool.false_ne_true), DepLine.files,
    List.map_cons, List.map_map]
  rfl

end Files

/-! ## The work list -/

/-- A module matches a line. -/
def hits (module : CStr) (l : DepLine) : Bool := isMatch module l.text

/-- The modules on a line that come behind the list. -/
def more (l : DepLine) : List CStr := l.deps.map fun d => d.2.name

/-- A line as it stands in `@mod_dep`. -/
def lineIn (p : DepLine × Bool) : CStr := if p.2 then p.1.text.erase ':' else p.1.text

/-- The variables of the function at a point of the walk. -/
def adding (w : Walk CStr DepLine) : Adding :=
  ⟨w.work, w.items.map lineIn, w.out.flatMap fun l => l.files.map ModFile.path,
    w.out.map DepLine.text⟩

theorem addLine_hit (module : CStr) (s : Adding) {l : DepLine} (h : hits module l = true) :
    addLine module s l.text =
      ⟨s.mod ++ more l, s.modDep ++ [lineIn (l, true)], s.modList ++ l.files.map ModFile.path,
        s.printed ++ [l.text]⟩ := by
  have hnames : (l.files.map ModFile.path).map baseName = l.files.map ModFile.name := by
    rw [List.map_map]
    exact List.map_congr_left fun f _ => f.baseName_path
  rw [addLine, if_pos (show isMatch module l.text = true from h)]
  dsimp only
  rw [l.splitSpace_erase, hnames, DepLine.files, List.map_cons, List.map_map, List.drop_one,
    List.tail_cons]
  rfl

theorem addLine_miss (module : CStr) (s : Adding) {line : CStr} (h : isMatch module line = false) :
    addLine module s line = { s with modDep := s.modDep ++ [line] } :=
  if_neg (by rw [h]; exact Bool.false_ne_true)

/-- The inner loop over some of the lines. -/
theorem foldl_addLine (module : CStr) (s : Adding) (items : List (DepLine × Bool)) :
    (items.map lineIn).foldl (addLine module) s =
      ⟨s.mod ++ (fresh hits module items).flatMap more,
        s.modDep ++ (mark hits module items).map lineIn,
        s.modList ++ (fresh hits module items).flatMap fun l => l.files.map ModFile.path,
        s.printed ++ (fresh hits module items).map DepLine.text⟩ := by
  induction items generalizing s with
  | nil => simp [fresh, mark]
  | cons p items ih =>
    obtain ⟨l, marked⟩ := p
    rw [List.map_cons, List.foldl_cons, ih]
    cases marked with
    | true =>
      have hmiss : isMatch module (lineIn (l, true)) = false := isMatch_of_notMem l.erase_colon
      rw [addLine_miss module s hmiss]
      simp [fresh, mark]
    | false =>
      cases hhit : hits module l with
      | true =>
        rw [show lineIn (l, false) = l.text from rfl, addLine_hit module s hhit]
        simp [fresh, mark, hhit]
      | false =>
        have hmiss : isMatch module (lineIn (l, false)) = false := hhit
        rw [addLine_miss module s hmiss]
        simp [fresh, mark, hhit]

/-- **One module** is one entry of the work list. -/
theorem addModule_adding (w : Walk CStr DepLine) (module : CStr) :
    addModule (adding w) module = adding (w.visit hits more module) := by
  rw [addModule, adding, foldl_addLine]
  simp [adding, Walk.visit]

/-- A module without characters that have a meaning in a pattern. -/
def IsPlain (module : CStr) : Prop := ∀ c ∈ module, c ∉ perlMeta

theorem isPlain_name (f : ModFile) : IsPlain f.name := by
  intro c hc hmeta
  have hall : perlMeta.all (fun c => !isNameChar c) = true := rfl
  have hnot := List.all_eq_true.mp hall c hmeta
  rw [f.name_char c hc] at hnot
  cases hnot

/-- **The outer loop** walks the work list. -/
theorem addModules_walk {w w' : Walk CStr DepLine} (h : (walk hits more w).Returns w')
    (hplain : ∀ module ∈ w.work, IsPlain module) :
    (Prog.loop addNext (adding w, w.pos)).Gives (.ok (adding w')) := by
  revert hplain
  refine Comp.loop_induction (motive := fun w w' => (∀ module ∈ w.work, IsPlain module) →
    (Prog.loop addNext (adding w, w.pos)).Gives (.ok (adding w'))) (fun w w' hdone _ => ?_)
    (fun w w₁ w' hnext ih hplain => ?_) h
  · have hend := Comp.returns_pure.mp hdone
    unfold Walk.pass at hend
    cases hk : w.work[w.pos]? with
    | some k =>
      rw [hk] at hend
      cases hend
    | none =>
      rw [hk] at hend
      obtain rfl := Pass.done.inj hend
      have hbody : (addNext (adding w, w.pos)).Gives (.ok (.done (adding w))) := by
        rw [addNext, show (adding w).mod[w.pos]? = none from hk]
        exact Prog.gives_pure.mpr rfl
      exact (Prog.gives_loop_done hbody).mpr rfl
  · have hgo := Comp.returns_pure.mp hnext
    unfold Walk.pass at hgo
    cases hk : w.work[w.pos]? with
    | none =>
      rw [hk] at hgo
      cases hgo
    | some k =>
      rw [hk] at hgo
      obtain rfl := Pass.next.inj hgo
      have hmem : k ∈ w.work := List.mem_of_getElem? hk
      have hmeta : k.any perlMeta.contains = false := by
        refine List.any_eq_false.mpr fun c hc hcontains => ?_
        exact hplain k hmem c hc (List.contains_iff_mem.mp hcontains)
      have hbody : (addNext (adding w, w.pos)).Gives
          (.ok (.next (adding (w.visit hits more k), w.pos + 1))) := by
        rw [addNext, show (adding w).mod[w.pos]? = some k from hk]
        dsimp only
        rw [hmeta, addModule_adding]
        exact Prog.gives_pure.mpr rfl
      refine (Prog.gives_loop_next hbody).mpr (ih fun module hmodule => ?_)
      rcases List.mem_append.mp hmodule with hold | hnew
      · exact hplain module hold
      · obtain ⟨l, -, hl⟩ := List.mem_flatMap.mp hnew
        obtain ⟨d, -, rfl⟩ := List.mem_map.mp hl
        exact isPlain_name d.2

/-! ## The closure -/

/-- The files that the requested modules need: their own, and from each of them what is on the line
of its module. -/
inductive Needed (lines : List DepLine) (mod : List CStr) : ModFile → Prop
  | requested {l : DepLine} (hl : l ∈ lines) (hmod : l.file.name ∈ mod.map firstWord) :
    Needed lines mod l.file
  | dependency {f g : ModFile} {l : DepLine} (hf : Needed lines mod f) (hl : l ∈ lines)
    (hname : l.file.name = f.name) (hg : g ∈ l.files) : Needed lines mod g

section Closure

variable {lines : List DepLine} {mod : List CStr} {w : Walk CStr DepLine}

/-- Where the walk has ended, a module in the list has its line. -/
theorem mem_out_of_work (hclosed : ∀ module ∈ w.work, ∀ l ∈ lines, hits module l = true → l ∈ w.out)
    {f : ModFile} (hf : f.name ∈ w.work) {l : DepLine} (hl : l ∈ lines)
    (hname : l.file.name = f.name) : l ∈ w.out :=
  hclosed f.name hf l hl (hname ▸ l.isMatch_name)

/-- A needed file is copied, and the line of its module is done. -/
theorem needed_out (hinv : Inv hits more lines (mod.map firstWord) w)
    (hclosed : ∀ module ∈ w.work, ∀ l ∈ lines, hits module l = true → l ∈ w.out) {f : ModFile}
    (h : Needed lines mod f) :
    (∃ l ∈ w.out, f ∈ l.files) ∧ ∀ l ∈ lines, l.file.name = f.name → l ∈ w.out := by
  induction h with
  | @requested l hl hmod =>
    have hwork := hinv.roots _ hmod
    exact ⟨⟨l, mem_out_of_work hclosed hwork hl rfl, List.mem_cons_self⟩,
      fun l' hl' hname => mem_out_of_work hclosed hwork hl' hname⟩
  | @dependency f g l hf hl hname hg ih =>
    have hout := ih.2 l hl hname
    refine ⟨⟨l, hout, hg⟩, fun l' hl' hname' => ?_⟩
    rcases List.mem_cons.mp hg with rfl | hdep
    · exact ih.2 l' hl' (hname'.trans hname)
    · obtain ⟨d, hd, rfl⟩ := List.mem_map.mp hdep
      exact mem_out_of_work hclosed (hinv.more l hout _ (List.mem_map_of_mem hd)) hl' hname'

theorem mem_copied {f : ModFile} :
    f.path ∈ (adding w).modList ↔ ∃ l ∈ w.out, ∃ g ∈ l.files, g.path = f.path := by
  simp only [adding, List.mem_flatMap, List.mem_map]

/-- **The dependency closure**, for requests in which no character is special in a pattern. The function
returns; a file that is needed is copied; the new `modules.dep` has lines of the old one, each at most
once, and the line of every module with one whose file is copied. -/
theorem addModules_closure (world : ModWorld) (kernel : CStr) {lines : List DepLine}
    {mod : List CStr} (hsetUp : world.setUp kernel = some (lines.map DepLine.text))
    (hdistinct : (lines.map fun l => l.file.name).Nodup)
    (hplain : ∀ module ∈ mod, IsPlain (firstWord module)) :
    ∃ added, (addModules world kernel mod).Gives (.ok (some added)) ∧
      (∀ f, Needed lines mod f → f.path ∈ added.copied) ∧
      added.modulesDep.Subperm (lines.map DepLine.text) ∧
      ∀ f : ModFile, f.path ∈ added.copied → ∀ l ∈ lines, l.file.name = f.name →
        l.text ∈ added.modulesDep := by
  have hnodup : lines.Nodup := hdistinct.of_map
  obtain ⟨w, hw, hinv, hclosed⟩ :=
    @walk_closed CStr DepLine hits more lines (mod.map firstWord) hnodup
  have hrun : (Prog.loop addNext (adding (Walk.start lines (mod.map firstWord)), 0)).Gives
      (.ok (adding w)) := by
    refine addModules_walk hw fun module hmodule => ?_
    obtain ⟨m, hm, rfl⟩ := List.mem_map.mp hmodule
    exact hplain m hm
  have hstart : adding (Walk.start lines (mod.map firstWord)) =
      ⟨mod.map firstWord, lines.map DepLine.text, [], []⟩ := by
    rw [adding, Walk.start, List.map_map]
    rfl
  rw [hstart] at hrun
  refine ⟨⟨(adding w).printed, (adding w).modList⟩, ?_, fun f hf => ?_, ?_, fun f hf l hl hname => ?_⟩
  · rw [addModules, hsetUp]
    exact (Prog.gives_bind_ok hrun).mpr (Prog.gives_pure.mpr rfl)
  · obtain ⟨l, hl, hf⟩ := (needed_out hinv hclosed hf).1
    exact mem_copied.mpr ⟨l, hl, f, hf, rfl⟩
  · obtain ⟨done, hperm, hsub⟩ := hinv.nodup.subperm fun l hl => hinv.mem_items hl
    exact ⟨done.map DepLine.text, hperm.map _, hsub.map _⟩
  · obtain ⟨l', hl', g, hg, hpath⟩ := mem_copied.mp hf
    have hgf : g.name = f.name := by rw [← g.baseName_path, hpath, f.baseName_path]
    have hlines : l' ∈ lines := hinv.mem_items hl'
    refine List.mem_map_of_mem ?_
    rcases List.mem_cons.mp hg with rfl | hdep
    · have heq : l = l' := List.inj_on_of_nodup_map hdistinct hl hlines (hname.trans hgf.symm)
      exact heq ▸ hl'
    · obtain ⟨d, hd, rfl⟩ := List.mem_map.mp hdep
      exact mem_out_of_work hclosed (hinv.more l' hl' _ (List.mem_map_of_mem hd)) hl
        (hname.trans hgf.symm)

end Closure

/-- A file in one directory. -/
def inModules (name : CStr) (h : name.all isNameChar = true) : ModFile :=
  ⟨"/m".toList, name, not_space_of_all rfl, by decide, List.all_eq_true.mp h⟩

/-- Two modules that depend on each other. -/
def cyclicDep : List DepLine :=
  [⟨inModules ['a'] rfl, [(⟨[' '], List.all_eq_true.mp rfl⟩, inModules ['b'] rfl)],
      ⟨['\n'], List.all_eq_true.mp rfl⟩, by simp⟩,
    ⟨inModules ['b'] rfl, [(⟨[' '], List.all_eq_true.mp rfl⟩, inModules ['a'] rfl)],
      ⟨['\n'], List.all_eq_true.mp rfl⟩, by simp⟩]

theorem addModules_closure_cyclic :
    ∃ added, (addModules ⟨fun _ => ['2'], fun _ => some (cyclicDep.map DepLine.text), true, true⟩ []
        [['a']]).Gives (.ok (some added)) ∧
      "/m/b.ko".toList ∈ added.copied ∧ "/m/b.ko: /m/a.ko\n".toList ∈ added.modulesDep := by
  have hdistinct : (cyclicDep.map fun l => l.file.name).Nodup := by decide
  have hplain : ∀ module ∈ [['a']], IsPlain (firstWord module) := by
    intro module hmodule
    obtain rfl := List.mem_singleton.mp hmodule
    have hall : (firstWord ['a']).all (fun c => !perlMeta.contains c) = true := rfl
    exact fun c hc => by simpa using List.all_eq_true.mp hall c hc
  obtain ⟨added, hgives, hneeded, -, hlines⟩ := addModules_closure
    ⟨fun _ => ['2'], fun _ => some (cyclicDep.map DepLine.text), true, true⟩ [] rfl hdistinct hplain
  have hb : "/m/b.ko".toList ∈ added.copied := by
    refine hneeded (inModules ['b'] rfl) ?_
    refine .dependency (.requested (l := cyclicDep.head (by decide)) ?_ ?_)
      (l := cyclicDep.head (by decide)) ?_ rfl ?_
    · exact List.head_mem _
    · decide
    · exact List.head_mem _
    · exact List.mem_cons_of_mem _ List.mem_cons_self
  exact ⟨added, hgives, hb, hlines (inModules ['b'] rfl) hb (cyclicDep.getLast (by decide))
    (List.getLast_mem _) rfl⟩

end Sysload.Admin
