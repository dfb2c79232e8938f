import Sysload.Parser.Lines

/-!
# The text of a boot entry

`cfg_bentry_print` writes the strings of a boot entry in a fixed order, each on a line of its own, without
those that are empty. The scanner reads each line as an option of the grammar (`lexes_field`) and the
text as the tokens of a boot entry (`lexes_print`), if each string is one that it takes as it is
(`PrintedOk`).

Source: `src/core/config.c`, `cfg_bentry_print`; `src/core/sysload.conf.l`.
-/

namespace Sysload.Parser

open Lexer

/-! ## The fields of a boot entry -/

/-- The fields that are printed behind title and label. -/
inductive BentryField where
  | root
  | kernel
  | initrd
  | cmdline
  | parmfile
  | insfile
  | bootmap
  deriving DecidableEq, Repr

namespace BentryField

/-- The fields in the order in which they are printed. -/
def all : List BentryField := [root, kernel, initrd, cmdline, parmfile, insfile, bootmap]

/-- The name of the field. -/
def name : BentryField → CStr
  | root => "root".toList
  | kernel => "kernel".toList
  | initrd => "initrd".toList
  | cmdline => "cmdline".toList
  | parmfile => "parmfile".toList
  | insfile => "insfile".toList
  | bootmap => "bootmap".toList

/-- The value of the field. -/
def get (b : CfgBentry) : BentryField → CStr
  | root => b.root
  | kernel => b.kernel
  | initrd => b.initrd
  | cmdline => b.cmdline
  | parmfile => b.parmfile
  | insfile => b.insfile
  | bootmap => b.bootmap

/-- The option that sets the field. -/
def option (str : CStr) : BentryField → BootOption
  | root => .root str
  | kernel => .kernel str
  | initrd => .initrd str
  | cmdline => .cmdline str
  | parmfile => .parmfile str
  | insfile => .insfile str
  | bootmap => .bootmap str

/-- A value of the field that the scanner reads back. -/
def Ok (str : CStr) : BentryField → Prop
  | root | insfile | bootmap => str = [] ∨ IsUri str
  | kernel | initrd | parmfile => ReadsBack str
  | cmdline => IsLine str

/-- A line, if the field is not empty. -/
def line (b : CfgBentry) (f : BentryField) : CStr := printIfAvailable f.name (f.get b)

theorem name_ne_nil (f : BentryField) : f.name ≠ [] := by
  cases f <;> decide

theorem line_of_nil {b : CfgBentry} {f : BentryField} (h : f.get b = []) : f.line b = [] := by
  rw [line, printIfAvailable, if_pos (Or.inr h)]

theorem line_of_ne_nil {b : CfgBentry} {f : BentryField} (h : f.get b ≠ []) :
    f.line b = f.name ++ ' ' :: f.get b ++ ['\n'] := by
  rw [line, printIfAvailable, if_neg (not_or.mpr ⟨f.name_ne_nil, h⟩)]

end BentryField

open BentryField in
/-- The fields that an action uses. -/
def usedFields : BootAction → List BentryField
  | .kernelBoot => [root, kernel, initrd, cmdline, parmfile]
  | .insfileBoot => [root, insfile, cmdline]
  | .bootmapBoot => [root, bootmap, cmdline, parmfile]
  | _ => []

/-- The fields that are printed for an action. -/
def printedFields : BootAction → List BentryField
  | .kernelBoot | .insfileBoot | .bootmapBoot => BentryField.all
  | _ => []

/-- The options that are printed. -/
def printedOptions (b : CfgBentry) : List BootOption :=
  match b.action with
  | .reboot => [.reboot]
  | .halt => [.halt]
  | .shell => [.shell]
  | .exit => [.exit]
  | _ => (BentryField.all.filter fun f => f.get b ≠ []).map fun f => f.option (f.get b)

/-- The lines of the options. -/
def optionLines (b : CfgBentry) : CStr :=
  match b.action with
  | .reboot => "reboot\n".toList
  | .halt => "halt\n".toList
  | .shell => "shell\n".toList
  | .exit => "exit\n".toList
  | _ => BentryField.all.flatMap fun f => f.line b

/-- What is printed is read back. -/
structure PrintedOk (b : CfgBentry) : Prop where
  title : IsLine b.title
  label : IsLine b.label
  fields : ∀ f ∈ printedFields b.action, f.Ok (f.get b)

theorem cfgBentryPrint_eq (b : CfgBentry) :
    cfgBentryPrint b = "boot_entry \x7b\n".toList ++ printIfAvailable "title".toList b.title ++
      printIfAvailable "label".toList b.label ++ optionLines b ++ "\x7d\n".toList := by
  have hfields : (BentryField.all.flatMap fun f => f.line b) =
      printIfAvailable "root".toList b.root ++ printIfAvailable "kernel".toList b.kernel ++
      printIfAvailable "initrd".toList b.initrd ++ printIfAvailable "cmdline".toList b.cmdline ++
      printIfAvailable "parmfile".toList b.parmfile ++
      printIfAvailable "insfile".toList b.insfile ++
      printIfAvailable "bootmap".toList b.bootmap := by
    simp only [BentryField.all, List.flatMap_cons, List.flatMap_nil, List.append_nil,
      List.append_assoc]
    rfl
  have hboot := congrArg (fun lines => "boot_entry \x7b\n".toList ++
    printIfAvailable "title".toList b.title ++ printIfAvailable "label".toList b.label ++ lines ++
    "\x7d\n".toList) hfields.symm
  unfold cfgBentryPrint optionLines
  cases b.action with
  | kernelBoot | insfileBoot | bootmapBoot => exact hboot
  | _ => rfl

/-! ## The tokens of a line -/

theorem string_mem {k : Kind} {f : CStr → BootOption} (h : stringRow k f ∈ optionTable) {v str : CStr} :
    Fits optionTable (f str) [⟨k, v⟩, ⟨.tString, str⟩] := ⟨_, h, rfl, rfl⟩

theorem uri_fits {k : Kind} {f : CStr → BootOption} (h : ∀ r ∈ uriRows k f, r ∈ optionTable)
    {v str : CStr} {ts : List Token} (hts : UriTokens str ts) :
    Fits optionTable (f str) (⟨k, v⟩ :: ts) := by
  cases hts with
  | line start rest => exact ⟨_, h _ List.mem_cons_self, rfl, rfl⟩
  | bracket start body rest =>
    exact ⟨_, h _ (List.mem_cons_of_mem _ List.mem_cons_self), rfl, rfl⟩

/-- **The line of a field** is read as the option of the field. -/
theorem lexes_field {b : CfgBentry} {f : BentryField} (hok : f.Ok (f.get b)) (hne : f.get b ≠ []) :
    ∃ ts, Lexes (f.line b) ts ∧ Fits optionTable (f.option (f.get b)) ts := by
  rw [BentryField.line_of_ne_nil hne]
  cases f with
  | root =>
    obtain ⟨ts, hts, hlexes⟩ := @lexes_root "root".toList b.root .tRoot
      (.seq (word "root".toList) (.seq blanks uriStart)) rfl (hok.resolve_left hne)
    exact ⟨_, hlexes, uri_fits (fun r hr => by simp [optionTable, hr]) hts⟩
  | insfile =>
    obtain ⟨ts, hts, hlexes⟩ := @lexes_root "insfile".toList b.insfile .tInsfile
      (.seq (word "insfile".toList) (.seq blanks uriStart)) rfl (hok.resolve_left hne)
    exact ⟨_, hlexes, uri_fits (fun r hr => by simp [optionTable, hr]) hts⟩
  | bootmap =>
    obtain ⟨ts, hts, hlexes⟩ := @lexes_root "bootmap".toList b.bootmap .tBootmap
      (.seq (word "bootmap".toList) (.seq blanks uriStart)) rfl (hok.resolve_left hne)
    exact ⟨_, hlexes, uri_fits (fun r hr => by simp [optionTable, hr]) hts⟩
  | cmdline =>
    have hlexes := @lexes_title "cmdline".toList b.cmdline .tCmdline
      (.seq (word "cmdline".toList) blanks) false _ rfl hok hne
    exact ⟨_, hlexes, string_mem (by simp [optionTable])⟩
  | kernel =>
    rcases @lexes_file "kernel".toList b.kernel .tKernel (.seq (word "kernel".toList) blanks) false
      (.seq (word "kernel".toList) (.seq blanks uriStart)) rfl hok hne with hlexes | ⟨ts, hts, hlexes⟩
    · exact ⟨_, hlexes, string_mem (by simp [optionTable])⟩
    · exact ⟨_, hlexes, uri_fits (fun r hr => by simp [optionTable, hr]) hts⟩
  | initrd =>
    rcases @lexes_file "initrd".toList b.initrd .tInitrd (.seq (word "initrd".toList) blanks) true
      (.seq (word "initrd".toList) (.seq blanks uriStart)) rfl hok hne with hlexes | ⟨ts, hts, hlexes⟩
    · exact ⟨_, hlexes, string_mem (by simp [optionTable])⟩
    · exact ⟨_, hlexes, uri_fits (fun r hr => by simp [optionTable, hr]) hts⟩
  | parmfile =>
    rcases @lexes_file "parmfile".toList b.parmfile .tParmfile (.seq (word "parmfile".toList) blanks)
      false (.seq (word "parmfile".toList) (.seq blanks uriStart)) rfl hok hne with
      hlexes | ⟨ts, hts, hlexes⟩
    · exact ⟨_, hlexes, string_mem (by simp [optionTable])⟩
    · exact ⟨_, hlexes, uri_fits (fun r hr => by simp [optionTable, hr]) hts⟩

/-! ## The tokens of the text -/

/-- A list without system sections. -/
def Items.ofList {α : Type} : List α → Items α
  | [] => .nil
  | a :: l => .leaf a (ofList l)

theorem Items.ofList_ne_nil {α : Type} {l : List α} (h : l ≠ []) : Items.ofList l ≠ .nil := by
  cases l with
  | nil => exact absurd rfl h
  | cons a l => simp [ofList]

/-- The tokens of some options. -/
def OptionTokens (os : List BootOption) (ts : List Token) : Prop :=
  (Items.ofList os).Reads .optionlist (Fits optionTable) ts

theorem lexes_fields {b : CfgBentry} {fs : List BentryField} (hok : ∀ f ∈ fs, f.Ok (f.get b)) :
    ∃ ts, Lexes (fs.flatMap fun f => f.line b) ts ∧
      OptionTokens ((fs.filter fun f => f.get b ≠ []).map fun f => f.option (f.get b)) ts := by
  induction fs with
  | nil => exact ⟨[], lexes_nil, .nil⟩
  | cons f fs ih =>
    obtain ⟨hf, hfs⟩ := List.forall_mem_cons.mp hok
    obtain ⟨ts, hlexes, hreads⟩ := ih hfs
    rw [List.flatMap_cons]
    by_cases hne : f.get b = []
    · rw [BentryField.line_of_nil hne, List.nil_append, List.filter_cons_of_neg (by simp [hne])]
      exact ⟨ts, hlexes, hreads⟩
    · obtain ⟨us, hline, hfits⟩ := lexes_field hf hne
      rw [List.filter_cons_of_pos (by simp [hne]), List.map_cons]
      exact ⟨us ++ ts, hline.append hlexes, .leaf hfits hreads⟩

/-- A word on a line of its own. -/
theorem lexes_wordLine {w : List Char} {modes : List Mode} {p : Pattern} {a : Action} {t : Token}
    (hstate : scanState (rulesOf .initial) 0 none (w ++ ['\n']) =
      ([], some (w.length, rule modes p a)))
    (hne : w ≠ []) (hact : ∀ (s : Scanner) active load,
      s.act active load w a = (s, some (.token t (cstr w)))) : Lexes (w ++ ['\n']) [t] :=
  Lexes.word hstate hne hact lexes_newline

theorem lexes_lbrace : Lexes ['\x7b', '\n'] [⟨.lbrace, []⟩] :=
  lexes_wordLine (w := ['\x7b']) rfl (List.cons_ne_nil _ _) fun _ _ _ => rfl

theorem lexes_rbrace : Lexes ['\x7d', '\n'] [⟨.rbrace, []⟩] :=
  lexes_wordLine (w := ['\x7d']) rfl (List.cons_ne_nil _ _) fun _ _ _ => rfl

theorem lexes_open : Lexes "boot_entry \x7b\n".toList [⟨.tBootEntry, []⟩, ⟨.lbrace, []⟩] :=
  Lexes.word (w := "boot_entry".toList) rfl (by decide) (fun _ _ _ => rfl)
    (Lexes.blank rfl lexes_lbrace)

/-- The tokens of a keyword and a string, if the string is not empty. -/
def lineTokens (k : Kind) (str : CStr) : List Token :=
  if str = [] then [] else [⟨k, []⟩, ⟨.tString, str⟩]

theorem lexes_titleLine {str : CStr} (h : IsLine str) :
    Lexes (printIfAvailable "title".toList str) (lineTokens .tTitle str) := by
  by_cases hne : str = []
  · rw [printIfAvailable, if_pos (Or.inr hne), lineTokens, if_pos hne]
    exact lexes_nil
  · rw [printIfAvailable, if_neg (not_or.mpr ⟨by decide, hne⟩), lineTokens, if_neg hne]
    exact @lexes_title "title".toList str .tTitle (.seq (word "title".toList) blanks) false _ rfl h hne

theorem lexes_labelLine {str : CStr} (h : IsLine str) :
    Lexes (printIfAvailable "label".toList str) (lineTokens .tLabel str) := by
  by_cases hne : str = []
  · rw [printIfAvailable, if_pos (Or.inr hne), lineTokens, if_pos hne]
    exact lexes_nil
  · rw [printIfAvailable, if_neg (not_or.mpr ⟨by decide, hne⟩), lineTokens, if_neg hne]
    exact @lexes_title "label".toList str .tLabel (.seq (word "label".toList) blanks) false _ rfl h hne

theorem lexes_optionLines {b : CfgBentry} (hok : ∀ f ∈ printedFields b.action, f.Ok (f.get b)) :
    ∃ us, Lexes (optionLines b) us ∧ OptionTokens (printedOptions b) us := by
  have hword : ∀ {o : BootOption} {t : Token}, Fits optionTable o [t] → OptionTokens [o] [t] :=
    fun h => .leaf h .nil
  unfold optionLines printedOptions
  cases haction : b.action with
  | reboot =>
    refine ⟨[⟨.tReboot, []⟩], ?_, hword ⟨([.tReboot], fun _ => .reboot), by simp [optionTable], rfl, rfl⟩⟩
    exact lexes_wordLine (w := "reboot".toList) rfl (by decide) fun _ _ _ => rfl
  | halt =>
    refine ⟨[⟨.tHalt, []⟩], ?_, hword ⟨([.tHalt], fun _ => .halt), by simp [optionTable], rfl, rfl⟩⟩
    exact lexes_wordLine (w := "halt".toList) rfl (by decide) fun _ _ _ => rfl
  | shell =>
    refine ⟨[⟨.tShell, []⟩], ?_, hword ⟨([.tShell], fun _ => .shell), by simp [optionTable], rfl, rfl⟩⟩
    exact lexes_wordLine (w := "shell".toList) rfl (by decide) fun _ _ _ => rfl
  | exit =>
    refine ⟨[⟨.tExit, []⟩], ?_, hword ⟨([.tExit], fun _ => .exit), by simp [optionTable], rfl, rfl⟩⟩
    exact lexes_wordLine (w := "exit".toList) rfl (by decide) fun _ _ _ => rfl
  | kernelBoot => exact lexes_fields (by rwa [haction] at hok)
  | insfileBoot => exact lexes_fields (by rwa [haction] at hok)
  | bootmapBoot => exact lexes_fields (by rwa [haction] at hok)

/-- **The tokens of the text.** -/
theorem lexes_print {b : CfgBentry} (hok : PrintedOk b) :
    ∃ us, OptionTokens (printedOptions b) us ∧
      Lexes (cfgBentryPrint b) ([⟨.tBootEntry, []⟩, ⟨.lbrace, []⟩] ++ lineTokens .tTitle b.title ++
        lineTokens .tLabel b.label ++ us ++ [⟨.rbrace, []⟩]) := by
  obtain ⟨us, hlexes, hus⟩ := lexes_optionLines hok.fields
  rw [cfgBentryPrint_eq]
  exact ⟨us, hus, (((lexes_open.append (lexes_titleLine hok.title)).append
    (lexes_labelLine hok.label)).append hlexes).append lexes_rbrace⟩

/-! ## The text has no `NUL` -/

theorem readsBack_nul {str : CStr} (h : ReadsBack str) : nul ∉ str := h.elim IsUri.nul fun h => h.1.nul

theorem nul_notMem_of_ok {f : BentryField} {str : CStr} (h : f.Ok str) : nul ∉ str := by
  have huri : str = [] ∨ IsUri str → nul ∉ str := by
    rintro (rfl | h)
    · exact List.not_mem_nil
    · exact h.nul
  cases f with
  | root => exact huri h
  | insfile => exact huri h
  | bootmap => exact huri h
  | kernel => exact readsBack_nul h
  | initrd => exact readsBack_nul h
  | parmfile => exact readsBack_nul h
  | cmdline => exact h.nul

theorem printIfAvailable_nul {name value : CStr} (hname : nul ∉ name) (hvalue : nul ∉ value) :
    nul ∉ printIfAvailable name value := by
  unfold printIfAvailable
  split
  · exact List.not_mem_nil
  · simp [hname, hvalue, show nul ≠ ' ' by decide, show nul ≠ '\n' by decide]

theorem optionLines_nul {b : CfgBentry} (hok : ∀ f ∈ printedFields b.action, f.Ok (f.get b)) :
    nul ∉ optionLines b := by
  have hfields : (∀ f ∈ BentryField.all, f.Ok (f.get b)) →
      nul ∉ BentryField.all.flatMap fun f => f.line b := by
    intro hall hmem
    obtain ⟨f, hf, hnul⟩ := List.mem_flatMap.mp hmem
    refine printIfAvailable_nul ?_ (nul_notMem_of_ok (hall f hf)) hnul
    cases f <;> decide
  unfold optionLines
  cases haction : b.action with
  | reboot =>
    show nul ∉ "reboot\n".toList
    decide
  | halt =>
    show nul ∉ "halt\n".toList
    decide
  | shell =>
    show nul ∉ "shell\n".toList
    decide
  | exit =>
    show nul ∉ "exit\n".toList
    decide
  | kernelBoot => exact hfields (by rwa [haction] at hok)
  | insfileBoot => exact hfields (by rwa [haction] at hok)
  | bootmapBoot => exact hfields (by rwa [haction] at hok)

theorem print_nul {b : CfgBentry} (hok : PrintedOk b) : nul ∉ cfgBentryPrint b := by
  rw [cfgBentryPrint_eq]
  simp only [List.mem_append, not_or]
  exact ⟨⟨⟨⟨by decide, printIfAvailable_nul (by decide) hok.title.nul⟩,
    printIfAvailable_nul (by decide) hok.label.nul⟩, optionLines_nul hok.fields⟩, by decide⟩

end Sysload.Parser
