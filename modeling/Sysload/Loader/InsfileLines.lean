import Sysload.Loader.Insfile

/-!
# The lines of an insfile (`action_insfile_boot`)

The name and the address of a line are scanned into buffers that live as long as the loop, so that a
line may use what an earlier one has left there. `components` are the names and addresses that the
loop uses; `loadComponents` loads them one after the other.

Source: `src/core/insfile.c`, the while loop of `action_insfile_boot`.

Results:
* `loadComponents_eq`: the loop in terms of what it uses.
* `uses_lines`: what one line uses, behind the lines before it.
* **`lineUses_alone_iff`**: a line uses what it would use alone if and only if it has what it needs,
  or nothing was left behind.
-/

namespace Sysload

/-! ## What the loop uses -/

/-- A component: the number of its line, and the name and the address that are used. -/
structure Component where
  linecount : Nat
  filename : CStr
  addr : Nat
  deriving DecidableEq, Repr

/-- What is left in the buffers behind the pieces of some lines. -/
def scanned : List CStr → CStr × Nat → CStr × Nat
  | [], left => left
  | input :: rest, left =>
    if input.head? = some '*' then scanned rest left
    else scanned rest (scanLine input left.1 left.2)

/-- The components that the loop loads. -/
def components : List CStr → (linecount : Nat) → (left : CStr × Nat) → List Component
  | [], _, _ => []
  | input :: rest, linecount, left =>
    if input.head? = some '*' then components rest linecount left
    else
      let left := scanLine input left.1 left.2
      (if left.1 ≠ [] then [⟨linecount + 1, left.1, left.2⟩] else []) ++
        components rest (linecount + 1) left

/-- **The loop loads its components** one after the other. -/
theorem loadComponents_eq (os : Os) (uriPath : CStr) (pieces : List CStr) (linecount : Nat)
    (left : CStr × Nat) :
    loadComponents os uriPath pieces linecount left.1 left.2 =
      forM (components pieces linecount left) fun c =>
        loadComponent os uriPath c.linecount c.filename c.addr := by
  induction pieces generalizing linecount left with
  | nil => rfl
  | cons input rest ih =>
    rw [loadComponents, components]
    split
    · exact ih linecount left
    · dsimp only
      rw [ih (linecount + 1) (scanLine input left.1 left.2), List.forM_append]
      split
      · rw [List.forM_cons, List.forM_nil, bind_assoc]
        refine congrArg _ (funext fun _ => ?_)
        rw [pure_bind]
      · rw [List.forM_nil, pure_bind]

/-- The names and addresses. -/
def uses (pieces : List CStr) (left : CStr × Nat) : List (CStr × Nat) :=
  (components pieces 0 left).map fun c => (c.filename, c.addr)

theorem map_components (pieces : List CStr) (linecount : Nat) (left : CStr × Nat) :
    (components pieces linecount left).map (fun c => (c.filename, c.addr)) = uses pieces left := by
  unfold uses
  generalize 0 = other
  induction pieces generalizing linecount left other with
  | nil => rfl
  | cons input rest ih =>
    rw [components, components]
    split
    · exact ih linecount left other
    · dsimp only
      rw [List.map_append, List.map_append, ih _ _ (other + 1)]
      split <;> rfl

theorem uses_comment {input : CStr} (h : input.head? = some '*') (rest : List CStr)
    (left : CStr × Nat) : uses (input :: rest) left = uses rest left := by
  rw [uses, components, if_pos h]
  rfl

theorem uses_cons {input : CStr} (h : input.head? ≠ some '*') (rest : List CStr)
    (left : CStr × Nat) :
    uses (input :: rest) left =
      (if (scanLine input left.1 left.2).1 ≠ [] then [scanLine input left.1 left.2] else []) ++
        uses rest (scanLine input left.1 left.2) := by
  rw [uses, components, if_neg h]
  dsimp only
  rw [List.map_append, map_components]
  split <;> rfl

/-! ## One piece -/

/-- The name in a piece. -/
def pieceName (input : CStr) : CStr :=
  ((cstr input).dropWhile isSpaceChar).takeWhile fun c => !isSpaceChar c

/-- The address in a piece. -/
def pieceAddr (input : CStr) : Option Nat :=
  scanHex (((cstr input).dropWhile isSpaceChar).drop (pieceName input).length)

/-- **What is scanned**: a blank piece leaves the buffers as they are, one without an address leaves
the address. -/
theorem scanLine_eq (input : CStr) (left : CStr × Nat) :
    scanLine input left.1 left.2 =
      if pieceName input = [] then left else (pieceName input, (pieceAddr input).getD left.2) := rfl

theorem scanLine_ne_nil {input : CStr} {left : CStr × Nat} (h : left.1 ≠ []) :
    (scanLine input left.1 left.2).1 ≠ [] := by
  rw [scanLine_eq]
  split
  · exact h
  · assumption

/-- With a name at hand every piece is used. -/
theorem length_uses_le (pieces : List CStr) {left : CStr × Nat} (left' : CStr × Nat)
    (h : left.1 ≠ []) :
    (uses pieces left').length ≤ (uses pieces left).length := by
  induction pieces generalizing left left' with
  | nil => exact Nat.le_refl _
  | cons input rest ih =>
    by_cases hcomment : input.head? = some '*'
    · rw [uses_comment hcomment, uses_comment hcomment]
      exact ih left' h
    · have hne : (scanLine input left.1 left.2).1 ≠ [] := scanLine_ne_nil h
      have hrest := ih (scanLine input left'.1 left'.2) hne
      rw [uses_cons hcomment, uses_cons hcomment, if_pos hne, List.length_append,
        List.length_append]
      refine Nat.add_le_add ?_ hrest
      split
      · exact Nat.le_refl 1
      · exact Nat.zero_le 1

/-! ## Lines -/

/-- A line does not depend on what was left: a blank one behind no name, one without an address
behind the address zero. -/
def Settles (input : CStr) (left : CStr × Nat) : Prop :=
  (pieceName input = [] → left.1 = []) ∧
    (pieceName input ≠ [] → pieceAddr input = none → left.2 = 0)

/-- **What is used behind some lines, and alone.** -/
theorem uses_iff {input : CStr} (rest : List CStr) {left : CStr × Nat}
    (hcomment : input.head? ≠ some '*') (hleft : left.1 = [] → left.2 = 0) :
    uses (input :: rest) left = uses (input :: rest) ([], 0) ↔ Settles input left := by
  rw [uses_cons hcomment, uses_cons hcomment, scanLine_eq, scanLine_eq]
  by_cases hblank : pieceName input = []
  · rw [if_pos hblank, if_pos hblank, if_neg (not_not.mpr rfl), List.nil_append]
    have hsettles : Settles input left ↔ left.1 = [] :=
      ⟨fun h => h.1 hblank, fun h => ⟨fun _ => h, fun hne => absurd hblank hne⟩⟩
    rw [hsettles]
    constructor
    · intro heq
      by_contra hname
      rw [if_pos hname] at heq
      have hlen := congrArg List.length heq
      have hle := length_uses_le rest ([], 0) hname
      rw [List.length_append, List.length_singleton] at hlen
      omega
    · intro hname
      obtain rfl : left = ([], 0) := Prod.ext hname (hleft hname)
      rfl
  · rw [if_neg hblank, if_neg hblank, if_pos hblank, if_pos hblank]
    have hsettles : Settles input left ↔ (pieceAddr input = none → left.2 = 0) :=
      ⟨fun h => h.2 hblank, fun h => ⟨fun hnil => absurd hnil hblank, fun _ => h⟩⟩
    rw [hsettles]
    constructor
    · intro heq hnone
      have hhead := (List.cons.inj heq).1
      rw [hnone] at hhead
      exact (Prod.mk.inj hhead).2
    · intro h
      have haddr : (pieceAddr input).getD left.2 = (pieceAddr input).getD 0 := by
        cases hsome : pieceAddr input with
        | none => exact h hsome
        | some addr => rfl
      rw [haddr]

/-! ### What was left behind -/

/-- The pieces that are scanned. -/
def scannedPieces (pieces : List CStr) : List CStr := pieces.filter fun p => p.head? ≠ some '*'

/-- The names in some pieces. -/
def namesIn (pieces : List CStr) : List CStr :=
  ((scannedPieces pieces).map pieceName).filter fun name => name ≠ []

/-- The addresses in some pieces. -/
def addrsIn (pieces : List CStr) : List Nat :=
  (scannedPieces pieces).filterMap fun p => if pieceName p = [] then none else pieceAddr p

theorem scanned_comment {input : CStr} (h : input.head? = some '*') (rest : List CStr)
    (left : CStr × Nat) : scanned (input :: rest) left = scanned rest left := by
  rw [scanned, if_pos h]

theorem scannedPieces_comment {input : CStr} (h : input.head? = some '*') (rest : List CStr) :
    scannedPieces (input :: rest) = scannedPieces rest :=
  List.filter_cons_of_neg (by simp [h])

theorem scannedPieces_cons {input : CStr} (h : input.head? ≠ some '*') (rest : List CStr) :
    scannedPieces (input :: rest) = input :: scannedPieces rest :=
  List.filter_cons_of_pos (by simpa using h)

/-- **What is left** is the last name and the last address. -/
theorem scanned_eq (pieces : List CStr) (left : CStr × Nat) :
    scanned pieces left = ((namesIn pieces).getLastD left.1, (addrsIn pieces).getLastD left.2) := by
  induction pieces generalizing left with
  | nil => rfl
  | cons input rest ih =>
    by_cases hcomment : input.head? = some '*'
    · rw [scanned_comment hcomment, ih, namesIn, namesIn, addrsIn, addrsIn,
        scannedPieces_comment hcomment]
    · rw [scanned, if_neg hcomment, ih, scanLine_eq]
      simp only [namesIn, addrsIn, scannedPieces_cons hcomment, List.map_cons, List.filterMap_cons]
      by_cases hblank : pieceName input = []
      · rw [if_pos hblank, if_pos hblank, List.filter_cons_of_neg (by simp [hblank])]
      · rw [if_neg hblank, if_neg hblank, List.filter_cons_of_pos (by simpa using hblank)]
        cases pieceAddr input with
        | none =>
          rw [List.getLastD_cons]
          rfl
        | some addr =>
          rw [List.getLastD_cons]
          exact congrArg (Prod.mk _) List.getLastD_cons.symm

theorem addrsIn_nil {pieces : List CStr} (h : namesIn pieces = []) : addrsIn pieces = [] := by
  refine List.filterMap_eq_nil_iff.mpr fun p hp => ?_
  have hblank := List.filter_eq_nil_iff.mp h (pieceName p) (List.mem_map_of_mem hp)
  rw [if_pos (by simpa using hblank)]

/-! ## The lines of a file -/

/-- The pieces of an insfile. -/
def insfilePieces (data : List Char) : List CStr := fgetsPieces data (cfgStrMaxLen - 1) []

/-- Pieces end with their line. -/
theorem fgetsPieces_behind (line rest : List Char) (room : Nat) (piece : CStr) :
    fgetsPieces (line ++ '\n' :: rest) room piece =
      fgetsPieces (line ++ ['\n']) room piece ++ insfilePieces rest := by
  induction line generalizing room piece with
  | nil =>
    rw [List.nil_append, List.nil_append, fgetsPieces, fgetsPieces, if_pos (Or.inl rfl),
      if_pos (Or.inl rfl)]
    rfl
  | cons c line ih =>
    rw [List.cons_append, List.cons_append, fgetsPieces, fgetsPieces]
    split
    · rw [ih, List.cons_append]
    · exact ih _ _

/-- The first piece begins like the line. -/
theorem fgetsPieces_head (data : List Char) (room : Nat) (c : Char) (piece : CStr) :
    ∃ first rest, fgetsPieces data room (c :: piece) = (c :: first) :: rest := by
  induction data generalizing room piece with
  | nil => exact ⟨piece, [], rfl⟩
  | cons d data ih =>
    rw [fgetsPieces]
    split
    · exact ⟨_, _, rfl⟩
    · exact ih _ _

theorem insfilePieces_head {c : Char} {line : List Char} :
    ∃ first rest, insfilePieces (c :: line) = (c :: first) :: rest := by
  rw [insfilePieces, fgetsPieces]
  split
  · exact ⟨_, _, rfl⟩
  · exact fgetsPieces_head _ _ _ _

/-- A line of an insfile: what stands before it, the line with its line break, which may be missing
at the end, and what stands behind it. -/
structure InsfileLine (data : List Char) where
  before : List Char
  line : List Char
  behind : List Char
  split : data = before ++ (line ++ behind)
  begins : before = [] ∨ ∃ u, before = u ++ ['\n']
  nonempty : line ≠ []
  ends : (∃ u, '\n' ∉ u ∧ line = u ++ ['\n']) ∨ '\n' ∉ line ∧ behind = []

namespace InsfileLine

variable {data : List Char} (l : InsfileLine data)

/-- What the lines before have left. -/
def left : CStr × Nat := scanned (insfilePieces l.before) ([], 0)

/-- The names and addresses that the loop uses for the line. -/
def lineUses : List (CStr × Nat) := uses (insfilePieces l.line) l.left

/-- The names and addresses that it uses for the line if there is no other. -/
def aloneUses : List (CStr × Nat) := uses (insfilePieces l.line) ([], 0)

/-- The first piece of the line. -/
def first : CStr := (insfilePieces l.line).headD []

/-- The line has what it needs, or nothing was left behind: if it is blank then so are the lines
before, if it has a name without an address then the last address before is zero. -/
def Independent : Prop :=
  (pieceName l.first = [] → namesIn (insfilePieces l.before) = []) ∧
    (pieceName l.first ≠ [] → pieceAddr l.first = none →
      (addrsIn (insfilePieces l.before)).getLastD 0 = 0)

theorem pieces_eq : insfilePieces data =
    insfilePieces l.before ++ (insfilePieces l.line ++ insfilePieces l.behind) := by
  have hline : insfilePieces (l.line ++ l.behind) =
      insfilePieces l.line ++ insfilePieces l.behind := by
    rcases l.ends with ⟨u, _, hu⟩ | ⟨_, hbehind⟩
    · rw [hu, List.append_assoc]
      exact fgetsPieces_behind u l.behind _ []
    · rw [hbehind, List.append_nil]
      exact (List.append_nil _).symm
  have hbefore : insfilePieces (l.before ++ (l.line ++ l.behind)) =
      insfilePieces l.before ++ insfilePieces (l.line ++ l.behind) := by
    rcases l.begins with hnil | ⟨u, hu⟩
    · rw [hnil]
      rfl
    · rw [hu, List.append_assoc]
      exact fgetsPieces_behind u (l.line ++ l.behind) _ []
  rw [← hline, ← hbefore, ← l.split]

end InsfileLine

theorem uses_append (xs ys : List CStr) (left : CStr × Nat) :
    uses (xs ++ ys) left = uses xs left ++ uses ys (scanned xs left) := by
  induction xs generalizing left with
  | nil => rfl
  | cons input rest ih =>
    by_cases hcomment : input.head? = some '*'
    · rw [List.cons_append, uses_comment hcomment, uses_comment hcomment, ih,
        scanned_comment hcomment]
    · rw [List.cons_append, uses_cons hcomment, uses_cons hcomment, ih, List.append_assoc, scanned,
        if_neg hcomment]

/-- **What the loop uses**, line by line. -/
theorem uses_lines {data : List Char} (l : InsfileLine data) :
    uses (insfilePieces data) ([], 0) = uses (insfilePieces l.before) ([], 0) ++
      (l.lineUses ++ uses (insfilePieces l.behind) (scanned (insfilePieces l.line) l.left)) := by
  rw [l.pieces_eq, uses_append, uses_append]
  rfl

theorem left_fst_iff (pieces : List CStr) :
    (scanned pieces ([], 0)).1 = [] ↔ namesIn pieces = [] := by
  rw [scanned_eq]
  constructor
  · intro h
    by_contra hne
    have hlast : (namesIn pieces).getLastD [] = (namesIn pieces).getLast hne := by
      rw [List.getLastD_eq_getLast?, List.getLast?_eq_some_getLast hne, Option.getD_some]
    have hmem := List.getLast_mem hne
    rw [← hlast] at hmem
    have hname := (List.mem_filter.mp hmem).2
    exact of_decide_eq_true hname h
  · intro h
    rw [h]
    rfl

/-- **A line uses what it would use alone** if and only if it is independent. -/
theorem lineUses_iff {data : List Char} (l : InsfileLine data) (h : l.line.head? ≠ some '*') :
    l.lineUses = l.aloneUses ↔ l.Independent := by
  obtain ⟨c, line, hline⟩ := List.exists_cons_of_ne_nil l.nonempty
  obtain ⟨first, rest, hpieces⟩ := @insfilePieces_head c line
  have hfirst : l.first = c :: first := by rw [InsfileLine.first, hline, hpieces, List.headD_cons]
  have hcomment : (c :: first).head? ≠ some '*' := by
    rw [hline] at h
    exact h
  have hname : l.left.1 = [] ↔ namesIn (insfilePieces l.before) = [] := left_fst_iff _
  have haddr : l.left.2 = (addrsIn (insfilePieces l.before)).getLastD 0 :=
    congrArg Prod.snd (scanned_eq _ _)
  have hzero : l.left.1 = [] → l.left.2 = 0 := by
    intro hnil
    rw [haddr, addrsIn_nil (hname.mp hnil)]
    rfl
  have hiff := uses_iff rest hcomment hzero
  rw [InsfileLine.lineUses, InsfileLine.aloneUses, hline, hpieces, hiff, Settles, haddr, hname,
    InsfileLine.Independent, hfirst]

/-- **The lines of an insfile**: the loop loads what it uses for them, and for a line that is no
comment this is what it would use alone if and only if the line is independent. -/
theorem lineUses_alone_iff {data : List Char} (l : InsfileLine data)
    (h : l.line.head? ≠ some '*') :
    (∀ os uriPath, loadComponents os uriPath (insfilePieces data) 0 [] 0 =
      forM (components (insfilePieces data) 0 ([], 0)) fun c =>
        loadComponent os uriPath c.linecount c.filename c.addr) ∧
    (components (insfilePieces data) 0 ([], 0)).map (fun c => (c.filename, c.addr)) =
      uses (insfilePieces l.before) ([], 0) ++
        (l.lineUses ++ uses (insfilePieces l.behind) (scanned (insfilePieces l.line) l.left)) ∧
    (l.lineUses = l.aloneUses ↔ l.Independent) :=
  ⟨fun os uriPath => loadComponents_eq os uriPath _ 0 ([], 0), uses_lines l, lineUses_iff l h⟩

/-! ## Two insfiles -/

/-- A line without an address behind a line with one. -/
def addressedLine : InsfileLine "a 800000\nb\n".toList where
  before := "a 800000\n".toList
  line := "b\n".toList
  behind := []
  split := rfl
  begins := Or.inr ⟨"a 800000".toList, rfl⟩
  nonempty := by decide
  ends := Or.inl ⟨['b'], by decide, rfl⟩

/-- A blank line behind another one. -/
def blankLine : InsfileLine "a 0\n\n".toList where
  before := "a 0\n".toList
  line := "\n".toList
  behind := []
  split := rfl
  begins := Or.inr ⟨"a 0".toList, rfl⟩
  nonempty := by decide
  ends := Or.inl ⟨[], by decide, rfl⟩

/-- A line with a name and an address. -/
def wholeLine : InsfileLine "a 0\nb 800000\n".toList where
  before := "a 0\n".toList
  line := "b 800000\n".toList
  behind := []
  split := rfl
  begins := Or.inr ⟨"a 0".toList, rfl⟩
  nonempty := by decide
  ends := Or.inl ⟨"b 800000".toList, by decide, rfl⟩

theorem lineUses_alone_iff_wholeLine : wholeLine.lineUses = wholeLine.aloneUses :=
  (lineUses_alone_iff wholeLine (by decide)).2.2.mpr
    ⟨fun h => absurd h (by decide), fun _ h => absurd h (by decide)⟩

/-- **A blank line loads a file again**, and a line without an address has the one before. -/
theorem lines_inherit :
    (blankLine.lineUses = [("a".toList, 0)] ∧ blankLine.aloneUses = []) ∧
      addressedLine.lineUses = [("b".toList, 0x800000)] ∧
        addressedLine.aloneUses = [("b".toList, 0)] := by
  decide +kernel

end Sysload
