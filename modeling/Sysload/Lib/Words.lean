import Mathlib.Data.List.Sort
import Mathlib.Data.List.TakeWhile

/-!
# Words of a text

`words sep n l` are the words of the text `l`, which begins `n` characters behind some origin: the
longest runs of characters that are no separators, each with its offset. `placedWords` are the words
of a text that comes in pieces, where a word ends with its piece.

`search` looks for a key in a text and takes what stands there up to the next separator, then looks
on behind it.

Results:
* `of_mem_words`, `words_ascending`: the words stand in the text, in their order.
* **`search_eq`**: what a search finds is in each word what begins with its first key.
* `ascending_ext`: parts in their order are determined by which parts they are.
-/

namespace Words

variable {α : Type}

/-- A part of a text, with its offset. -/
structure Part (α : Type) where
  offset : Nat
  text : List α
  deriving DecidableEq, Repr

/-- The offsets grow. -/
def Ascending (ps : List (Part α)) : Prop := ps.Pairwise fun p q => p.offset < q.offset

/-- Parts in their order are determined by which parts they are. -/
theorem ascending_ext {ps qs : List (Part α)} (hp : Ascending ps) (hq : Ascending qs)
    (h : ∀ p, p ∈ ps ↔ p ∈ qs) : ps = qs := by
  have hirrefl : Std.Irrefl fun p q : Part α => p.offset < q.offset := ⟨fun p => Nat.lt_irrefl _⟩
  have hantisymm : Std.Antisymm fun p q : Part α => p.offset < q.offset :=
    ⟨fun p q hpq hqp => absurd hqp (Nat.lt_asymm hpq)⟩
  exact List.Pairwise.eq_of_mem_iff hp hq h

/-! ## Words -/

variable (sep : α → Bool)

/-- The words of a text that begins at the offset `n`. -/
def words (n : Nat) : List α → List (Part α)
  | [] => []
  | c :: l =>
    if sep c then words (n + 1) l
    else
      ⟨n, c :: l.takeWhile fun d => !sep d⟩ ::
        words (n + (l.takeWhile fun d => !sep d).length + 1) (l.dropWhile fun d => !sep d)
termination_by l => l.length
decreasing_by
  · simp
  · have hle := (List.dropWhile_suffix (l := l) fun d => !sep d).length_le
    simp only [List.length_cons]
    omega

variable {sep}

@[simp] theorem words_nil (n : Nat) : words sep n [] = [] := by
  rw [words]

theorem words_sep {c : α} (hc : sep c = true) (n : Nat) (l : List α) :
    words sep n (c :: l) = words sep (n + 1) l := by
  rw [words, if_pos hc]

section Ends

variable {w v : List α} (hw : ∀ c ∈ w, sep c = false) (hv : ∀ c ∈ v.head?, sep c = true)
include hw hv

/-- A word ends in front of a separator. -/
theorem takeWhile_word : ((w ++ v).takeWhile fun d => !sep d) = w := by
  rw [List.takeWhile_append_of_pos fun d hd => by rw [hw d hd]; rfl]
  cases v with
  | nil => exact List.append_nil w
  | cons d v => rw [List.takeWhile_cons_of_neg (by simp [hv d rfl]), List.append_nil]

theorem dropWhile_word : ((w ++ v).dropWhile fun d => !sep d) = v := by
  rw [List.dropWhile_append_of_pos fun d hd => by rw [hw d hd]; rfl]
  cases v with
  | nil => rfl
  | cons d v => rw [List.dropWhile_cons_of_neg (by simp [hv d rfl])]

/-- The first word. -/
theorem words_append (hne : w ≠ []) (n : Nat) :
    words sep n (w ++ v) = ⟨n, w⟩ :: words sep (n + w.length) v := by
  obtain ⟨c, w, rfl⟩ := List.exists_cons_of_ne_nil hne
  obtain ⟨hc, hw⟩ := List.forall_mem_cons.mp hw
  rw [List.cons_append, words, if_neg (by simp [hc]), takeWhile_word hw hv, dropWhile_word hw hv,
    List.length_cons, Nat.add_assoc]

end Ends

variable (sep) in
/-- **Induction along the words**: over the separators, and from one word to the next. -/
theorem words_induction {motive : List α → Prop} (nil : motive [])
    (sep_cons : ∀ c l, sep c = true → motive l → motive (c :: l))
    (word : ∀ w v, w ≠ [] → (∀ c ∈ w, sep c = false) → (∀ c ∈ v.head?, sep c = true) →
      motive v → motive (w ++ v)) (l : List α) : motive l := by
  induction h : l.length using Nat.strongRecOn generalizing l with
  | ind m ih =>
    cases l with
    | nil => exact nil
    | cons c l =>
      by_cases hc : sep c = true
      · exact sep_cons c l hc (ih l.length (by simp [← h]) l rfl)
      · have hsplit : c :: l = (c :: l.takeWhile fun d => !sep d) ++ l.dropWhile fun d => !sep d := by
          rw [List.cons_append, List.takeWhile_append_dropWhile]
        have hle := (List.dropWhile_suffix (l := l) fun d => !sep d).length_le
        rw [hsplit]
        refine word _ _ (List.cons_ne_nil _ _) (List.forall_mem_cons.mpr ⟨by simpa using hc, ?_⟩) ?_
          (ih _ (by simp only [← h, List.length_cons]; omega) _ rfl)
        · intro d hd
          simpa using List.mem_takeWhile_imp hd
        · intro d hd
          have hhead := List.head?_dropWhile_not (fun d => !sep d) l
          rw [Option.mem_def.mp hd] at hhead
          simpa using hhead

/-- A word between what stands in front of it and what stands behind it. -/
structure Between (sep : α → Bool) (u w v : List α) : Prop where
  ne_nil : w ≠ []
  word : ∀ c ∈ w, sep c = false
  left : ∀ c ∈ u.getLast?, sep c = true
  right : ∀ c ∈ v.head?, sep c = true

/-- **Where a word stands.** -/
theorem of_mem_words {l : List α} {n : Nat} {p : Part α} (h : p ∈ words sep n l) :
    ∃ u v, l = u ++ p.text ++ v ∧ p.offset = n + u.length ∧ Between sep u p.text v := by
  induction l using words_induction sep generalizing n with
  | nil =>
    rw [words_nil] at h
    exact absurd h List.not_mem_nil
  | sep_cons c l hc ih =>
    rw [words_sep hc] at h
    obtain ⟨u, v, rfl, hoffset, hbetween⟩ := ih h
    refine ⟨c :: u, v, rfl, by rw [hoffset, List.length_cons]; omega, hbetween.ne_nil,
      hbetween.word, fun d hd => ?_, hbetween.right⟩
    cases u with
    | nil =>
      obtain rfl : c = d := Option.some.inj hd
      exact hc
    | cons e u => exact hbetween.left d (by rwa [List.getLast?_cons_cons] at hd)
  | word w v hne hw hv ih =>
    rw [words_append hw hv hne] at h
    rcases List.mem_cons.mp h with rfl | h
    · exact ⟨[], v, rfl, rfl, ⟨hne, hw, fun d hd => absurd hd (by simp), hv⟩⟩
    · obtain ⟨u, v', rfl, hoffset, hbetween⟩ := ih h
      refine ⟨w ++ u, v', by simp, by rw [hoffset, List.length_append]; omega, hbetween.ne_nil,
        hbetween.word, fun d hd => ?_, hbetween.right⟩
      cases u with
      | nil =>
        obtain ⟨e, t, ht⟩ := List.exists_cons_of_ne_nil hbetween.ne_nil
        have he : sep e = true := hv e (by simp [ht])
        have he' : sep e = false := hbetween.word e (by simp [ht])
        rw [he] at he'
        cases he'
      | cons e u =>
        refine hbetween.left d ?_
        rwa [List.getLast?_append_of_ne_nil _ (List.cons_ne_nil e u)] at hd

theorem words_ascending (l : List α) (n : Nat) : Ascending (words sep n l) := by
  induction l using words_induction sep generalizing n with
  | nil =>
    rw [words_nil]
    exact List.Pairwise.nil
  | sep_cons c l hc ih =>
    rw [words_sep hc]
    exact ih (n + 1)
  | word w v hne hw hv ih =>
    rw [words_append hw hv hne]
    refine List.Pairwise.cons (fun q hq => ?_) (ih _)
    obtain ⟨u, v', _, hoffset, _⟩ := of_mem_words hq
    have hpos := List.length_pos_of_ne_nil hne
    show n < q.offset
    omega

/-! ## Words of pieces -/

/-- The words of each piece of a text. -/
def placedWords (sep : α → Bool) : Nat → List (List α) → List (List (Part α))
  | _, [] => []
  | n, piece :: pieces => words sep n piece :: placedWords sep (n + piece.length) pieces

/-- A part without separators. -/
structure Within (sep : α → Bool) (n : Nat) (l : List α) (p : Part α) : Prop where
  ne_nil : p.text ≠ []
  word : ∀ c ∈ p.text, sep c = false
  place : ∃ u v, l = u ++ p.text ++ v ∧ p.offset = n + u.length

theorem Within.bounds {n : Nat} {l : List α} {p : Part α} (h : Within sep n l p) :
    n ≤ p.offset ∧ p.offset < n + l.length := by
  obtain ⟨u, v, rfl, hoffset⟩ := h.place
  have hpos := List.length_pos_of_ne_nil h.ne_nil
  simp only [List.length_append]
  omega

theorem within_of_mem_words {l : List α} {n : Nat} {p : Part α} (h : p ∈ words sep n l) :
    Within sep n l p := by
  obtain ⟨u, v, hl, hoffset, hbetween⟩ := of_mem_words h
  exact ⟨hbetween.ne_nil, hbetween.word, u, v, hl, hoffset⟩

/-- **The words of the pieces stand in the text.** -/
theorem within_of_mem_placedWords {pieces : List (List α)} {n : Nat} {ws : List (Part α)}
    {p : Part α} (hws : ws ∈ placedWords sep n pieces) (hp : p ∈ ws) :
    Within sep n pieces.flatten p := by
  induction pieces generalizing n with
  | nil => exact absurd hws List.not_mem_nil
  | cons piece pieces ih =>
    rcases List.mem_cons.mp hws with rfl | hws
    · obtain ⟨hne, hword, u, v, hpiece, hoffset⟩ := within_of_mem_words hp
      refine ⟨hne, hword, u, v ++ pieces.flatten, ?_, hoffset⟩
      rw [List.flatten_cons, hpiece, List.append_assoc]
    · obtain ⟨hne, hword, u, v, htext, hoffset⟩ := ih hws
      refine ⟨hne, hword, piece ++ u, v, ?_, ?_⟩
      · rw [List.flatten_cons, htext]
        simp
      · rw [hoffset, List.length_append, Nat.add_assoc]

theorem placedWords_ascending (pieces : List (List α)) (n : Nat) :
    Ascending (placedWords sep n pieces).flatten := by
  induction pieces generalizing n with
  | nil => exact List.Pairwise.nil
  | cons piece pieces ih =>
    refine List.pairwise_append.mpr ⟨words_ascending piece n, ih _, fun p hp q hq => ?_⟩
    obtain ⟨ws, hws, hq⟩ := List.mem_flatten.mp hq
    have hbefore := (within_of_mem_words hp).bounds.2
    have hbehind := (within_of_mem_placedWords hws hq).bounds.1
    exact Nat.lt_of_lt_of_le hbefore hbehind

/-- **No word stands behind a part of a word** but at its beginning. -/
theorem suffix_of_within {l : List α} {n i : Nat} {p : Part α} (h : Within sep n l p)
    (hi : i < p.text.length) (hmem : ⟨p.offset + i, p.text.drop i⟩ ∈ words sep n l) : i = 0 := by
  obtain ⟨u, v, hl, hoffset⟩ := h.place
  obtain ⟨u', v', hl', hoffset', hbetween⟩ := of_mem_words hmem
  have hlen : u'.length = (u ++ p.text.take i).length := by
    simp only [List.length_append, List.length_take] at hoffset' ⊢
    omega
  have hu' : u' = u ++ p.text.take i := by
    have hsplit : u ++ p.text.take i ++ (p.text.drop i ++ v) = u' ++ (p.text.drop i ++ v') := by
      rw [← List.append_assoc u', ← hl', hl, List.append_assoc, List.append_assoc,
        ← List.append_assoc (p.text.take i), List.take_append_drop]
    exact (List.append_inj hsplit hlen.symm).1.symm
  by_contra hpos
  have hbound : i - 1 < p.text.length := by omega
  have hlast : (p.text.take i).getLast? = some p.text[i - 1] := by
    rw [List.getLast?_take, if_neg hpos, List.getElem?_eq_getElem hbound]
    rfl
  have hsep := hbetween.left p.text[i - 1] (by
    rw [hu', List.getLast?_append, hlast]
    rfl)
  rw [h.word _ (List.getElem_mem _)] at hsep
  cases hsep

/-! ## Keys -/

/-- A string without separators ends in front of the next one. -/
theorem prefix_append_iff {needle v : List α} (hneedle : ∀ c ∈ needle, sep c = false)
    (hv : ∀ c ∈ v.head?, sep c = true) (w : List α) : needle <+: w ++ v ↔ needle <+: w := by
  induction w generalizing needle with
  | nil =>
    constructor
    · intro h
      cases needle with
      | nil => exact List.prefix_refl _
      | cons c needle =>
        obtain ⟨t, rfl⟩ : ∃ t, v = c :: t := by
          obtain ⟨t, ht⟩ := h
          exact ⟨needle ++ t, ht.symm⟩
        have hc := hneedle c List.mem_cons_self
        rw [hv c rfl] at hc
        cases hc
    · intro h
      rw [List.prefix_nil.mp h]
      exact List.nil_prefix
  | cons d w ih =>
    cases needle with
    | nil => exact iff_of_true List.nil_prefix List.nil_prefix
    | cons c needle =>
      rw [List.cons_append, List.cons_prefix_cons, List.cons_prefix_cons,
        ih (List.forall_mem_cons.mp hneedle).2]

section Search

variable [DecidableEq α]

/-- The first place of a string. -/
def infixIdx (needle : List α) : List α → Option Nat
  | [] => if needle = [] then some 0 else none
  | c :: l => if needle <+: c :: l then some 0 else (infixIdx needle l).map (· + 1)

theorem infixIdx_eq_some {needle : List α} :
    ∀ {l : List α} {i : Nat}, infixIdx needle l = some i → i ≤ l.length ∧ needle <+: l.drop i
  | [], i, h => by
    obtain ⟨hneedle, hi⟩ := Option.ite_none_right_eq_some.mp h
    obtain rfl := Option.some.inj hi
    exact ⟨Nat.le_refl _, hneedle ▸ List.prefix_refl _⟩
  | c :: l, i, h => by
    rw [infixIdx] at h
    split at h
    · rename_i hbegin
      obtain rfl := Option.some.inj h
      exact ⟨Nat.zero_le _, hbegin⟩
    · obtain ⟨j, hj, rfl⟩ := Option.map_eq_some_iff.mp h
      obtain ⟨hle, hbegin⟩ := infixIdx_eq_some hj
      exact ⟨Nat.succ_le_succ hle, hbegin⟩

theorem infixIdx_isSome {needle : List α} :
    ∀ {l : List α}, (infixIdx needle l).isSome ↔ needle <:+: l
  | [] => by
    rw [List.infix_nil, infixIdx]
    split <;> simp [*]
  | c :: l => by
    rw [List.infix_cons_iff, ← infixIdx_isSome, infixIdx]
    split <;> simp [*]

/-- A string at the beginning is at the first place. -/
theorem infixIdx_of_prefix {needle l : List α} (h : needle <+: l) : infixIdx needle l = some 0 := by
  cases l with
  | nil => exact if_pos (List.prefix_nil.mp h)
  | cons c l => exact if_pos h

/-- What is looked for: a string that is not empty and has no separators. -/
structure Key (sep : α → Bool) where
  text : List α
  ne_nil : text ≠ []
  word : ∀ c ∈ text, sep c = false

variable (key : Key sep)

theorem Key.infixIdx_nil : infixIdx key.text [] = none := if_neg key.ne_nil

theorem Key.infixIdx_sep {c : α} (hc : sep c = true) (l : List α) :
    infixIdx key.text (c :: l) = (infixIdx key.text l).map (· + 1) := by
  rw [infixIdx, if_neg]
  intro h
  have hnil := (prefix_append_iff (w := []) key.word fun d hd => by
    obtain rfl : c = d := Option.some.inj hd
    exact hc).mp h
  exact key.ne_nil (List.prefix_nil.mp hnil)

/-- A key is in a word or behind it. -/
theorem Key.infixIdx_append {v : List α} (hv : ∀ c ∈ v.head?, sep c = true) (w : List α) :
    infixIdx key.text (w ++ v) =
      (infixIdx key.text w).or ((infixIdx key.text v).map (· + w.length)) := by
  induction w with
  | nil =>
    rw [key.infixIdx_nil]
    simp
  | cons c w ih =>
    have hbegin := prefix_append_iff key.word hv (c :: w)
    rw [List.cons_append] at hbegin ⊢
    rw [infixIdx, infixIdx, ih]
    by_cases h : key.text <+: c :: w
    · rw [if_pos h, if_pos (hbegin.mpr h)]
      rfl
    · rw [if_neg h, if_neg (mt hbegin.mp h)]
      cases infixIdx key.text w with
      | some i => rfl
      | none =>
        simp only [Option.none_or, Option.map_none, Option.map_map, List.length_cons]
        rfl

/-- What stands at the place of a key is not empty. -/
theorem Key.taken_pos {l : List α} {i : Nat} (h : infixIdx key.text l = some i) :
    i < l.length ∧ 0 < ((l.drop i).takeWhile fun d => !sep d).length := by
  obtain ⟨hle, t, ht⟩ := infixIdx_eq_some h
  obtain ⟨c, text, hc⟩ := List.exists_cons_of_ne_nil key.ne_nil
  have hword : (!sep c) = true := by simp [key.word c (by simp [hc])]
  rw [hc] at ht
  have hlen := congrArg List.length ht
  simp only [List.length_append, List.length_cons, List.length_drop] at hlen
  refine ⟨by omega, ?_⟩
  rw [← ht, List.cons_append,
    List.takeWhile_cons_of_pos (p := fun d => !sep d) hword, List.length_cons]
  exact Nat.succ_pos _

/-- Look for a key, take what stands there up to the next separator, and look on behind it. -/
def search (n : Nat) (l : List α) : List (Part α) :=
  match _h : infixIdx key.text l with
  | none => []
  | some i =>
    ⟨n + i, (l.drop i).takeWhile fun d => !sep d⟩ ::
      search (n + (i + ((l.drop i).takeWhile fun d => !sep d).length))
        (l.drop (i + ((l.drop i).takeWhile fun d => !sep d).length))
termination_by l.length
decreasing_by
  obtain ⟨hlt, hpos⟩ := key.taken_pos _h
  rw [List.length_drop]
  omega

theorem search_none {l : List α} (h : infixIdx key.text l = none) (n : Nat) :
    search key n l = [] := by
  rw [search]
  split
  · rfl
  · rename_i i hi
    rw [h] at hi
    cases hi

theorem search_some {l : List α} {i : Nat} (h : infixIdx key.text l = some i) (n : Nat) :
    search key n l = ⟨n + i, (l.drop i).takeWhile fun d => !sep d⟩ ::
      search key (n + (i + ((l.drop i).takeWhile fun d => !sep d).length))
        (l.drop (i + ((l.drop i).takeWhile fun d => !sep d).length)) := by
  rw [search]
  split
  · rename_i hi
    rw [h] at hi
    cases hi
  · rename_i j hj
    obtain rfl := Option.some.inj (h.symm.trans hj)
    rfl

/-- Where nothing is found can be left out. -/
theorem search_skip {u l : List α}
    (h : infixIdx key.text (u ++ l) = (infixIdx key.text l).map (· + u.length)) (n : Nat) :
    search key n (u ++ l) = search key (n + u.length) l := by
  cases hl : infixIdx key.text l with
  | none =>
    rw [hl] at h
    rw [search_none key h, search_none key hl]
  | some i =>
    rw [hl] at h
    have hdrop : ∀ k, (u ++ l).drop (i + u.length + k) = l.drop (i + k) := by
      intro k
      rw [show i + u.length + k = u.length + (i + k) by omega, ← List.drop_drop, List.drop_left]
    have hplace := hdrop 0
    rw [Nat.add_zero, Nat.add_zero] at hplace
    rw [search_some key h, search_some key hl]
    dsimp only
    rw [hplace, hdrop, Nat.add_comm i u.length, Nat.add_assoc u.length, ← Nat.add_assoc n,
      ← Nat.add_assoc n]

/-- What is found in a word. -/
def Key.found (p : Part α) : Option (Part α) :=
  (infixIdx key.text p.text).map fun i => ⟨p.offset + i, p.text.drop i⟩

/-- **What a search finds**: in each word what begins with its first key. -/
theorem search_eq (l : List α) (n : Nat) :
    search key n l = (words sep n l).filterMap key.found := by
  induction l using words_induction sep generalizing n with
  | nil => rw [search_none key key.infixIdx_nil, words_nil, List.filterMap_nil]
  | sep_cons c l hc ih =>
    rw [words_sep hc, ← ih]
    exact search_skip key (u := [c]) (key.infixIdx_sep hc l) n
  | word w v hne hw hv ih =>
    have happend := key.infixIdx_append hv w
    rw [words_append hw hv hne, ← List.singleton_append, List.filterMap_append, ← ih]
    cases hfound : infixIdx key.text w with
    | none =>
      rw [hfound] at happend
      have hnone : key.found ⟨n, w⟩ = none := by rw [Key.found, hfound, Option.map_none]
      rw [search_skip key happend, List.filterMap_cons_none hnone]
      rfl
    | some i =>
      rw [hfound] at happend
      have hsome : key.found ⟨n, w⟩ = some ⟨n + i, w.drop i⟩ := by
        rw [Key.found, hfound, Option.map_some]
      have hi := (infixIdx_eq_some hfound).1
      have htake : ((w ++ v).drop i).takeWhile (fun d => !sep d) = w.drop i := by
        rw [List.drop_append_of_le_length hi]
        exact takeWhile_word (fun c hc => hw c (List.mem_of_mem_drop hc)) hv
      have hrest : (w ++ v).drop (i + (w.drop i).length) = v := by
        rw [List.length_drop, Nat.add_sub_cancel' hi, List.drop_left]
      rw [search_some key happend, htake, hrest, List.filterMap_cons_some hsome, List.length_drop,
        Nat.add_sub_cancel' hi]
      rfl

/-! ## Two keys -/

/-- The key is found in a word. -/
theorem Key.found_eq_some {p q : Part α} (h : key.found p = some q) :
    ∃ i, i < p.text.length ∧ key.text <+: p.text.drop i ∧ q = ⟨p.offset + i, p.text.drop i⟩ := by
  obtain ⟨i, hi, rfl⟩ := Option.map_eq_some_iff.mp h
  exact ⟨i, (key.taken_pos hi).1, (infixIdx_eq_some hi).2, rfl⟩

theorem Key.found_of_prefix {p : Part α} (h : key.text <+: p.text) : key.found p = some p := by
  rw [Key.found, infixIdx_of_prefix h, Option.map_some, Nat.add_zero, List.drop_zero]

theorem Key.found_isSome {p : Part α} : (key.found p).isSome ↔ key.text <:+: p.text := by
  rw [Key.found, Option.isSome_map, infixIdx_isSome]

/-- The parts that begin with the key. -/
def Key.begins (p : Part α) : Bool := decide (key.text <+: p.text)

theorem Key.begins_iff {p : Part α} : key.begins p = true ↔ key.text <+: p.text := decide_eq_true_iff

/-- Look for two keys in every piece of a text, for the first one first. -/
def searchTwo (key₁ key₂ : Key sep) : Nat → List (List α) → List (Part α)
  | _, [] => []
  | n, piece :: pieces =>
    search key₁ n piece ++ search key₂ n piece ++ searchTwo key₁ key₂ (n + piece.length) pieces

variable (key₁ key₂ : Key sep)

theorem searchTwo_eq (pieces : List (List α)) (n : Nat) :
    searchTwo key₁ key₂ n pieces = (placedWords sep n pieces).flatMap fun ws =>
      ws.filterMap key₁.found ++ ws.filterMap key₂.found := by
  induction pieces generalizing n with
  | nil => rfl
  | cons piece pieces ih => rw [searchTwo, search_eq, search_eq, ih, placedWords, List.flatMap_cons]

/-- The words of the text that begin with the first key, then those that begin with the second. -/
def sorted (ps : List (Part α)) : List (Part α) := ps.filter key₁.begins ++ ps.filter key₂.begins

/-- **The pieces do no harm**: a key stands at the beginning of a word of the text only, no word that
begins with a key is cut, and no piece with the first key comes behind one with the second. -/
structure Harmless (pieces : List (List α)) : Prop where
  whole : ∀ ws ∈ placedWords sep 0 pieces, ∀ p ∈ ws, ∀ key ∈ [key₁, key₂], key.text <:+: p.text →
    key.text <+: p.text ∧ p ∈ words sep 0 pieces.flatten
  uncut : ∀ p ∈ words sep 0 pieces.flatten, ∀ key ∈ [key₁, key₂], key.text <+: p.text →
    ∃ ws ∈ placedWords sep 0 pieces, p ∈ ws
  order : (placedWords sep 0 pieces).Pairwise fun ws ws' =>
    ∀ p ∈ ws, ∀ q ∈ ws', key₂.text <+: p.text → ¬ key₁.text <+: q.text

/-- Neither key begins with the other. -/
def Distinct : Prop := ¬ key₁.text <+: key₂.text ∧ ¬ key₂.text <+: key₁.text

variable {key₁ key₂}

omit [DecidableEq α] in
theorem Distinct.not_both (h : Distinct key₁ key₂) {p : Part α} (h₁ : key₁.text <+: p.text) :
    ¬ key₂.text <+: p.text := by
  intro h₂
  rcases Nat.le_total key₁.text.length key₂.text.length with hle | hle
  · exact h.1 (List.prefix_of_prefix_length_le h₁ h₂ hle)
  · exact h.2 (List.prefix_of_prefix_length_le h₂ h₁ hle)

theorem mem_sorted {ps : List (Part α)} {p : Part α} :
    p ∈ sorted key₁ key₂ ps ↔ p ∈ ps ∧ ∃ key ∈ [key₁, key₂], key.text <+: p.text := by
  simp only [sorted, List.mem_append, List.mem_filter, Key.begins_iff, List.mem_cons,
    List.not_mem_nil, or_false, exists_eq_or_imp, exists_eq_left, and_or_left]

theorem mem_searchTwo {pieces : List (List α)} {q : Part α} :
    q ∈ searchTwo key₁ key₂ 0 pieces ↔
      ∃ ws ∈ placedWords sep 0 pieces, ∃ p ∈ ws, ∃ key ∈ [key₁, key₂], key.found p = some q := by
  rw [searchTwo_eq, List.mem_flatMap]
  refine exists_congr fun ws => and_congr_right fun _ => ?_
  simp only [List.mem_append, List.mem_filterMap, List.mem_cons, List.not_mem_nil, or_false,
    exists_eq_or_imp, exists_eq_left, and_or_left, exists_or]

/-- **What is found is a word of the text** only if it is found at the beginning of a word. -/
theorem found_eq_self {pieces : List (List α)} {ws : List (Part α)} {p q : Part α} {key : Key sep}
    (hws : ws ∈ placedWords sep 0 pieces) (hp : p ∈ ws) (hq : key.found p = some q)
    (hmem : q ∈ words sep 0 pieces.flatten) : q = p ∧ key.text <+: p.text := by
  obtain ⟨i, hi, hbegin, rfl⟩ := key.found_eq_some hq
  obtain rfl := suffix_of_within (within_of_mem_placedWords hws hp) hi hmem
  exact ⟨by rw [Nat.add_zero, List.drop_zero], hbegin⟩

/-- Parts that are sorted. -/
theorem sorted_pairwise (h : Distinct key₁ key₂) (ps : List (Part α)) :
    (sorted key₁ key₂ ps).Pairwise fun p q => key₂.text <+: p.text → ¬ key₁.text <+: q.text := by
  refine List.pairwise_append.mpr ⟨?_, ?_, fun p hp q _ h₂ => ?_⟩
  · refine List.pairwise_of_forall_mem_list fun p hp _ _ h₂ => ?_
    exact absurd h₂ (h.not_both (key₁.begins_iff.mp (List.mem_filter.mp hp).2))
  · refine List.pairwise_of_forall_mem_list fun _ _ q hq _ h₁ => ?_
    exact h.not_both h₁ (key₂.begins_iff.mp (List.mem_filter.mp hq).2)
  · exact absurd h₂ (h.not_both (key₁.begins_iff.mp (List.mem_filter.mp hp).2))

theorem harmless_of_searchTwo (h : Distinct key₁ key₂) {pieces : List (List α)}
    (heq : searchTwo key₁ key₂ 0 pieces = sorted key₁ key₂ (words sep 0 pieces.flatten)) :
    Harmless key₁ key₂ pieces where
  whole ws hws p hp key hkey hinfix := by
    obtain ⟨q, hq⟩ := Option.isSome_iff_exists.mp (key.found_isSome.mpr hinfix)
    have hmem : q ∈ searchTwo key₁ key₂ 0 pieces := mem_searchTwo.mpr ⟨ws, hws, p, hp, key, hkey, hq⟩
    rw [heq] at hmem
    have hword := (mem_sorted.mp hmem).1
    obtain ⟨rfl, hbegin⟩ := found_eq_self hws hp hq hword
    exact ⟨hbegin, hword⟩
  uncut q hq key hkey hbegin := by
    have hmem : q ∈ sorted key₁ key₂ (words sep 0 pieces.flatten) :=
      mem_sorted.mpr ⟨hq, key, hkey, hbegin⟩
    rw [← heq] at hmem
    obtain ⟨ws, hws, p, hp, key', _, hfound⟩ := mem_searchTwo.mp hmem
    obtain ⟨rfl, _⟩ := found_eq_self hws hp hfound hq
    exact ⟨ws, hws, hp⟩
  order := by
    have hpairwise := sorted_pairwise h (words sep 0 pieces.flatten)
    rw [← heq, searchTwo_eq, List.pairwise_flatMap] at hpairwise
    refine hpairwise.2.imp fun hall p hp q hq h₂ h₁ => hall p ?_ q ?_ h₂ h₁
    · exact List.mem_append_right _ (List.mem_filterMap.mpr ⟨p, hp, key₂.found_of_prefix h₂⟩)
    · exact List.mem_append_left _ (List.mem_filterMap.mpr ⟨q, hq, key₁.found_of_prefix h₁⟩)

/-- Sorting piece by piece. -/
theorem flatMap_sorted {pss : List (List (Part α))} (h : pss.Pairwise fun ws ws' =>
    ∀ p ∈ ws, ∀ q ∈ ws', key₂.text <+: p.text → ¬ key₁.text <+: q.text) :
    pss.flatMap (sorted key₁ key₂) = sorted key₁ key₂ pss.flatten := by
  induction pss with
  | nil => rfl
  | cons ws pss ih =>
    obtain ⟨hhead, htail⟩ := List.pairwise_cons.mp h
    have hcommute : ws.filter key₂.begins ++ pss.flatten.filter key₁.begins =
        pss.flatten.filter key₁.begins ++ ws.filter key₂.begins := by
      by_cases hnone : ws.filter key₂.begins = []
      · rw [hnone, List.nil_append, List.append_nil]
      · obtain ⟨p, hp⟩ := List.exists_mem_of_ne_nil _ hnone
        obtain ⟨hp, hbegins⟩ := List.mem_filter.mp hp
        have hnil : pss.flatten.filter key₁.begins = [] := by
          refine List.filter_eq_nil_iff.mpr fun q hq hq₁ => ?_
          obtain ⟨ws', hws', hq⟩ := List.mem_flatten.mp hq
          exact hhead ws' hws' p hp q hq (key₂.begins_iff.mp hbegins) (key₁.begins_iff.mp hq₁)
        rw [hnil, List.nil_append, List.append_nil]
    rw [List.flatMap_cons, ih htail, List.flatten_cons]
    simp only [sorted, List.filter_append, List.append_assoc]
    rw [← List.append_assoc (ws.filter key₂.begins), hcommute, List.append_assoc]

theorem searchTwo_of_harmless {pieces : List (List α)} (h : Harmless key₁ key₂ pieces) :
    searchTwo key₁ key₂ 0 pieces = sorted key₁ key₂ (words sep 0 pieces.flatten) := by
  have hfound : ∀ ws ∈ placedWords sep 0 pieces, ∀ key ∈ [key₁, key₂],
      ws.filterMap key.found = ws.filter key.begins := by
    intro ws hws key hkey
    rw [← List.filterMap_eq_filter]
    refine List.filterMap_congr fun p hp => ?_
    by_cases hinfix : key.text <:+: p.text
    · have hbegin := (h.whole ws hws p hp key hkey hinfix).1
      rw [key.found_of_prefix hbegin, Option.guard, if_pos (key.begins_iff.mpr hbegin)]
    · have hnone := mt key.found_isSome.mp hinfix
      rw [Option.not_isSome_iff_eq_none.mp hnone, Option.guard, if_neg]
      exact fun hbegins => hinfix (key.begins_iff.mp hbegins).isInfix
  have hwords : ∀ key ∈ [key₁, key₂], (placedWords sep 0 pieces).flatten.filter key.begins =
      (words sep 0 pieces.flatten).filter key.begins := by
    intro key hkey
    refine ascending_ext ((placedWords_ascending pieces 0).filter _)
      ((words_ascending pieces.flatten 0).filter _) fun p => ?_
    rw [List.mem_filter, List.mem_filter, List.mem_flatten]
    constructor
    · rintro ⟨⟨ws, hws, hp⟩, hbegins⟩
      exact ⟨(h.whole ws hws p hp key hkey (key.begins_iff.mp hbegins).isInfix).2, hbegins⟩
    · rintro ⟨hp, hbegins⟩
      exact ⟨h.uncut p hp key hkey (key.begins_iff.mp hbegins), hbegins⟩
  have hsorted := flatMap_sorted h.order
  rw [searchTwo_eq, List.flatMap_congr (g := sorted key₁ key₂), hsorted]
  · rw [sorted, sorted, hwords key₁ (by simp), hwords key₂ (by simp)]
  · intro ws hws
    rw [hfound ws hws key₁ (by simp), hfound ws hws key₂ (by simp), sorted]

/-- **Two keys in a text that comes in pieces**: the words of the text that begin with the first key,
then those with the second, each whole and once, if and only if the pieces do no harm. -/
theorem searchTwo_iff (h : Distinct key₁ key₂) (pieces : List (List α)) :
    searchTwo key₁ key₂ 0 pieces = sorted key₁ key₂ (words sep 0 pieces.flatten) ↔
      Harmless key₁ key₂ pieces :=
  ⟨harmless_of_searchTwo h, searchTwo_of_harmless⟩

end Search

end Words
