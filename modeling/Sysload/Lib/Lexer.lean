import Mathlib.Computability.Language
import Mathlib.Tactic.Common

/-!
# Longest match

A lexer has a list of rules, each a regular expression over classes of characters with an action.
It takes the longest beginning of the text that some rule matches, and of the rules that match it
the first one. `pick` does this by derivatives: it reads the text once and keeps, for each rule
that can still match, what is left of its expression.

Results:
* `mem_lang_deriv`: the derivative is the quotient of the language.
* `scan_sound`: what is picked is matched by a rule, or was picked before.
* `scan_complete`: nothing longer is matched.
* `scan_unique`: where only one rule matches so much, that rule is picked.
* `scan_append`: reading the first part of a text, then the second.
* `pick_of_short`: what comes behind does not matter if no rule matches anything of it.
-/

namespace Lexer

/-- A class of characters: some ranges, or all characters outside of them. -/
structure CharClass where
  neg : Bool
  ranges : List (Char × Char)
  deriving DecidableEq, Repr

/-- The character is in the class. -/
def CharClass.mem (k : CharClass) (c : Char) : Bool :=
  k.neg != k.ranges.any fun r => decide (r.1 ≤ c) && decide (c ≤ r.2)

/-- A regular expression. -/
inductive Pattern where
  | empty
  | eps
  | cls (k : CharClass)
  | seq (p q : Pattern)
  | alt (p q : Pattern)
  | star (p : Pattern)
  deriving DecidableEq, Repr

namespace Pattern

/-- The words that an expression matches. -/
def lang : Pattern → Language Char
  | empty => 0
  | eps => 1
  | cls k => { w | ∃ c, k.mem c = true ∧ w = [c] }
  | seq p q => p.lang * q.lang
  | alt p q => p.lang + q.lang
  | star p => KStar.kstar p.lang

/-- The expression matches the empty word. -/
def nullable : Pattern → Bool
  | empty => false
  | eps => true
  | cls _ => false
  | seq p q => p.nullable && q.nullable
  | alt p q => p.nullable || q.nullable
  | star _ => true

/-- `seq`, without parts that match nothing. -/
def mkSeq : Pattern → Pattern → Pattern
  | empty, _ => empty
  | eps, q => q
  | p, q => seq p q

/-- `alt`, without parts that match nothing. -/
def mkAlt : Pattern → Pattern → Pattern
  | empty, q => q
  | p, empty => p
  | p, q => alt p q

/-- What is left of an expression behind a character. -/
def deriv (c : Char) : Pattern → Pattern
  | empty => empty
  | eps => empty
  | cls k => if k.mem c then eps else empty
  | seq p q =>
    if p.nullable then mkAlt (mkSeq (p.deriv c) q) (q.deriv c) else mkSeq (p.deriv c) q
  | alt p q => mkAlt (p.deriv c) (q.deriv c)
  | star p => mkSeq (p.deriv c) (star p)

theorem lang_mkSeq (p q : Pattern) : (mkSeq p q).lang = p.lang * q.lang := by
  cases p with
  | empty => exact (zero_mul q.lang).symm
  | eps => exact (one_mul q.lang).symm
  | _ => rfl

theorem lang_mkAlt (p q : Pattern) : (mkAlt p q).lang = p.lang + q.lang := by
  cases p with
  | empty => exact (zero_add q.lang).symm
  | _ =>
    cases q with
    | empty => exact (add_zero _).symm
    | _ => rfl

theorem nullable_iff (p : Pattern) : p.nullable = true ↔ [] ∈ p.lang := by
  induction p with
  | empty => simp [nullable, lang]
  | eps => simp [nullable, lang]
  | cls k =>
    refine iff_of_false (by simp [nullable]) ?_
    rintro ⟨c, _, h⟩
    cases h
  | seq p q ihp ihq => simp [nullable, lang, Language.mem_mul, ihp, ihq]
  | alt p q ihp ihq => simp [nullable, lang, Language.mem_add, ihp, ihq]
  | star p _ => simp [nullable, lang, Language.nil_mem_kstar]

theorem cons_mem_mul {l m : Language Char} {c : Char} {w : List Char} :
    c :: w ∈ l * m ↔
      (∃ a b, c :: a ∈ l ∧ b ∈ m ∧ a ++ b = w) ∨ ([] ∈ l ∧ c :: w ∈ m) := by
  rw [Language.mem_mul]
  constructor
  · rintro ⟨a, ha, b, hb, h⟩
    cases a with
    | nil => exact Or.inr ⟨ha, h ▸ hb⟩
    | cons d a =>
      obtain ⟨rfl, rfl⟩ := List.cons.inj h
      exact Or.inl ⟨a, b, ha, hb, rfl⟩
  · rintro (⟨a, b, ha, hb, rfl⟩ | ⟨hl, hm⟩)
    · exact ⟨c :: a, ha, b, hb, rfl⟩
    · exact ⟨[], hl, c :: w, hm, rfl⟩

theorem cons_mem_kstar {l : Language Char} {c : Char} {w : List Char} :
    c :: w ∈ KStar.kstar l ↔ ∃ a b, c :: a ∈ l ∧ b ∈ KStar.kstar l ∧ a ++ b = w := by
  rw [Language.mem_kstar_iff_exists_nonempty]
  constructor
  · rintro ⟨ws, hw, hall⟩
    cases ws with
    | nil => cases hw
    | cons v ws =>
      obtain ⟨hv, hne⟩ := hall v List.mem_cons_self
      cases v with
      | nil => exact absurd rfl hne
      | cons d a =>
        obtain ⟨rfl, rfl⟩ := List.cons.inj hw
        exact ⟨a, ws.flatten, hv,
          Language.join_mem_kstar fun y hy => (hall y (List.mem_cons_of_mem _ hy)).1, rfl⟩
  · rintro ⟨a, b, ha, hb, rfl⟩
    obtain ⟨ws, rfl, hall⟩ := Language.mem_kstar_iff_exists_nonempty.mp hb
    refine ⟨(c :: a) :: ws, rfl, fun y hy => ?_⟩
    rcases List.mem_cons.mp hy with rfl | hy
    · exact ⟨ha, List.cons_ne_nil _ _⟩
    · exact hall y hy

/-- Any number of characters of a class. -/
theorem mem_star_cls {k : CharClass} {w : List Char} :
    w ∈ (star (cls k)).lang ↔ ∀ c ∈ w, k.mem c = true := by
  induction w with
  | nil => exact iff_of_true (Language.nil_mem_kstar _) fun c hc => absurd hc List.not_mem_nil
  | cons c w ih =>
    rw [lang, cons_mem_kstar, List.forall_mem_cons]
    constructor
    · rintro ⟨a, b, ⟨d, hd, hcons⟩, hb, rfl⟩
      obtain ⟨rfl, rfl⟩ := List.cons.inj hcons
      exact ⟨hd, ih.mp hb⟩
    · rintro ⟨hc, hw⟩
      exact ⟨[], w, ⟨c, hc, rfl⟩, ih.mpr hw, rfl⟩

/-- **The derivative is the quotient of the language.** -/
theorem mem_lang_deriv (c : Char) (p : Pattern) (w : List Char) :
    w ∈ (p.deriv c).lang ↔ c :: w ∈ p.lang := by
  induction p generalizing w with
  | empty => simp [deriv, lang]
  | eps => simp [deriv, lang]
  | cls k =>
    have hcls : c :: w ∈ (cls k).lang ↔ k.mem c = true ∧ w = [] := by
      constructor
      · rintro ⟨d, hd, h⟩
        obtain ⟨rfl, rfl⟩ := List.cons.inj h
        exact ⟨hd, rfl⟩
      · rintro ⟨hc, rfl⟩
        exact ⟨c, hc, rfl⟩
    rw [hcls, deriv]
    split
    · rename_i hc
      simp [lang, hc]
    · rename_i hc
      simp [lang, hc]
  | seq p q ihp ihq =>
    have hfirst : w ∈ (mkSeq (p.deriv c) q).lang ↔
        ∃ a b, c :: a ∈ p.lang ∧ b ∈ q.lang ∧ a ++ b = w := by
      rw [lang_mkSeq, Language.mem_mul]
      constructor
      · rintro ⟨a, ha, b, hb, h⟩
        exact ⟨a, b, (ihp a).mp ha, hb, h⟩
      · rintro ⟨a, b, ha, hb, h⟩
        exact ⟨a, (ihp a).mpr ha, b, hb, h⟩
    show _ ↔ c :: w ∈ p.lang * q.lang
    rw [cons_mem_mul, ← nullable_iff, deriv]
    split
    · rename_i hp
      rw [lang_mkAlt, Language.mem_add, hfirst, ihq]
      simp [hp]
    · rename_i hp
      rw [hfirst]
      simp [hp]
  | alt p q ihp ihq => simp [deriv, lang, lang_mkAlt, Language.mem_add, ihp, ihq]
  | star p ih =>
    show _ ↔ c :: w ∈ KStar.kstar p.lang
    rw [cons_mem_kstar, deriv, lang_mkSeq, Language.mem_mul]
    constructor
    · rintro ⟨a, ha, b, hb, h⟩
      exact ⟨a, b, (ih a).mp ha, hb, h⟩
    · rintro ⟨a, b, ha, hb, h⟩
      exact ⟨a, (ih a).mpr ha, b, hb, h⟩

/-- No word of the expression is shorter. -/
def minLen : Pattern → Nat
  | empty => 0
  | eps => 0
  | cls _ => 1
  | seq p q => p.minLen + q.minLen
  | alt p q => min p.minLen q.minLen
  | star _ => 0

theorem minLen_le {p : Pattern} {w : List Char} (h : w ∈ p.lang) : p.minLen ≤ w.length := by
  induction p generalizing w with
  | empty => exact Nat.zero_le _
  | eps => exact Nat.zero_le _
  | cls k =>
    obtain ⟨c, _, rfl⟩ := h
    exact Nat.le_refl 1
  | seq p q ihp ihq =>
    obtain ⟨a, ha, b, hb, rfl⟩ := Language.mem_mul.mp h
    rw [List.length_append]
    exact Nat.add_le_add (ihp ha) (ihq hb)
  | alt p q ihp ihq =>
    rcases h with h | h
    · exact Nat.le_trans (Nat.min_le_left _ _) (ihp h)
    · exact Nat.le_trans (Nat.min_le_right _ _) (ihq h)
  | star p _ => exact Nat.zero_le _

/-- No class of the expression has the character. -/
def avoids (c : Char) : Pattern → Bool
  | empty => true
  | eps => true
  | cls k => !k.mem c
  | seq p q => p.avoids c && q.avoids c
  | alt p q => p.avoids c && q.avoids c
  | star p => p.avoids c

theorem notMem_of_avoids {p : Pattern} {c : Char} (h : p.avoids c = true) {w : List Char}
    (hw : w ∈ p.lang) : c ∉ w := by
  induction p generalizing w with
  | empty => exact absurd hw (Language.notMem_zero w)
  | eps =>
    obtain rfl : w = [] := hw
    exact List.not_mem_nil
  | cls k =>
    obtain ⟨d, hd, rfl⟩ := hw
    intro hmem
    obtain rfl := List.mem_singleton.mp hmem
    simp [avoids, hd] at h
  | seq p q ihp ihq =>
    obtain ⟨hp, hq⟩ := Bool.and_eq_true_iff.mp h
    obtain ⟨a, ha, b, hb, rfl⟩ := Language.mem_mul.mp hw
    exact fun hmem => (List.mem_append.mp hmem).elim (ihp hp ha) (ihq hq hb)
  | alt p q ihp ihq =>
    obtain ⟨hp, hq⟩ := Bool.and_eq_true_iff.mp h
    exact hw.elim (ihp hp) (ihq hq)
  | star p ih =>
    obtain ⟨ws, rfl, hall⟩ := Language.mem_kstar_iff_exists_nonempty.mp hw
    intro hmem
    obtain ⟨a, ha, hc⟩ := List.mem_flatten.mp hmem
    exact ih h (hall a ha).1 hc

end Pattern

/-! ## Picking a rule -/

section Pick

variable {α : Type}

/-- What is left of the rules behind a character. -/
def live (c : Char) (rs : List (Pattern × α)) : List (Pattern × α) :=
  (rs.map fun r => (r.1.deriv c, r.2)).filter fun r => r.1 != .empty

/-- The match so far: the first rule that matches the `n` characters read, else the one before. -/
def update (rs : List (Pattern × α)) (n : Nat) (best : Option (Nat × α)) : Option (Nat × α) :=
  match rs.find? fun r => r.1.nullable with
  | some r => some (n, r.2)
  | none => best

/-- Read on, `n` characters behind the beginning, with what is left of the rules. -/
def scan : List (Pattern × α) → Nat → Option (Nat × α) → List Char → Option (Nat × α)
  | rs, n, best, [] => update rs n best
  | rs, n, best, c :: w =>
    match live c rs with
    | [] => update rs n best
    | r :: rs' => scan (r :: rs') (n + 1) (update rs n best) w

/-- The length of the longest match and the action of the first rule with it. -/
def pick (rs : List (Pattern × α)) (w : List Char) : Option (Nat × α) := scan rs 0 none w

/-- What is left of the rules behind a text, and the match so far. -/
def scanState : List (Pattern × α) → Nat → Option (Nat × α) → List Char →
    List (Pattern × α) × Option (Nat × α)
  | rs, _, best, [] => (rs, best)
  | rs, n, best, c :: w => scanState (live c rs) (n + 1) (update rs n best) w

theorem mem_live {c : Char} {rs : List (Pattern × α)} {q : Pattern} {a : α} :
    (q, a) ∈ live c rs ↔ ∃ p, (p, a) ∈ rs ∧ p.deriv c = q ∧ q ≠ .empty := by
  simp only [live, List.mem_filter, List.mem_map, bne_iff_ne, Prod.exists, Prod.mk.injEq]
  constructor
  · rintro ⟨⟨p, a', hp, rfl, rfl⟩, hne⟩
    exact ⟨p, hp, rfl, hne⟩
  · rintro ⟨p, hp, rfl, hne⟩
    exact ⟨⟨p, a, hp, rfl, rfl⟩, hne⟩

theorem update_cases (rs : List (Pattern × α)) (n : Nat) (best : Option (Nat × α)) :
    update rs n best = best ∨
      ∃ p a, (p, a) ∈ rs ∧ [] ∈ p.lang ∧ update rs n best = some (n, a) := by
  unfold update
  cases hfind : rs.find? fun r => r.1.nullable with
  | none => exact Or.inl rfl
  | some r =>
    have hnull := List.find?_some hfind
    exact Or.inr ⟨r.1, r.2, List.mem_of_find?_eq_some hfind, (Pattern.nullable_iff _).mp hnull, rfl⟩

/-- **What is picked is matched by a rule**, or it was picked before. -/
theorem scan_sound (rs : List (Pattern × α)) (n : Nat) (best : Option (Nat × α)) (w : List Char) :
    scan rs n best w = best ∨ ∃ p a k, (p, a) ∈ rs ∧ k ≤ w.length ∧ w.take k ∈ p.lang ∧
      scan rs n best w = some (n + k, a) := by
  induction w generalizing rs n best with
  | nil =>
    rcases update_cases rs n best with h | ⟨p, a, hp, hnil, h⟩
    · exact Or.inl h
    · exact Or.inr ⟨p, a, 0, hp, Nat.le_refl _, hnil, h⟩
  | cons c w ih =>
    have hnow : update rs n best = best ∨ ∃ p a k, (p, a) ∈ rs ∧ k ≤ (c :: w).length ∧
        (c :: w).take k ∈ p.lang ∧ update rs n best = some (n + k, a) := by
      rcases update_cases rs n best with h | ⟨p, a, hp, hnil, h⟩
      · exact Or.inl h
      · exact Or.inr ⟨p, a, 0, hp, Nat.zero_le _, hnil, h⟩
    rw [scan]
    split
    · exact hnow
    · rename_i r rs' hlive
      rcases ih (r :: rs') (n + 1) (update rs n best) with h | ⟨p, a, k, hp, hk, htake, h⟩
      · rw [h]
        exact hnow
      · rw [← hlive] at hp
        obtain ⟨p', hp', rfl, _⟩ := mem_live.mp hp
        refine Or.inr ⟨p', a, k + 1, hp', Nat.succ_le_succ hk, ?_, ?_⟩
        · exact (Pattern.mem_lang_deriv c p' _).mp htake
        · rw [h]
          congr 2
          omega

/-- What is picked is matched by its rule. -/
theorem pick_sound {rs : List (Pattern × α)} {w : List Char} {n : Nat} {a : α}
    (h : pick rs w = some (n, a)) : ∃ p, (p, a) ∈ rs ∧ n ≤ w.length ∧ w.take n ∈ p.lang := by
  rcases scan_sound rs 0 none w with hnone | ⟨p, a', k, hp, hk, htake, hsome⟩
  · rw [pick, hnone] at h
    cases h
  · rw [pick, hsome, Nat.zero_add] at h
    cases h
    exact ⟨p, hp, hk, htake⟩

/-- The match so far never gets shorter. -/
theorem scan_ge {rs : List (Pattern × α)} {n : Nat} {best : Option (Nat × α)} {w : List Char}
    {m : Nat} {a : α} (hbest : best = some (m, a)) (hm : m ≤ n) :
    ∃ m' a', scan rs n best w = some (m', a') ∧ m ≤ m' := by
  rcases scan_sound rs n best w with h | ⟨p, a', k, _, _, _, h⟩
  · exact ⟨m, a, h.trans hbest, Nat.le_refl _⟩
  · exact ⟨n + k, a', h, by omega⟩

/-- **Nothing longer is matched.** -/
theorem scan_complete {rs : List (Pattern × α)} {p : Pattern} {a : α} (hp : (p, a) ∈ rs) (n : Nat)
    (best : Option (Nat × α)) {w : List Char} {k : Nat} (hk : k ≤ w.length)
    (htake : w.take k ∈ p.lang) : ∃ m a', scan rs n best w = some (m, a') ∧ n + k ≤ m := by
  induction k generalizing rs n best w p with
  | zero =>
    have hupdate : ∃ a', update rs n best = some (n, a') := by
      unfold update
      cases hfind : rs.find? fun r => r.1.nullable with
      | none =>
        have hnot := List.find?_eq_none.mp hfind _ hp
        exact absurd ((Pattern.nullable_iff p).mpr (by simpa using htake)) hnot
      | some r => exact ⟨r.2, rfl⟩
    obtain ⟨a', hupdate⟩ := hupdate
    cases w with
    | nil => exact ⟨n, a', hupdate, Nat.le_refl _⟩
    | cons c w =>
      rw [scan]
      split
      · exact ⟨n, a', hupdate, Nat.le_refl _⟩
      · exact scan_ge hupdate (Nat.le_succ n)
  | succ k ih =>
    cases w with
    | nil => exact absurd hk (Nat.not_succ_le_zero k)
    | cons c w =>
      have hderiv : w.take k ∈ (p.deriv c).lang := (Pattern.mem_lang_deriv c p _).mpr htake
      have hlive : (p.deriv c, a) ∈ live c rs := by
        refine mem_live.mpr ⟨p, hp, rfl, fun h => ?_⟩
        rw [h] at hderiv
        exact Language.notMem_zero _ hderiv
      obtain ⟨m, a', h, hm⟩ := ih hlive (n + 1) (update rs n best) (Nat.le_of_succ_le_succ hk) hderiv
      refine ⟨m, a', ?_, by omega⟩
      rw [scan]
      split
      · rename_i hnil
        rw [hnil] at hlive
        exact absurd hlive List.not_mem_nil
      · rename_i r rs' hcons
        rw [← hcons]
        exact h

/-- Nothing longer than what is picked is matched. -/
theorem pick_longest {rs : List (Pattern × α)} {w : List Char} {n : Nat} {a : α}
    (h : pick rs w = some (n, a)) {p : Pattern} {b : α} (hp : (p, b) ∈ rs) {k : Nat}
    (hk : k ≤ w.length) (htake : w.take k ∈ p.lang) : k ≤ n := by
  obtain ⟨m, a', hm, hle⟩ := scan_complete hp 0 none hk htake
  rw [pick, hm] at h
  cases h
  omega

/-- **What is picked**, behind a match that is shorter, where only one rule matches that much. -/
theorem scan_unique {rs : List (Pattern × α)} {p : Pattern} {a : α} (hp : (p, a) ∈ rs) {n k : Nat}
    {best : Option (Nat × α)} {w : List Char} (hk : k ≤ w.length) (htake : w.take k ∈ p.lang)
    (hbest : ∀ m b, best = some (m, b) → m < n + k)
    (honly : ∀ q b j, (q, b) ∈ rs → j ≤ w.length → k ≤ j → w.take j ∈ q.lang → j = k ∧ b = a) :
    scan rs n best w = some (n + k, a) := by
  obtain ⟨m, a', hm, hle⟩ := scan_complete hp n best hk htake
  rcases scan_sound rs n best w with h | ⟨q, b, j, hq, hj, hlang, h⟩
  · have hshort := hbest m a' (h.symm.trans hm)
    omega
  · obtain ⟨hlen, rfl⟩ := Prod.mk.inj (Option.some.inj (h.symm.trans hm))
    obtain ⟨rfl, rfl⟩ := honly q b j hq hj (by omega) hlang
    exact h

theorem pick_unique {rs : List (Pattern × α)} {p : Pattern} {a : α} (hp : (p, a) ∈ rs) {k : Nat}
    {w : List Char} (hk : k ≤ w.length) (htake : w.take k ∈ p.lang)
    (honly : ∀ q b j, (q, b) ∈ rs → j ≤ w.length → k ≤ j → w.take j ∈ q.lang → j = k ∧ b = a) :
    pick rs w = some (k, a) := by
  rw [pick, scan_unique hp hk htake (fun m b h => by cases h) honly, Nat.zero_add]

/-- Where no rule goes on, the match so far is taken. -/
theorem scan_stop {rs : List (Pattern × α)} {c : Char} (h : live c rs = []) (n : Nat)
    (best : Option (Nat × α)) (w : List Char) : scan rs n best (c :: w) = update rs n best := by
  rw [scan, h]

theorem scanState_nil (n : Nat) (best : Option (Nat × α)) (u : List Char) :
    scanState [] n best u = ([], best) := by
  induction u generalizing n with
  | nil => rfl
  | cons c u ih => exact ih (n + 1)

theorem scan_nil (n : Nat) (best : Option (Nat × α)) (u : List Char) : scan [] n best u = best := by
  cases u <;> rfl

/-- Reading the first part of a text, then the second. -/
theorem scan_append (rs : List (Pattern × α)) (n : Nat) (best : Option (Nat × α))
    (u v : List Char) :
    scan rs n best (u ++ v) =
      scan (scanState rs n best u).1 (n + u.length) (scanState rs n best u).2 v := by
  induction u generalizing rs n best with
  | nil => rfl
  | cons c u ih =>
    rw [List.cons_append, scan, scanState]
    split
    · rename_i hnil
      rw [hnil, scanState_nil, scan_nil]
    · rename_i r rs' hcons
      rw [← hcons, ih, List.length_cons, Nat.add_assoc n 1, Nat.add_comm 1]

/-- Behind a complete match that cannot go on. -/
theorem scan_eps (a : α) (n : Nat) (best : Option (Nat × α)) (w : List Char) :
    scan [(.eps, a)] n best w = some (n, a) := by
  cases w <;> rfl

/-- Where no rule can match on, the rest of the text does not matter. -/
theorem pick_of_dead {rs : List (Pattern × α)} {u : List Char} {best : Option (Nat × α)}
    (h : scanState rs 0 none u = ([], best)) (v : List Char) : pick rs (u ++ v) = best := by
  rw [pick, scan_append, h, scan_nil]

/-- Where no rule matches anything of what comes, the match so far is taken. -/
theorem scan_short {rs : List (Pattern × α)} {n : Nat} {best : Option (Nat × α)} {w : List Char}
    (h : ∀ p a k, (p, a) ∈ rs → 0 < k → k ≤ w.length → w.take k ∉ p.lang) :
    scan rs n best w = update rs n best := by
  cases w with
  | nil => rfl
  | cons c w =>
    rw [scan]
    split
    · rfl
    · rename_i r rs' hlive
      rcases scan_sound (r :: rs') (n + 1) (update rs n best) w with h' | ⟨p, a, k, hp, hk, hlang, _⟩
      · exact h'
      · rw [← hlive] at hp
        obtain ⟨p', hp', rfl, _⟩ := mem_live.mp hp
        exact absurd ((Pattern.mem_lang_deriv c p' _).mp hlang)
          (h p' a (k + 1) hp' (Nat.succ_pos k) (Nat.succ_le_succ hk))

/-- What is left of a rule behind a text is the quotient of its language. -/
theorem mem_scanState {rs : List (Pattern × α)} {n : Nat} {best : Option (Nat × α)} {u : List Char}
    {q : Pattern} {a : α} (h : (q, a) ∈ (scanState rs n best u).1) :
    ∃ p, (p, a) ∈ rs ∧ ∀ w, w ∈ q.lang ↔ u ++ w ∈ p.lang := by
  induction u generalizing rs n best with
  | nil => exact ⟨q, h, fun w => Iff.rfl⟩
  | cons c u ih =>
    obtain ⟨p, hp, hlang⟩ := ih h
    obtain ⟨p', hp', rfl, _⟩ := mem_live.mp hp
    exact ⟨p', hp', fun w => (hlang w).trans (Pattern.mem_lang_deriv c p' _)⟩

/-- **What comes behind does not matter** if no rule matches anything of it. -/
theorem pick_of_short {rs : List (Pattern × α)} {u v : List Char}
    (h : ∀ p a k, (p, a) ∈ rs → 0 < k → k ≤ v.length → u ++ v.take k ∉ p.lang) :
    pick rs (u ++ v) = pick rs u := by
  have hshort : scan (scanState rs 0 none u).1 (0 + u.length) (scanState rs 0 none u).2 v =
      update (scanState rs 0 none u).1 (0 + u.length) (scanState rs 0 none u).2 := by
    refine scan_short fun q a k hq hk hle hlang => ?_
    obtain ⟨p, hp, hquotient⟩ := mem_scanState hq
    exact h p a k hp hk hle ((hquotient _).mp hlang)
  rw [pick, pick, scan_append, hshort, ← List.append_nil u, scan_append, List.append_nil]
  rfl

end Pick

end Lexer
