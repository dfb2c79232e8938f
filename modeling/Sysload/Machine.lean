import Sysload.Lib.Comp
import Sysload.Lib.Memory

/-!
# The machine the C code runs on

`Target` is what the C code depends on in its machine: byte order, structure layout, and the range
of `int`. Signed overflow and accesses outside an allocation are undefined in C; the model stops
there, with a `Stop` of its own, so that a result that was reached was reached without them.

Out of scope is what a program does behind undefined behaviour.
-/

namespace Sysload

open Memory

/-- The structure layouts in use: 64-bit integers are aligned to 4 bytes on 32-bit Intel and to 8
bytes on System z and 64-bit machines. -/
inductive Abi where
  | i386
  | s390
  deriving DecidableEq, Repr

/-- The alignment of a 64-bit integer in a structure. -/
def Abi.align64 : Abi → Nat
  | i386 => 4
  | s390 => 8

/-- The machine the C code runs on. `intLimit` is `2 ^ 31` on a real machine; `none` stands for
integers without a bound. -/
structure Target where
  order : ByteOrder
  abi : Abi
  intLimit : Option Nat

/-- `x` fits into an `int`. -/
def Target.fits (t : Target) (x : Nat) : Bool := t.intLimit.all fun b => x < b

/-- 64-bit System z. -/
def s390x : Target := ⟨.big, .s390, some (2 ^ 31)⟩

/-- Why a C function ends without a value: it returns an error message, does what C leaves
undefined, aborts for want of memory (`MEM_ASSERT`), exits, or a new kernel has taken over. -/
inductive Stop where
  | errmsg (msg : String)
  | overflow
  | overrun
  | aborted
  | exited
  | booted
  deriving DecidableEq, Repr

/-- The value of an `int` expression. -/
def Target.int (t : Target) (x : Nat) : Except Stop Nat :=
  if t.fits x then .ok x else .error .overflow

theorem Target.fits_mono (t : Target) {x y : Nat} (h : x ≤ y) (hy : t.fits y = true) :
    t.fits x = true := by
  unfold fits at hy ⊢
  cases hl : t.intLimit with
  | none => rfl
  | some b =>
    rw [hl] at hy
    simp only [Option.all_some, decide_eq_true_eq] at hy ⊢
    omega

theorem Target.int_of_fits {t : Target} {x : Nat} (h : t.fits x = true) : t.int x = .ok x :=
  if_pos h

theorem Target.int_of_not_fits {t : Target} {x : Nat} (h : ¬ t.fits x = true) :
    t.int x = .error .overflow := if_neg h

/-- `x` comes to an end that C defines: a value or an error message. -/
def Comes {α : Type} (x : Prog Stop α) : Prop :=
  (∃ a, x.Gives (.ok a)) ∨ ∃ msg, x.Gives (.error (.errmsg msg))

/-- Run a function and take its error message as a value, as a caller that goes on does. -/
def attempt {α : Type} (x : Prog Stop α) : Prog Stop (Except String α) :=
  ExceptT.mk (ExceptT.run x >>= fun r => pure (match r with
    | .ok a => .ok (.ok a)
    | .error (.errmsg msg) => .ok (.error msg)
    | .error e => .error e))

theorem attempt_ok {α : Type} {x : Prog Stop α} {a : α} :
    (attempt x).Gives (.ok (.ok a)) ↔ x.Gives (.ok a) := by
  unfold Prog.Gives attempt
  show (ExceptT.run x >>= _).Returns _ ↔ _
  rw [Comp.returns_bind]
  constructor
  · rintro ⟨r, hr, hp⟩
    rcases r with (msg | _ | _ | _ | _ | _) | b <;> cases Comp.returns_pure.mp hp
    exact hr
  · intro h
    exact ⟨_, h, Comp.returns_pure.mpr rfl⟩

theorem attempt_errmsg {α : Type} {x : Prog Stop α} {msg : String} :
    (attempt x).Gives (.ok (.error msg)) ↔ x.Gives (.error (.errmsg msg)) := by
  unfold Prog.Gives attempt
  show (ExceptT.run x >>= _).Returns _ ↔ _
  rw [Comp.returns_bind]
  constructor
  · rintro ⟨r, hr, hp⟩
    rcases r with (msg | _ | _ | _ | _ | _) | b <;> cases Comp.returns_pure.mp hp
    exact hr
  · intro h
    exact ⟨_, h, Comp.returns_pure.mpr rfl⟩

theorem not_attempt_errmsg {α : Type} {x : Prog Stop α} (msg : String) :
    ¬ (attempt x).Gives (.error (.errmsg msg)) := by
  unfold Prog.Gives attempt
  show ¬ (ExceptT.run x >>= _).Returns _
  rw [Comp.returns_bind]
  rintro ⟨r, _, hp⟩
  rcases r with (msg | _ | _ | _ | _ | _) | b <;> cases Comp.returns_pure.mp hp

/-! ## Coming to an end -/

section Comes

variable {α β : Type}

theorem Comes.ends {x : Prog Stop α} (h : Comes x) : x.Ends := by
  rcases h with ⟨a, ha⟩ | ⟨msg, hm⟩
  · exact ⟨_, ha⟩
  · exact ⟨_, hm⟩

theorem comes_pure (a : α) : Comes (pure a) := Or.inl ⟨a, Prog.gives_pure.mpr rfl⟩

theorem comes_errmsg (msg : String) : Comes (throw (.errmsg msg) : Prog Stop α) :=
  Or.inr ⟨msg, Prog.gives_throw.mpr rfl⟩

/-- **Sequencing**: a sequence comes to an end when its first part does and, if that returns a
value, the second part from there. -/
theorem comes_bind {x : Prog Stop α} {f : α → Prog Stop β} :
    Comes (x >>= f) ↔ Comes x ∧ ∀ a, x.Gives (.ok a) → Comes (f a) := by
  constructor
  · intro h
    have hx : Comes x := by
      rcases h with ⟨b, hb⟩ | ⟨msg, hm⟩
      · obtain ⟨a, ha, _⟩ := Prog.gives_bind_eq_ok.mp hb
        exact Or.inl ⟨a, ha⟩
      · rcases Prog.gives_bind.mp hm with ⟨a, ha, _⟩ | ⟨e, he, heq⟩
        · exact Or.inl ⟨a, ha⟩
        · cases heq
          exact Or.inr ⟨msg, he⟩
    refine ⟨hx, fun a ha => ?_⟩
    unfold Comes at h ⊢
    simpa only [Prog.gives_bind_ok ha] using h
  · rintro ⟨⟨a, ha⟩ | ⟨msg, hm⟩, hf⟩
    · have hfa := hf a ha
      unfold Comes at hfa ⊢
      simpa only [Prog.gives_bind_ok ha] using hfa
    · exact Or.inr ⟨msg, (Prog.gives_bind_error hm).mpr rfl⟩

/-- An error message that is taken as a value is an end, too. -/
theorem comes_attempt {x : Prog Stop α} : Comes (attempt x) ↔ Comes x := by
  constructor
  · rintro (⟨_ | a, h⟩ | ⟨msg, h⟩)
    · exact Or.inr ⟨_, attempt_errmsg.mp h⟩
    · exact Or.inl ⟨a, attempt_ok.mp h⟩
    · exact absurd h (not_attempt_errmsg msg)
  · rintro (⟨a, h⟩ | ⟨msg, h⟩)
    · exact Or.inl ⟨_, attempt_ok.mpr h⟩
    · exact Or.inl ⟨_, attempt_errmsg.mpr h⟩

end Comes

end Sysload
