import Mathlib.Data.Nat.Digits.Defs
import Mathlib.Data.Nat.Digits.Lemmas

/-!
# C memory: integers as bytes, allocations as byte lists, the layout of structures

* `ByteOrder.decode` and `ByteOrder.encode` read and write an unsigned integer in the byte order
  of the machine. `encode_eq_zero_iff`: the bytes of an integer that fits are all zero exactly
  when it is zero.
* An allocation is the list of its bytes. `load` and `store` access a range of it and fail
  (`none`) when the range is not inside; `realloc` resizes it.
* `structSize` is the size of a structure with natural alignment, from the sizes and alignments
  of its members.
-/

namespace Memory

/-! ## Integers as bytes -/

/-- The byte order of a machine. -/
inductive ByteOrder where
  | little
  | big
  deriving DecidableEq, Repr

/-- The low `n` bytes of `x`, least significant first. -/
def encodeLE : Nat → Nat → List UInt8
  | 0, _ => []
  | n + 1, x => UInt8.ofNat x :: encodeLE n (x / 256)

namespace ByteOrder

/-- The unsigned integer stored in `bs`. -/
def decode : ByteOrder → List UInt8 → Nat
  | little, bs => Nat.ofDigits 256 (bs.map UInt8.toNat)
  | big, bs => Nat.ofDigits 256 (bs.reverse.map UInt8.toNat)

/-- The `n` bytes that store `x`. -/
def encode : ByteOrder → Nat → Nat → List UInt8
  | little, n, x => encodeLE n x
  | big, n, x => (encodeLE n x).reverse

end ByteOrder

theorem encodeLE_length : ∀ n x, (encodeLE n x).length = n
  | 0, _ => rfl
  | n + 1, x => by rw [encodeLE, List.length_cons, encodeLE_length n]

theorem encodeLE_eq_zero_iff : ∀ {n x : Nat}, x < 256 ^ n →
    ((∀ b ∈ encodeLE n x, b = 0) ↔ x = 0)
  | 0, x, h => by
    rw [pow_zero, Nat.lt_one_iff] at h
    simp [encodeLE, h]
  | n + 1, x, h => by
    have hdiv : x / 256 < 256 ^ n := by
      rw [Nat.div_lt_iff_lt_mul (by decide), ← pow_succ]
      exact h
    rw [encodeLE, List.forall_mem_cons, encodeLE_eq_zero_iff hdiv]
    have hb : UInt8.ofNat x = 0 ↔ x % 256 = 0 := by
      rw [← UInt8.toNat_inj]
      simp
    rw [hb]
    omega

theorem ByteOrder.encode_length (o : ByteOrder) (n x : Nat) : (o.encode n x).length = n := by
  cases o with
  | little => exact encodeLE_length n x
  | big => rw [encode, List.length_reverse, encodeLE_length]

/-- **The bytes of an integer that fits are all zero exactly when it is zero**, in either byte
order. -/
theorem ByteOrder.encode_eq_zero_iff (o : ByteOrder) {n x : Nat} (h : x < 256 ^ n) :
    (∀ b ∈ o.encode n x, b = 0) ↔ x = 0 := by
  cases o with
  | little => exact encodeLE_eq_zero_iff h
  | big =>
    simp only [encode, List.mem_reverse]
    exact encodeLE_eq_zero_iff h

theorem ByteOrder.decode_lt (o : ByteOrder) (bs : List UInt8) :
    o.decode bs < 256 ^ bs.length := by
  have key : ∀ l : List UInt8, Nat.ofDigits 256 (l.map UInt8.toNat) < 256 ^ l.length := by
    intro l
    have h := Nat.ofDigits_lt_base_pow_length (b := 256) (l := l.map UInt8.toNat) (by decide)
      (fun x hx => by
        obtain ⟨b, _, rfl⟩ := List.mem_map.mp hx
        exact b.toNat_lt)
    rwa [List.length_map] at h
  cases o with
  | little => exact key bs
  | big =>
    have h := key bs.reverse
    rwa [List.length_reverse] at h

/-! ## Allocations -/

/-- The `len` bytes of an allocation from offset `off` on; `none` if they are not all inside. -/
def load (mem : List UInt8) (off len : Nat) : Option (List UInt8) :=
  if off + len ≤ mem.length then some ((mem.drop off).take len) else none

/-- An allocation with the bytes from offset `off` on replaced by `data`. -/
def overlay (mem : List UInt8) (off : Nat) (data : List UInt8) : List UInt8 :=
  mem.take off ++ data ++ mem.drop (off + data.length)

/-- Overwrite an allocation from offset `off` on; `none` if the data does not fit inside. -/
def store (mem : List UInt8) (off : Nat) (data : List UInt8) : Option (List UInt8) :=
  if off + data.length ≤ mem.length then some (overlay mem off data) else none

/-- The `len` bytes from offset `off` on, wherever they lie: behind the end of the allocation they
are what the memory there (`beyond`) happens to hold. -/
def peek (beyond : Nat → UInt8) (mem : List UInt8) (off len : Nat) : List UInt8 :=
  (List.range len).map fun i => (mem[off + i]?).getD (beyond (off + i))

/-- A fresh allocation. Its bytes are unspecified in C; here they are zero. -/
def malloc (n : Nat) : List UInt8 := List.replicate n 0

/-- Resize an allocation, keeping the bytes that still fit. -/
def realloc (mem : List UInt8) (n : Nat) : List UInt8 :=
  mem.take n ++ List.replicate (n - mem.length) 0

theorem load_eq_some {mem : List UInt8} {off len : Nat} (h : off + len ≤ mem.length) :
    load mem off len = some ((mem.drop off).take len) := if_pos h

theorem store_eq_some {mem data : List UInt8} {off : Nat} (h : off + data.length ≤ mem.length) :
    store mem off data = some (overlay mem off data) := if_pos h

theorem overlay_nil (mem : List UInt8) (off : Nat) : overlay mem off [] = mem := by
  simp [overlay]

theorem overlay_length {mem data : List UInt8} {off : Nat} (h : off + data.length ≤ mem.length) :
    (overlay mem off data).length = mem.length := by
  simp only [overlay, List.length_append, List.length_take, List.length_drop]
  omega

/-- What is behind the data is left alone. -/
theorem overlay_drop {mem data : List UInt8} {off n : Nat} (h : off + data.length ≤ mem.length)
    (hn : off + data.length ≤ n) : (overlay mem off data).drop n = mem.drop n := by
  have hlength : (mem.take off ++ data).length = off + data.length := by
    rw [List.length_append, List.length_take]
    omega
  obtain ⟨k, rfl⟩ := Nat.exists_eq_add_of_le hn
  rw [overlay, ← List.drop_drop, List.drop_left' hlength, List.drop_drop]

/-- Two pieces stored one behind the other are stored as one. -/
theorem overlay_overlay (mem xs ys : List UInt8) (off : Nat)
    (h : off + xs.length + ys.length ≤ mem.length) :
    overlay (overlay mem off xs) (off + xs.length) ys = overlay mem off (xs ++ ys) := by
  have hl : (mem.take off ++ xs).length = off + xs.length := by
    simp only [List.length_append, List.length_take]
    omega
  have hd : (mem.take off ++ xs ++ mem.drop (off + xs.length)).drop (off + xs.length + ys.length) =
      mem.drop (off + (xs ++ ys).length) := by
    rw [← hl, ← List.drop_drop, List.drop_left, List.drop_drop, hl, List.length_append]
    congr 1
    omega
  unfold overlay
  rw [List.take_left' hl, hd, List.append_assoc (mem.take off) xs ys]

/-- Filling a whole allocation leaves exactly the data. -/
theorem overlay_all {mem data : List UInt8} (h : mem.length = data.length) :
    overlay mem 0 data = data := by
  simp [overlay, ← h]

/-- Storing data behind the old bytes of an allocation grown by its length appends the data. -/
theorem overlay_realloc (mem data : List UInt8) :
    overlay (realloc mem (mem.length + data.length)) mem.length data = mem ++ data := by
  have hr : realloc mem (mem.length + data.length) = mem ++ List.replicate data.length 0 := by
    rw [realloc, List.take_of_length_le (by omega)]
    congr 2
    omega
  rw [overlay, hr, List.take_left]
  simp

theorem malloc_length (n : Nat) : (malloc n).length = n := List.length_replicate

theorem realloc_length (mem : List UInt8) (n : Nat) : (realloc mem n).length = n := by
  simp only [realloc, List.length_append, List.length_take, List.length_replicate]
  omega

/-! ## The layout of structures -/

/-- Round `n` up to a multiple of `a`. -/
def roundUp (a n : Nat) : Nat := (n + (a - 1)) / a * a

/-- The offset behind the members `ms` (size, alignment) when the first is placed at or behind
`off`. -/
def placeMembers : Nat → List (Nat × Nat) → Nat
  | off, [] => off
  | off, (size, align) :: ms => placeMembers (roundUp align off + size) ms

/-- The alignment of a structure or union: the largest of its members. -/
def maxAlign (ms : List (Nat × Nat)) : Nat := (ms.map Prod.snd).foldl max 1

/-- `sizeof` of a structure with the members `ms` (size, alignment). -/
def structSize (ms : List (Nat × Nat)) : Nat := roundUp (maxAlign ms) (placeMembers 0 ms)

/-- `sizeof` of a packed structure. -/
def packedSize (ms : List (Nat × Nat)) : Nat := (ms.map Prod.fst).sum

/-- `sizeof` of a union. -/
def unionSize (ms : List (Nat × Nat)) : Nat :=
  roundUp (maxAlign ms) ((ms.map Prod.fst).foldl max 0)

end Memory
