import Mathlib.Tactic
import Mathlib.Data.Nat.Digits.Lemmas

/-!
# Byte strings and fixed-width little-endian words

A `Blob n` is a byte string of exactly `n` bytes: the memory image of a fixed-size object, as
`memcpy` and `memcmp` see it.  `toLE w n` is the image of the natural number `n` in a `w`-byte
unsigned field of a little-endian machine, and `ofLE` reads such an image back.  The only law the
formats above need is the round trip `ofLE_toLE`, exact for the numbers that fit the field.
-/

/-- A byte string of exactly `n` bytes. -/
structure Blob (n : ℕ) where
  /-- The bytes, in memory order. -/
  bytes : List UInt8
  /-- There are `n` of them. -/
  size_eq : bytes.length = n
deriving DecidableEq

namespace Blob

@[ext] theorem ext {n : ℕ} {a b : Blob n} (h : a.bytes = b.bytes) : a = b := by
  cases a
  cases b
  simpa using h

/-- The image of a zero-filled buffer of `n` bytes after the first `min n src.length` bytes of
`src` have been copied to its start. -/
def copy (n : ℕ) (src : List UInt8) : Blob n where
  bytes := src.take n ++ List.replicate (n - src.length) 0
  size_eq := by
    rw [List.length_append, List.length_take, List.length_replicate]
    omega

/-- The buffer after `src` has been copied to an offset; what does not fit is dropped. -/
def patch {n : ℕ} (b : Blob n) (off : ℕ) (src : List UInt8) : Blob n where
  bytes := (b.bytes.take off ++ (src ++ b.bytes.drop (off + src.length))).take n
  size_eq := by
    have hsize := b.size_eq
    simp only [List.length_take, List.length_append, List.length_drop]
    omega

/-- Copying a source that has exactly the size of the buffer keeps its bytes. -/
lemma copy_bytes (n : ℕ) {src : List UInt8} (h : src.length = n) : (copy n src).bytes = src := by
  simp [copy, h]

end Blob

namespace Bytes

/-- The `w` little-endian bytes of `n`; what does not fit is dropped. -/
def toLE (w n : ℕ) : List UInt8 :=
  (List.range w).map fun i => UInt8.ofNat (n / 256 ^ i)

/-- The natural number with the given little-endian bytes. -/
def ofLE (bytes : List UInt8) : ℕ :=
  bytes.foldr (fun b n => b.toNat + 256 * n) 0

/-- The number of two byte strings one behind the other. -/
lemma ofLE_append (xs ys : List UInt8) :
    ofLE (xs ++ ys) = ofLE xs + ofLE ys <<< (8 * xs.length) := by
  induction xs with
  | nil => simp [ofLE]
  | cons x xs ih =>
    have hcons : ∀ zs, ofLE (x :: zs) = x.toNat + 256 * ofLE zs := fun _ => rfl
    rw [List.cons_append, hcons, ih, hcons, List.length_cons, Nat.mul_succ, Nat.shiftLeft_eq,
      Nat.shiftLeft_eq, pow_add]
    ring

/-- The number of a byte string fits a field of its length. -/
lemma ofLE_lt (xs : List UInt8) : ofLE xs < 2 ^ (8 * xs.length) := by
  induction xs with
  | nil => simp [ofLE]
  | cons x xs ih =>
    have hcons : ofLE (x :: xs) = x.toNat + 256 * ofLE xs := rfl
    have hx := x.toNat_lt
    rw [hcons, List.length_cons, Nat.mul_succ, pow_add]
    omega

/-- A `w`-byte field takes `w` bytes. -/
@[simp] lemma length_toLE (w n : ℕ) : (toLE w n).length = w := by
  simp [toLE]

/-- The first byte of a field is its value modulo `256`, the others are those of the quotient. -/
lemma toLE_succ (w n : ℕ) : toLE (w + 1) n = UInt8.ofNat n :: toLE w (n / 256) := by
  simp only [toLE, List.range_succ_eq_map, List.map_cons, List.map_map, pow_zero, Nat.div_one]
  congr 1
  refine List.map_congr_left fun i _ => ?_
  simp only [Function.comp_apply, Nat.succ_eq_add_one, pow_succ']
  rw [Nat.div_div_eq_div_mul]

/-- Reading a `w`-byte field back gives its value modulo `256 ^ w`. -/
lemma ofLE_toLE_mod (w n : ℕ) : ofLE (toLE w n) = n % 256 ^ w := by
  induction w generalizing n with
  | zero => simp [toLE, ofLE, Nat.mod_one]
  | succ w ih =>
    have hcons : ofLE (toLE (w + 1) n) = n % 256 + 256 * ofLE (toLE w (n / 256)) := by
      rw [toLE_succ]
      simp [ofLE]
    rw [hcons, ih, pow_succ', Nat.mod_mul]

/-- A number that fits a `w`-byte field survives the round trip. -/
lemma ofLE_toLE {w n : ℕ} (h : n < 256 ^ w) : ofLE (toLE w n) = n := by
  rw [ofLE_toLE_mod, Nat.mod_eq_of_lt h]

end Bytes
