import Mathlib.Tactic
import Mathlib.Logic.Function.Iterate
import Mathlib.Data.List.GetD

/-!
# Feedback shift registers

A register of `w` bits that is moved down one place at a time; the bit that falls out at the
bottom is fed back as the exclusive or with a fixed word `poly`.  A message is taken in bit by bit,
each bit being added to the bottom of the register before the register moves.

* the register is linear in exclusive or (`shift_xor`) and, when the top bit of `poly` is set,
  loses nothing (`shift_injective`);
* up to `w` message bits may be added all at once before the first move (`foldl_feed`), which is
  what makes table-driven implementations right (`shifts_split`);
* hence two messages that differ in at most `w` consecutive bits leave different registers
  (`foldl_feed_ne_of_burst`).
-/

namespace ShiftRegister

variable {w : ℕ} (poly : BitVec w)

/-- One move of the register. -/
def shift (c : BitVec w) : BitVec w :=
  if c.getLsbD 0 then (c >>> 1) ^^^ poly else c >>> 1

/-- `n` moves of the register. -/
def shifts (n : ℕ) : BitVec w → BitVec w := (shift poly)^[n]

/-- The word whose only bit that may be set is the lowest one. -/
def bit (b : Bool) : BitVec w := if b then BitVec.ofNat w 1 else 0

/-- The register takes in one message bit. -/
def feed (c : BitVec w) (b : Bool) : BitVec w := shift poly (c ^^^ bit b)

/-- The word whose bits are those of the list, the first one at the bottom. -/
def pack : List Bool → BitVec w
  | [] => 0
  | b :: x => bit b ^^^ (pack x <<< 1)

/-! ## Moves are linear and lose nothing -/

lemma shift_xor (a b : BitVec w) : shift poly (a ^^^ b) = shift poly a ^^^ shift poly b := by
  unfold shift
  simp only [BitVec.getLsbD_xor, BitVec.ushiftRight_xor_distrib]
  have hcancel : (a >>> 1) ^^^ poly ^^^ ((b >>> 1) ^^^ poly) = (a >>> 1) ^^^ (b >>> 1) := by
    rw [BitVec.xor_assoc, BitVec.xor_comm poly, BitVec.xor_assoc, BitVec.xor_self,
      BitVec.xor_zero]
  cases a.getLsbD 0 <;> cases b.getLsbD 0
  · simp
  · simp [BitVec.xor_assoc]
  · simp only [Bool.xor_false, if_true, Bool.false_eq_true, if_false]
    rw [BitVec.xor_assoc, BitVec.xor_comm (b >>> 1), ← BitVec.xor_assoc]
  · simpa using hcancel.symm

lemma shifts_xor (n : ℕ) (a b : BitVec w) :
    shifts poly n (a ^^^ b) = shifts poly n a ^^^ shifts poly n b := by
  induction n with
  | zero => rfl
  | succ n ih =>
    simp only [shifts, Function.iterate_succ_apply'] at ih ⊢
    rw [ih, shift_xor]

/-- A register that is empty after a move was empty before it: its bottom bit can only have been
fed back into the top bit of `poly`, which the move leaves empty otherwise. -/
lemma shift_eq_zero (hpoly : poly.msb = true) {c : BitVec w} (h : shift poly c = 0) : c = 0 := by
  have hw : 0 < w := by
    by_contra hw
    obtain rfl : w = 0 := by omega
    simp [BitVec.msb, BitVec.getMsbD] at hpoly
  have htop : poly.getLsbD (w - 1) = true := by
    rwa [BitVec.msb_eq_getLsbD_last] at hpoly
  have hbit : ∀ i, (shift poly c).getLsbD i = false := by
    intro i
    rw [h]
    simp
  unfold shift at hbit
  split at hbit
  · have := hbit (w - 1)
    rw [BitVec.getLsbD_xor, htop, BitVec.getLsbD_ushiftRight,
      BitVec.getLsbD_of_ge c (1 + (w - 1)) (by omega)] at this
    simp at this
  · rename_i hlow
    apply BitVec.eq_of_getLsbD_eq
    intro i _
    cases i with
    | zero => simpa using hlow
    | succ i =>
      have := hbit i
      rw [BitVec.getLsbD_ushiftRight, Nat.add_comm] at this
      simpa using this

/-- With the top bit of `poly` set, a move loses nothing. -/
lemma shift_injective (hpoly : poly.msb = true) : Function.Injective (shift poly) := by
  intro a b h
  have hzero : shift poly (a ^^^ b) = 0 := by
    rw [shift_xor, h, BitVec.xor_self]
    rfl
  exact BitVec.xor_eq_zero_iff.mp (shift_eq_zero poly hpoly hzero)

lemma shifts_injective (hpoly : poly.msb = true) (n : ℕ) :
    Function.Injective (shifts poly n) :=
  (shift_injective poly hpoly).iterate n

/-! ## Taking in several bits at once -/

/-- A register whose bottom bit is clear only moves down. -/
lemma shift_shiftLeft {c : BitVec w} (h : c.msb = false) : shift poly (c <<< 1) = c := by
  have hlow : (c <<< 1).getLsbD 0 = false := by simp
  rw [shift, if_neg (by simp [hlow])]
  apply BitVec.eq_of_getLsbD_eq
  intro i hi
  rw [BitVec.getLsbD_ushiftRight, BitVec.getLsbD_shiftLeft]
  rcases Nat.lt_or_ge (1 + i) w with hlt | hge
  · simp [hlt]
  · have : i = w - 1 := by omega
    rw [BitVec.msb_eq_getLsbD_last] at h
    simp [this, h]

lemma getLsbD_bit (b : Bool) (i : ℕ) :
    (bit b : BitVec w).getLsbD i = (b && decide (i = 0 ∧ 0 < w)) := by
  cases b with
  | false => simp [bit]
  | true =>
    rcases Nat.eq_zero_or_pos w with rfl | hw
    · simp
    · cases i with
      | zero => simp [bit, hw]
      | succ i => simp [bit, hw]

/-- The bits of a packed word are those of the list. -/
lemma getLsbD_pack (x : List Bool) (i : ℕ) :
    (pack x : BitVec w).getLsbD i = (decide (i < w) && x.getD i false) := by
  induction x generalizing i with
  | nil => simp [pack]
  | cons b x ih =>
    rw [pack, BitVec.getLsbD_xor, BitVec.getLsbD_shiftLeft, getLsbD_bit]
    cases i with
    | zero => by_cases h : 0 < w <;> simp [h]
    | succ i =>
      rw [Nat.add_sub_cancel, ih]
      by_cases h : i + 1 < w
      · simp [h, Nat.lt_of_succ_lt h]
      · simp [h]

/-- Lists that fit the register are told apart by their packed words. -/
lemma pack_injective {x y : List Bool} (hlen : x.length = y.length) (hx : x.length ≤ w)
    (h : (pack x : BitVec w) = pack y) : x = y := by
  apply List.ext_getElem hlen
  intro i hi hi'
  have hbits := congrArg (fun c => BitVec.getLsbD c i) h
  simp only [getLsbD_pack, show i < w by omega, decide_true, Bool.true_and] at hbits
  rwa [List.getD_eq_getElem _ _ hi, List.getD_eq_getElem _ _ hi'] at hbits

lemma msb_pack {x : List Bool} (hx : x.length < w) : (pack x : BitVec w).msb = false := by
  rw [BitVec.msb_eq_getLsbD_last, getLsbD_pack, List.getD_eq_default]
  · simp
  · omega

/-- As many bits as the register has may be added before the first move. -/
lemma foldl_feed (c : BitVec w) {x : List Bool} (hx : x.length ≤ w) :
    x.foldl (feed poly) c = shifts poly x.length (c ^^^ pack x) := by
  induction x generalizing c with
  | nil => simp [shifts, pack]
  | cons b x ih =>
    rw [List.length_cons] at hx
    rw [List.foldl_cons, ih _ (by omega), feed, List.length_cons]
    -- the bits still to come are those of a register that has not moved yet
    nth_rewrite 1 [← shift_shiftLeft poly (msb_pack (w := w) (x := x) (by omega))]
    rw [← shift_xor, pack, BitVec.xor_assoc]
    rfl

/-- A register with room for `n` moves at its top only moves down. -/
lemma shifts_shiftLeft {n : ℕ} {c : BitVec w} (h : ∀ i, w ≤ i + n → c.getLsbD i = false) :
    shifts poly n (c <<< n) = c := by
  induction n with
  | zero => simp [shifts]
  | succ n ih =>
    have htop : (c <<< n).msb = false := by
      rw [BitVec.msb_eq_getLsbD_last, BitVec.getLsbD_shiftLeft, h (w - 1 - n) (by omega)]
      simp
    rw [shifts, Function.iterate_succ_apply, BitVec.shiftLeft_add, shift_shiftLeft poly htop]
    exact ih fun i hi => h i (by omega)

/-- The moves of a register: those of its bottom bits, and the rest moved down. -/
lemma shifts_split (c : BitVec w) (n : ℕ) :
    shifts poly n c = shifts poly n (c &&& BitVec.ofNat w (2 ^ n - 1)) ^^^ (c >>> n) := by
  have hsplit : c = (c &&& BitVec.ofNat w (2 ^ n - 1)) ^^^ ((c >>> n) <<< n) := by
    apply BitVec.eq_of_getLsbD_eq
    intro i hi
    simp only [BitVec.getLsbD_xor, BitVec.getLsbD_and, BitVec.getLsbD_ofNat,
      Nat.testBit_two_pow_sub_one, BitVec.getLsbD_shiftLeft, BitVec.getLsbD_ushiftRight, hi]
    by_cases h : i < n
    · simp [h]
    · simp [h, Nat.add_sub_cancel' (Nat.le_of_not_lt h)]
  have hhigh : shifts poly n ((c >>> n) <<< n) = c >>> n := by
    apply shifts_shiftLeft
    intro i hi
    rw [BitVec.getLsbD_ushiftRight, BitVec.getLsbD_of_ge c (n + i) (by omega)]
  calc shifts poly n c
      = shifts poly n ((c &&& BitVec.ofNat w (2 ^ n - 1)) ^^^ ((c >>> n) <<< n)) := by
        rw [← hsplit]
    _ = _ := by rw [shifts_xor, hhigh]

/-! ## Bursts -/

/-- What has been taken in since is no reason for two registers to become equal. -/
lemma foldl_feed_injective (hpoly : poly.msb = true) (s : List Bool) :
    Function.Injective fun c : BitVec w => s.foldl (feed poly) c := by
  induction s with
  | nil => exact Function.injective_id
  | cons b s ih =>
    intro c c' h
    have hfeed : feed poly c b = feed poly c' b := ih h
    exact (BitVec.xor_left_inj _).mp (shift_injective poly hpoly hfeed)

/-- Messages that differ in at most `w` consecutive bits leave different registers. -/
theorem foldl_feed_ne_of_burst (hpoly : poly.msb = true) (c : BitVec w)
    {p x y s : List Bool} (hlen : x.length = y.length) (hx : x.length ≤ w) (hne : x ≠ y) :
    (p ++ x ++ s).foldl (feed poly) c ≠ (p ++ y ++ s).foldl (feed poly) c := by
  rw [List.foldl_append, List.foldl_append, List.foldl_append, List.foldl_append]
  intro h
  have hreg := foldl_feed_injective poly hpoly s h
  rw [foldl_feed poly (x := x) _ hx, foldl_feed poly (x := y) _ (hlen ▸ hx), ← hlen] at hreg
  have hword := (BitVec.xor_right_inj _).mp (shifts_injective poly hpoly x.length hreg)
  exact hne (pack_injective hlen hx hword)

end ShiftRegister
