import Linglongta.Crc32
import Linglongta.Foundations.ShiftRegister

/-!
# What the table of `crc32_calc` computes

The 256 words of `crc32_tab` are the feedback terms of the shift register with the word
`0xedb88320`, eight moves for each byte, so the loop of `crc32_calc` leaves the register that
taking in the buffer bit by bit would leave.  The top bit of the word is set: the sum of a buffer
changes whenever at most 32 consecutive bits of it do.
-/

namespace Linglongta

open ShiftRegister

/-- The feedback word of `crc32.c`. -/
def crc32Poly : BitVec 32 := 0xedb88320

/-- The bits of a byte, the lowest first. -/
def byteBits (byte : UInt8) : List Bool := (List.range 8).map byte.toBitVec.getLsbD

/-- The bits of a buffer in the order in which the checksum takes them in. -/
def bufferBits (buf : List UInt8) : List Bool := buf.flatMap byteBits

/-- The checksum without the table: the register takes in one bit after the other. -/
def crc32Bitwise (buf : List UInt8) : UInt32 :=
  ⟨(bufferBits buf).foldl (feed crc32Poly) 0xffffffff ^^^ 0xffffffff⟩

/-- Each word of the table is eight moves of the byte it stands for. -/
lemma crc32Tab_eq_shifts :
    ∀ i < 256, (crc32Tab.getD i 0).toBitVec = shifts crc32Poly 8 (BitVec.ofNat 32 i) := by
  decide +kernel

lemma pack_byteBits (byte : UInt8) : pack (byteBits byte) = byte.toBitVec.setWidth 32 := by
  apply BitVec.eq_of_getLsbD_eq
  intro i hi
  rw [getLsbD_pack, BitVec.getLsbD_setWidth]
  rcases Nat.lt_or_ge i 8 with hlt | hge
  · simp [byteBits, hlt]
  · rw [List.getD_eq_default _ _ (by simpa [byteBits] using hge),
      BitVec.getLsbD_of_ge _ i hge]

/-- One round of the loop takes in the eight bits of its byte. -/
lemma crc32Step_eq_feed (crc : UInt32) (byte : UInt8) :
    (crc32Step crc byte).toBitVec = (byteBits byte).foldl (feed crc32Poly) crc.toBitVec := by
  -- nothing of the byte is left when the register has moved eight places
  have hbyte : byte.toBitVec.setWidth 32 >>> 8 = 0#32 := by
    apply BitVec.eq_of_getLsbD_eq
    intro i _
    rw [BitVec.getLsbD_ushiftRight, BitVec.getLsbD_setWidth,
      BitVec.getLsbD_of_ge _ (8 + i) (by omega)]
    simp
  have hindex : ((crc ^^^ byte.toUInt32) &&& 0xff).toNat < 256 := by
    rw [UInt32.toNat_and]
    exact Nat.lt_of_le_of_lt Nat.and_le_right (by decide)
  have hfeed := foldl_feed crc32Poly crc.toBitVec (x := byteBits byte) (by simp [byteBits])
  rw [show (byteBits byte).length = 8 by simp [byteBits], pack_byteBits, shifts_split,
    BitVec.ushiftRight_xor_distrib, hbyte, BitVec.xor_zero] at hfeed
  rw [hfeed, crc32Step, UInt32.toBitVec_xor, crc32Tab_eq_shifts _ hindex,
    ← UInt32.toNat_toBitVec]
  congr 2
  rw [BitVec.ofNat_toNat, BitVec.setWidth_eq]
  rfl

/-- The register that the loop of `crc32_calc` leaves. -/
lemma foldl_crc32Step (crc : UInt32) (buf : List UInt8) :
    (buf.foldl crc32Step crc).toBitVec =
      (bufferBits buf).foldl (feed crc32Poly) crc.toBitVec := by
  induction buf generalizing crc with
  | nil => rfl
  | cons byte buf ih =>
    rw [List.foldl_cons, ih, crc32Step_eq_feed, bufferBits, bufferBits, List.flatMap_cons,
      List.foldl_append]

lemma crc32Calc_toBitVec (buf : List UInt8) :
    (crc32Calc buf).toBitVec =
      (bufferBits buf).foldl (feed crc32Poly) 0xffffffff ^^^ 0xffffffff := by
  rw [crc32Calc, UInt32.toBitVec_xor, foldl_crc32Step]
  rfl

/-- The loop over the table and the bit-by-bit checksum agree on every buffer. -/
theorem crc32Calc_eq_bitwise (buf : List UInt8) : crc32Calc buf = crc32Bitwise buf :=
  UInt32.toBitVec_inj.mp (crc32Calc_toBitVec buf)

/-- Buffers whose bits differ only in a run of at most 32 of them have different sums. -/
theorem crc32Calc_ne_of_burst {buf buf' : List UInt8} {p x y s : List Bool}
    (hbuf : bufferBits buf = p ++ x ++ s) (hbuf' : bufferBits buf' = p ++ y ++ s)
    (hlen : x.length = y.length) (hx : x.length ≤ 32) (hne : x ≠ y) :
    crc32Calc buf ≠ crc32Calc buf' := by
  intro h
  have hreg := congrArg UInt32.toBitVec h
  rw [crc32Calc_toBitVec, crc32Calc_toBitVec, hbuf, hbuf'] at hreg
  exact foldl_feed_ne_of_burst crc32Poly (by decide) _ hlen hx hne
    ((BitVec.xor_left_inj _).mp hreg)

/-- A byte of a record of three that loses its last bits. -/
theorem crc32Calc_ne_of_burst_byte :
    bufferBits [7, 255, 1] ≠ bufferBits [7, 31, 1] ∧ crc32Calc [7, 255, 1] ≠ crc32Calc [7, 31, 1] :=
  ⟨by decide, crc32Calc_ne_of_burst (p := bufferBits [7] ++ List.replicate 5 true)
    (x := [true, true, true]) (y := [false, false, false]) (s := bufferBits [1])
    (by decide) (by decide) rfl (by decide) (by decide)⟩

end Linglongta
