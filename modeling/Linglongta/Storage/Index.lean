import Linglongta.Foundations.Bytes
import Linglongta.Crc32

/-!
# Index keys and index values

The types of `storage.h` that the index, the journal and the block files share.  A record is filed
under a key of exactly `KEY_LEN` bytes, whatever the length of the key the caller gives:
`fixedKey` is the normalisation that `update_block`, `find_block` and `delete_block` each perform
on their own.

Sizes, counters and offsets are natural numbers here.  The index and the journal hold the 24-byte
memory image of `struct index_value_t`, which is `IndexValue.image`.
-/

namespace Linglongta

/-- `KEY_LEN`. -/
def keyLen : ℕ := 16

/-- `union index_key_t`: sixteen bytes. -/
abbrev Key : Type := Blob keyLen

/-- The normalised key: `fixed_key_buffer` after the `memcpy` of the first `KEY_LEN` bytes of the
caller's key into a zeroed buffer. -/
def fixedKey (key : List UInt8) : Key :=
  Blob.copy keyLen key

/-- `struct index_value_t`. -/
structure IndexValue where
  /-- The CRC32 of the record. -/
  crc32 : UInt32
  /-- The block file that holds the record. -/
  blockId : ℕ
  /-- The length of the record. -/
  dataSize : ℕ
  /-- The offset of its slot in the block file. -/
  offset : ℕ
deriving DecidableEq

/-- `sizeof(struct index_value_t)`: two four-byte and two eight-byte fields, without padding. -/
def indexValueSize : ℕ := 24

/-- The memory image of an index value, which is what `insert_record` and the journal store. -/
def IndexValue.image (iv : IndexValue) : Blob indexValueSize where
  bytes := Bytes.toLE 4 iv.crc32.toNat ++ Bytes.toLE 4 iv.blockId ++ Bytes.toLE 8 iv.dataSize ++
    Bytes.toLE 8 iv.offset
  size_eq := by simp [indexValueSize]

end Linglongta
