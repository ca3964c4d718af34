import Linglongta.Foundations.Bytes
import Mathlib.Data.List.GetD

/-!
# Random-access byte files

A `ByteFile` is a regular file as `pread` and `pwrite` see it: a size and a byte at every offset,
zero beyond the size, so that a write past the end leaves a hole that reads as zeros.
`pread f off len` returns the bytes of the range that lie inside the file and `pwrite f off data`
replaces or extends.  The laws below say that a range reads back what was last written to it
(`pread_pwrite_self`) and that a write outside a range that could be read completely does not
change it (`pread_pwrite_of_disjoint`).
-/

/-- A regular file: its size and its bytes. -/
structure ByteFile where
  /-- The size of the file. -/
  size : ℕ
  /-- The byte at an offset. -/
  byte : ℕ → UInt8
  /-- There is nothing beyond the end. -/
  beyond : ∀ i, size ≤ i → byte i = 0

namespace ByteFile

/-- The empty file. -/
def empty : ByteFile where
  size := 0
  byte := fun _ => 0
  beyond := fun _ _ => rfl

/-- The bytes of the range `[off, off + len)` that lie inside the file. -/
def pread (f : ByteFile) (off len : ℕ) : List UInt8 :=
  (List.range (min len (f.size - off))).map fun i => f.byte (off + i)

/-- The file after `data` has been written at `off`; writing nothing does nothing. -/
def pwrite (f : ByteFile) (off : ℕ) (data : List UInt8) : ByteFile where
  size := if data = [] then f.size else max f.size (off + data.length)
  byte := fun i => if off ≤ i ∧ i < off + data.length then data.getD (i - off) 0 else f.byte i
  beyond := by
    intro i hi
    have hdata : f.size ≤ i ∧ (off + data.length ≤ i ∨ data.length = 0) := by
      by_cases h : data = []
      · rw [if_pos h] at hi
        exact ⟨hi, Or.inr (by simp [h])⟩
      · rw [if_neg h] at hi
        exact ⟨by omega, Or.inl (by omega)⟩
    rw [if_neg (by omega)]
    exact f.beyond i hdata.1

/-- The file after `n` zero bytes have been written at its start. -/
def fill (f : ByteFile) (n : ℕ) : ByteFile where
  size := max f.size n
  byte := fun i => if i < n then 0 else f.byte i
  beyond := by
    intro i hi
    have hsize : f.size ≤ i := by omega
    split
    · rfl
    · exact f.beyond i hsize

/-- The eight-byte word at an offset. -/
def word (f : ByteFile) (off : ℕ) : ℕ :=
  Bytes.ofLE (f.pread off 8)

/-! ## Reading back -/

/-- A read stops at the end of the file. -/
@[simp] lemma length_pread (f : ByteFile) (off len : ℕ) :
    (f.pread off len).length = min len (f.size - off) := by
  simp [pread]

/-- A read of nothing returns nothing. -/
@[simp] lemma pread_zero (f : ByteFile) (off : ℕ) : f.pread off 0 = [] := by
  simp [pread]

/-- A read that returns as many bytes as asked for lies inside the file. -/
lemma length_pread_eq_iff {f : ByteFile} {off len : ℕ} :
    (f.pread off len).length = len ↔ len = 0 ∨ off + len ≤ f.size := by
  rw [length_pread]
  omega

/-- A write never shrinks the file. -/
lemma size_le_pwrite (f : ByteFile) (off : ℕ) (data : List UInt8) :
    f.size ≤ (f.pwrite off data).size := by
  simp only [pwrite]
  split
  · exact le_rfl
  · exact le_max_left _ _

/-- Writing nothing changes nothing. -/
@[simp] lemma pwrite_nil (f : ByteFile) (off : ℕ) : f.pwrite off [] = f := by
  cases f with
  | mk size byte beyond =>
    have hbyte : (fun i => if off ≤ i ∧ i < off + 0 then (0 : UInt8) else byte i) = byte := by
      funext i
      rw [if_neg (by omega)]
    simpa [pwrite] using hbyte

/-- A range reads back what has just been written to it. -/
lemma pread_pwrite_self (f : ByteFile) (off : ℕ) (data : List UInt8) :
    (f.pwrite off data).pread off data.length = data := by
  by_cases h : data = []
  · simp [h]
  · have hlen : min data.length ((f.pwrite off data).size - off) = data.length := by
      simp only [pwrite, if_neg h]
      omega
    refine List.ext_getElem (by rw [length_pread, hlen]) fun i hi hi' => ?_
    have hin : off ≤ off + i ∧ off + i < off + data.length := by omega
    simp [pread, pwrite, hi']

/-- A write outside a range that lies inside the file does not change the range. -/
lemma pread_pwrite_of_disjoint {f : ByteFile} {off off' len : ℕ} {data : List UInt8}
    (hin : off' + len ≤ f.size) (hdisj : off' + len ≤ off ∨ off + data.length ≤ off') :
    (f.pwrite off data).pread off' len = f.pread off' len := by
  have hsize := size_le_pwrite f off data
  have hlen : min len ((f.pwrite off data).size - off') = min len (f.size - off') := by omega
  unfold pread
  rw [hlen]
  refine List.map_congr_left fun i hi => ?_
  have hi' : i < min len (f.size - off') := List.mem_range.mp hi
  simp only [pwrite]
  rw [if_neg (by omega)]

/-- A range that holds `data` still holds it after a write elsewhere. -/
lemma pread_pwrite_eq_of_disjoint {f : ByteFile} {off off' : ℕ} {data data' : List UInt8}
    (hread : f.pread off' data'.length = data')
    (hdisj : off' + data'.length ≤ off ∨ off + data.length ≤ off') :
    (f.pwrite off data).pread off' data'.length = data' := by
  rcases length_pread_eq_iff.mp (congrArg List.length hread) with h | h
  · rw [h, pread_zero]
    exact (List.eq_nil_of_length_eq_zero h).symm
  · rw [pread_pwrite_of_disjoint h hdisj, hread]

/-- A read of two pieces, the first of which lies inside the file. -/
lemma pread_add {f : ByteFile} {off n : ℕ} (m : ℕ) (hin : off + n ≤ f.size) :
    f.pread off (n + m) = f.pread off n ++ f.pread (off + n) m := by
  have h1 : min (n + m) (f.size - off) = n + min m (f.size - (off + n)) := by omega
  have h2 : min n (f.size - off) = n := by omega
  simp only [pread, h1, h2, List.range_add, List.map_append, List.map_map]
  congr 1
  refine List.map_congr_left fun i _ => ?_
  simp [Nat.add_assoc]

/-- A write does not change what stands behind it. -/
lemma pread_pwrite_behind (f : ByteFile) (off : ℕ) (data : List UInt8) (off' len : ℕ)
    (h : off + data.length ≤ off') : (f.pwrite off data).pread off' len = f.pread off' len := by
  have hsize : (f.pwrite off data).size - off' = f.size - off' := by
    simp only [pwrite]
    split <;> omega
  unfold pread
  rw [hsize]
  refine List.map_congr_left fun i _ => ?_
  simp only [pwrite]
  rw [if_neg (by omega)]

/-- After a write of the first `n` bytes of `data` the whole of `data` can be read if the rest was
there before. -/
lemma pread_pwrite_take_iff (f : ByteFile) (off : ℕ) {data : List UInt8} {n : ℕ}
    (hn : n ≤ data.length) :
    (f.pwrite off (data.take n)).pread off data.length = data ↔
      f.pread (off + n) (data.length - n) = data.drop n := by
  have hlen : (data.take n).length = n := List.length_take_of_le hn
  have hbehind := pread_pwrite_behind f off (data.take n) (off + n) (data.length - n)
    (by omega)
  have hself := pread_pwrite_self f off (data.take n)
  rw [hlen] at hself
  rcases Nat.eq_zero_or_pos n with rfl | hpos
  · simp
  · have hin : off + n ≤ (f.pwrite off (data.take n)).size := by
      rcases length_pread_eq_iff.1 (by rw [hself, hlen] :
        ((f.pwrite off (data.take n)).pread off n).length = n) with h | h
      · omega
      · exact h
    have hsplit := pread_add (data.length - n) hin
    rw [Nat.add_sub_cancel' hn, hself, hbehind] at hsplit
    rw [hsplit]
    constructor
    · intro h
      have := congrArg (List.drop n) h
      rwa [List.drop_left' hlen] at this
    · intro h
      rw [h, List.take_append_drop]

/-! ## Words -/

/-- A word reads back what has just been written to it, if it fits. -/
lemma word_pwrite_self (f : ByteFile) (off : ℕ) {n : ℕ} (hn : n < 256 ^ 8) :
    (f.pwrite off (Bytes.toLE 8 n)).word off = n := by
  have h := pread_pwrite_self f off (Bytes.toLE 8 n)
  rw [Bytes.length_toLE] at h
  rw [word, h, Bytes.ofLE_toLE hn]

/-- A write outside a word that lies inside the file does not change the word. -/
lemma word_pwrite_of_disjoint {f : ByteFile} {off off' : ℕ} {data : List UInt8}
    (hin : off' + 8 ≤ f.size) (hdisj : off' + 8 ≤ off ∨ off + data.length ≤ off') :
    (f.pwrite off data).word off' = f.word off' := by
  rw [word, word, pread_pwrite_of_disjoint hin hdisj]

/-- The words that have been filled are zero. -/
lemma word_fill {f : ByteFile} {n off : ℕ} (hoff : off + 8 ≤ n) : (f.fill n).word off = 0 := by
  have hlen : min 8 ((f.fill n).size - off) = 8 := by
    have hsize : n ≤ (f.fill n).size := le_max_right _ _
    omega
  have hread : (f.fill n).pread off 8 = Bytes.toLE 8 0 := by
    unfold pread
    rw [hlen]
    refine List.ext_getElem (by simp) fun i h₁ h₂ => ?_
    have hi : off + i < n := by
      rw [List.length_map, List.length_range] at h₁
      omega
    have hzero : Bytes.toLE 8 0 = List.replicate 8 0 := by decide
    simp only [List.getElem_map, List.getElem_range, hzero, List.getElem_replicate]
    simp [fill, hi]
  rw [word, hread, Bytes.ofLE_toLE (by decide)]

/-- A write of two pieces is the write of the second after that of the first. -/
lemma pwrite_append (f : ByteFile) (off : ℕ) (a b : List UInt8) :
    f.pwrite off (a ++ b) = (f.pwrite off a).pwrite (off + a.length) b := by
  have hsize : (f.pwrite off (a ++ b)).size =
      ((f.pwrite off a).pwrite (off + a.length) b).size := by
    simp only [pwrite, List.append_eq_nil_iff, List.length_append]
    by_cases ha : a = [] <;> by_cases hb : b = [] <;> simp [ha, hb]
    have : 0 < b.length := List.length_pos_of_ne_nil hb
    omega
  have hbyte : (f.pwrite off (a ++ b)).byte =
      ((f.pwrite off a).pwrite (off + a.length) b).byte := by
    funext i
    simp only [pwrite, List.length_append]
    by_cases h1 : off + a.length ≤ i ∧ i < off + a.length + b.length
    · rw [if_pos (by omega), if_pos h1, List.getD_append_right _ _ _ _ (by omega)]
      congr 1
      omega
    · rw [if_neg h1]
      by_cases h2 : off ≤ i ∧ i < off + a.length
      · rw [if_pos (by omega), if_pos h2, List.getD_append _ _ _ _ (by omega)]
      · rw [if_neg (by omega), if_neg h2]
  cases h1 : f.pwrite off (a ++ b)
  cases h2 : (f.pwrite off a).pwrite (off + a.length) b
  rw [h1, h2] at hsize hbyte
  simp_all

end ByteFile
