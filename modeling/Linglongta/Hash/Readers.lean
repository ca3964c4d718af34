import Linglongta.Hash.Bobhash

/-!
# The three ways to read a key

`keyWord mem p n` is the little-endian word of the first `n` of the four bytes at an offset, with
zeros in place of the others, and `absorb` adds three of them to the internal state.  This is what
each of the three ways to read a block does (`keyReader_block`, `keyReader_lastBlock`), although
they load different bytes.  So the loop of `hashlittle2` may be replaced by the one over padded
words (`hashBlocks_keyReader`), which reads nothing behind the key (`hashBlocks_congr`) and is
reversible (`hashBlocks_injective`).
-/

namespace Linglongta

/-! ## Padded words -/

/-- The word of the first `n` bytes at an offset, four at most. -/
def keyWord (mem : Memory) (p n : ℕ) : UInt32 :=
  UInt32.ofNat (Bytes.ofLE ((List.range (min 4 n)).map fun i => mem (p + i)))

section KeyWord

variable {mem mem' : Memory} {p n : ℕ}

@[simp] lemma keyWord_zero : keyWord mem p 0 = 0 := rfl

/-- More than four bytes are the same as four. -/
lemma keyWord_of_le (hn : 4 ≤ n) : keyWord mem p n = keyWord mem p 4 := by
  rw [keyWord, keyWord, Nat.min_eq_left hn, Nat.min_self]

/-- A word depends on its bytes only. -/
lemma keyWord_congr (h : ∀ i < n, mem (p + i) = mem' (p + i)) :
    keyWord mem p n = keyWord mem' p n := by
  unfold keyWord
  congr 2
  refine List.map_congr_left fun i hi => h i ?_
  have := List.mem_range.1 hi
  omega

/-- The bytes at an offset, in two parts. -/
lemma keyBytes_add (mem : Memory) (p m n : ℕ) :
    (List.range (m + n)).map (fun i => mem (p + i)) =
      (List.range m).map (fun i => mem (p + i)) ++
        (List.range n).map (fun i => mem (p + m + i)) := by
  rw [List.range_add, List.map_append, List.map_map]
  congr 1
  refine List.map_congr_left fun i _ => ?_
  simp only [Function.comp_apply, Nat.add_assoc]

/-- The bytes behind the first `m` ones are added at their place. -/
lemma keyWord_add {m : ℕ} (hn : 0 < n) (hm : m + n ≤ 4) :
    keyWord mem p (m + n) =
      keyWord mem p m + (keyWord mem (p + m) n <<< UInt32.ofNat (8 * m)) := by
  rw [keyWord, keyWord, keyWord, Nat.min_eq_right hm, Nat.min_eq_right (by omega : m ≤ 4),
    Nat.min_eq_right (by omega : n ≤ 4), keyBytes_add, Bytes.ofLE_append, UInt32.ofNat_add,
    List.length_map, List.length_range, UInt32.ofNat_shiftLeft _ _ (by omega)]

/-- The next byte of a word. -/
lemma keyWord_succ (hn : n < 4) :
    keyWord mem p (n + 1) =
      keyWord mem p n + (keyWord mem (p + n) 1 <<< UInt32.ofNat (8 * n)) :=
  keyWord_add (by decide) hn

/-- Two halves of a word. -/
lemma keyWord_halves : keyWord mem p 2 + (keyWord mem (p + 2) 2 <<< 16) = keyWord mem p 4 :=
  (keyWord_add (m := 2) (n := 2) (by decide) (by decide)).symm

/-- The third byte of a word and its first half, added one after the other. -/
lemma add_byte_add_half (x : UInt32) :
    x + (keyWord mem (p + 2) 1 <<< 16) + keyWord mem p 2 = x + keyWord mem p 3 := by
  rw [UInt32.add_assoc, UInt32.add_comm (_ <<< _)]
  exact congrArg (x + ·) (keyWord_succ (n := 2) (by decide)).symm

/-- A mask keeps the low bytes of a word. -/
lemma keyWord_and (mem : Memory) (p : ℕ) (hn : n < 4) :
    keyWord mem p 4 &&& UInt32.ofNat (2 ^ (8 * n) - 1) = keyWord mem p n := by
  have hsplit := keyBytes_add mem p n (4 - n)
  rw [Nat.add_sub_cancel' hn.le] at hsplit
  have hlow := Bytes.ofLE_lt ((List.range n).map fun i => mem (p + i))
  have hword := Bytes.ofLE_lt ((List.range 4).map fun i => mem (p + i))
  rw [List.length_map, List.length_range] at hlow hword
  have hmask : 2 ^ (8 * n) ≤ 2 ^ 32 := Nat.pow_le_pow_right (by decide) (by omega)
  apply UInt32.toNat_inj.1
  rw [keyWord, keyWord, Nat.min_self, Nat.min_eq_right hn.le, UInt32.toNat_and,
    UInt32.toNat_ofNat', UInt32.toNat_ofNat', UInt32.toNat_ofNat', Nat.mod_eq_of_lt hword,
    Nat.mod_eq_of_lt (by omega : 2 ^ (8 * n) - 1 < 2 ^ 32), Nat.and_two_pow_sub_one_eq_mod,
    hsplit, Bytes.ofLE_append, List.length_map, List.length_range, Nat.shiftLeft_eq,
    Nat.add_mul_mod_self_right, Nat.mod_eq_of_lt hlow, Nat.mod_eq_of_lt (hlow.trans_le hmask)]

lemma keyWord_and_three : keyWord mem p 4 &&& 0xffffff = keyWord mem p 3 :=
  keyWord_and mem p (n := 3) (by decide)

lemma keyWord_and_two : keyWord mem p 4 &&& 0xffff = keyWord mem p 2 :=
  keyWord_and mem p (n := 2) (by decide)

lemma keyWord_and_one : keyWord mem p 4 &&& 0xff = keyWord mem p 1 :=
  keyWord_and mem p (n := 1) (by decide)

lemma load32_eq : load32 mem p = keyWord mem p 4 := rfl

lemma load16_eq : load16 mem p = keyWord mem p 2 := rfl

lemma load8_eq : load8 mem p = keyWord mem p 1 := by
  simp [keyWord, load8, Bytes.ofLE]

end KeyWord

/-! ## What a block adds -/

/-- The additions of a block of `n` bytes, twelve at most. -/
def HashState.absorb (s : HashState) (mem : Memory) (p n : ℕ) : HashState :=
  ⟨s.a + keyWord mem p n, s.b + keyWord mem (p + 4) (n - 4), s.c + keyWord mem (p + 8) (n - 8)⟩

section Absorb

variable {mem mem' : Memory} {p n : ℕ}

/-- Nothing is added for an empty block. -/
lemma absorb_zero (s : HashState) : s.absorb mem p 0 = s := by
  simp [HashState.absorb]

/-- The additions of a block are reversible. -/
lemma absorb_injective (mem : Memory) (p n : ℕ) :
    Function.Injective fun s : HashState => s.absorb mem p n := by
  intro s t heq
  obtain ⟨ha, hb, hc⟩ := HashState.mk.inj heq
  exact HashState.ext ((UInt32.add_left_inj _).1 ha) ((UInt32.add_left_inj _).1 hb)
    ((UInt32.add_left_inj _).1 hc)

/-- The additions of a block depend on its bytes only. -/
lemma absorb_congr (s : HashState) (h : ∀ i < n, mem (p + i) = mem' (p + i)) :
    s.absorb mem p n = s.absorb mem' p n := by
  have hb : keyWord mem (p + 4) (n - 4) = keyWord mem' (p + 4) (n - 4) := by
    refine keyWord_congr fun i hi => ?_
    rw [Nat.add_assoc]
    exact h (4 + i) (by omega)
  have hc : keyWord mem (p + 8) (n - 8) = keyWord mem' (p + 8) (n - 8) := by
    refine keyWord_congr fun i hi => ?_
    rw [Nat.add_assoc]
    exact h (8 + i) (by omega)
  rw [HashState.absorb, HashState.absorb, keyWord_congr h, hb, hc]

/-- The next byte of a block, for the word at offset `q` of the block: it belongs to this word or
to another one, for which nothing changes. -/
lemma keyWord_sub_succ (mem : Memory) (p q n : ℕ) :
    keyWord mem (p + q) (n + 1 - q) = keyWord mem (p + q) (n - q) +
      (if q ≤ n ∧ n < q + 4 then
        keyWord mem (p + n) 1 <<< UInt32.ofNat (8 * (n - q)) else 0) := by
  split
  · next h =>
    obtain ⟨k, rfl⟩ := Nat.exists_eq_add_of_le h.1
    rw [Nat.add_assoc q, Nat.add_sub_cancel_left, Nat.add_sub_cancel_left, ← Nat.add_assoc p]
    exact keyWord_succ (by omega)
  · next h =>
    rw [UInt32.add_zero]
    rcases Nat.lt_or_ge n q with hlt | hge
    · rw [Nat.sub_eq_zero_of_le hlt, Nat.sub_eq_zero_of_le hlt.le]
    · rw [keyWord_of_le (by omega), keyWord_of_le (n := n - q) (by omega)]

/-- A block of one byte more adds the byte at its place. -/
lemma absorb_succ (s : HashState) (hn : n < 12) :
    s.absorb mem p (n + 1) = (s.absorb mem p n).addByte n (load8 mem (p + n)) := by
  have ha := keyWord_sub_succ mem p 0 n
  have hb := keyWord_sub_succ mem p 4 n
  have hc := keyWord_sub_succ mem p 8 n
  rw [load8_eq, HashState.absorb, HashState.absorb, hb, hc]
  rw [Nat.add_zero, Nat.sub_zero, Nat.sub_zero] at ha
  rw [ha]
  unfold HashState.addByte HashState.addA HashState.addB HashState.addC
  by_cases h4 : n < 4
  · have hmod : n % 4 = n := Nat.mod_eq_of_lt h4
    simp [h4, hmod, UInt32.add_assoc, Nat.not_le.2 h4, Nat.not_le.2 (h4.trans (by decide : 4 < 8))]
  · by_cases h8 : n < 8
    · have hmod : n % 4 = n - 4 := by omega
      simp [h4, h8, hmod, UInt32.add_assoc, Nat.not_lt.1 h4, Nat.not_le.2 h8]
    · have hmod : n % 4 = n - 8 := by omega
      simp [h4, h8, hmod, UInt32.add_assoc, Nat.not_lt.1 h8, hn]

end Absorb

/-- The reader of padded words. -/
def KeyReader.padded : KeyReader where
  block mem p s := s.absorb mem p 12
  lastBlock mem p n s := s.absorb mem p n

section Readers

variable {mem : Memory} {p n : ℕ}

lemma words_block (s : HashState) : KeyReader.words.block mem p s = s.absorb mem p 12 := by
  simp [KeyReader.words, HashState.absorb, HashState.addA, HashState.addB, HashState.addC,
    load32_eq, keyWord_of_le]

lemma words_lastBlock (s : HashState) (hn : n ≤ 12) :
    KeyReader.words.lastBlock mem p n s = s.absorb mem p n := by
  interval_cases n <;>
    simp [KeyReader.words, HashState.absorb, HashState.addA, HashState.addB, HashState.addC,
      load32_eq, keyWord_and_one, keyWord_and_two, keyWord_and_three, keyWord_of_le]

lemma halfWords_block (s : HashState) : KeyReader.halfWords.block mem p s = s.absorb mem p 12 := by
  simp [KeyReader.halfWords, HashState.absorb, HashState.addA, HashState.addB, HashState.addC,
    load16_eq, keyWord_of_le, keyWord_halves]

lemma halfWords_lastBlock (s : HashState) (hn : n ≤ 12) :
    KeyReader.halfWords.lastBlock mem p n s = s.absorb mem p n := by
  interval_cases n <;>
    simp [KeyReader.halfWords, HashState.absorb, HashState.addA, HashState.addB, HashState.addC,
      load16_eq, load8_eq, keyWord_halves, add_byte_add_half, keyWord_of_le]

lemma lastBytes_eq (s : HashState) (hn : n ≤ 12) :
    KeyReader.lastBytes mem p n s = s.absorb mem p n := by
  -- the bytes are added from the last one on, and the additions to a word commute
  have hcomm : ∀ (s : HashState) (m i : ℕ) (x : UInt32),
      (s.addByte i x).absorb mem p m = (s.absorb mem p m).addByte i x := by
    intro s m i x
    unfold HashState.addByte HashState.addA HashState.addB HashState.addC HashState.absorb
    split_ifs <;> simp only [UInt32.add_assoc, UInt32.add_comm (_ <<< _)]
  induction n generalizing s with
  | zero => exact (absorb_zero s).symm
  | succ n ih => rw [KeyReader.lastBytes, ih _ (by omega), hcomm, absorb_succ s (by omega)]

lemma bytes_block (s : HashState) : KeyReader.bytes.block mem p s = s.absorb mem p 12 := by
  have hfold : ∀ m ≤ 12, (List.range m).foldl (fun s i => s.addByte i (load8 mem (p + i))) s =
      s.absorb mem p m := by
    intro m hm
    induction m with
    | zero => exact (absorb_zero s).symm
    | succ m ih =>
      rw [List.range_succ, List.foldl_append, ih (by omega), List.foldl_cons, List.foldl_nil,
        absorb_succ s (by omega)]
  exact hfold 12 le_rfl

/-- Every reader adds the words of a block of twelve bytes. -/
lemma keyReader_block (addr : ℕ) (s : HashState) :
    (keyReader addr).block mem p s = s.absorb mem p 12 := by
  unfold keyReader
  split_ifs
  · exact words_block s
  · exact halfWords_block s
  · exact bytes_block s

/-- Every reader adds the padded words of the last block. -/
lemma keyReader_lastBlock (addr : ℕ) (s : HashState) (hn : n ≤ 12) :
    (keyReader addr).lastBlock mem p n s = s.absorb mem p n := by
  unfold keyReader
  split_ifs
  · exact words_lastBlock s hn
  · exact halfWords_lastBlock s hn
  · exact lastBytes_eq s hn

end Readers

/-! ## The whole key -/

section Key

variable {mem mem' : Memory}

/-- The loop over padded words. -/
lemma hashBlocks_padded (mem : Memory) (p length : ℕ) (s : HashState) :
    hashBlocks KeyReader.padded mem p length s =
      if 12 < length then
        hashBlocks KeyReader.padded mem (p + 12) (length - 12) (mix (s.absorb mem p 12))
      else if length = 0 then s
      else final (s.absorb mem p length) := by
  rw [hashBlocks]
  rfl

/-- `hashlittle2` takes up the padded words of the key, whatever the alignment. -/
lemma hashBlocks_keyReader (addr p length : ℕ) (s : HashState) :
    hashBlocks (keyReader addr) mem p length s = hashBlocks KeyReader.padded mem p length s := by
  fun_induction hashBlocks (keyReader addr) mem p length s with
  | case1 p length s hlen ih => rw [ih, keyReader_block, hashBlocks_padded mem p, if_pos hlen]
  | case2 p s hlen => rw [hashBlocks_padded, if_neg hlen, if_pos rfl]
  | case3 p length s hlen hzero =>
    rw [hashBlocks_padded, if_neg hlen, if_neg hzero,
      keyReader_lastBlock addr s (Nat.not_lt.1 hlen)]

/-- Nothing is read behind the key. -/
lemma hashBlocks_congr (p length : ℕ) (s : HashState)
    (h : ∀ i < length, mem (p + i) = mem' (p + i)) :
    hashBlocks KeyReader.padded mem p length s = hashBlocks KeyReader.padded mem' p length s := by
  induction length using Nat.strong_induction_on generalizing p s with
  | _ length ih =>
    rw [hashBlocks_padded mem p, hashBlocks_padded mem' p]
    split_ifs with hlen hzero
    · have hrest : ∀ i < length - 12, mem (p + 12 + i) = mem' (p + 12 + i) := by
        intro i hi
        rw [Nat.add_assoc]
        exact h (12 + i) (by omega)
      rw [absorb_congr s fun i hi => h i (hi.trans hlen)]
      exact ih (length - 12) (by omega) (p + 12) _ hrest
    · rfl
    · rw [absorb_congr s h]

/-- The internal state in front of a key can be read off the one behind it. -/
lemma hashBlocks_injective (mem : Memory) (p length : ℕ) :
    Function.Injective (hashBlocks KeyReader.padded mem p length) := by
  induction length using Nat.strong_induction_on generalizing p with
  | _ length ih =>
    intro s t heq
    rw [hashBlocks_padded mem p length s, hashBlocks_padded mem p length t] at heq
    split_ifs at heq with hlen hzero
    · have hmix := ih (length - 12) (by omega) (p + 12) heq
      exact absorb_injective mem p 12 (mix_injective hmix)
    · exact heq
    · exact absorb_injective mem p length (final_injective heq)

end Key

end Linglongta
