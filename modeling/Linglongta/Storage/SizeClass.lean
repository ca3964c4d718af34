import Linglongta.Storage.Sessions

/-!
# Size classes

The table of block sizes is computed three times: `init_storage` doubles a `size_t`,
`calc_block_size` doubles an `int` and compares it with the size of the data converted to `int`, and
`find_block_file` looks for the result in the table.  `Config.Doubling` says what the table is, and
`sizeClass_cases` what the last two come to: the least block file that holds the *converted* size.

The conversion keeps a size below `2 ^ 31`.  A larger size fits no block file, and is found to fit
none only if its low 32 bits, read as an `int`, still exceed the largest block size; otherwise a
block file is chosen that is too small, and the assertion of `append_block` stops the process
(`size_class_right_iff`).
-/

namespace Linglongta

open Prog

/-! ## The table -/

/-- A table of block sizes as `init_storage` makes it. -/
structure Config.Doubling (cfg : Config) : Prop where
  /-- The table is not longer than its array. -/
  types : cfg.blockTypeCount ≤ maxBlockCnt
  /-- The block sizes. -/
  sizes : ∀ b < cfg.blockTypeCount, cfg.blockSizeArray b = beginningSize * 2 ^ b

lemma tableOf_doubling (largest : ℕ) : (tableOf largest).Doubling :=
  ⟨(tableOf_spec largest).1, (tableOf_spec largest).2.1⟩

lemma Usable.doubling {w : World} (hu : Usable w) : w.config.Doubling :=
  ⟨hu.types, hu.sizes⟩

/-- There is a block file, whatever the largest size is. -/
lemma tableOf_pos (largest : ℕ) : 0 < (tableOf largest).blockTypeCount := by
  refine ((tableOf_spec largest).2.2 0).2 ⟨by decide, ?_⟩
  have hsmall : beginningSize ≤ largestSize := by decide
  unfold effectiveSize
  split
  · omega
  · omega

/-! ## The three functions -/

/-- What the loop of `calc_block_size` finds in the rounds that are left: the first size that is not
exceeded. -/
lemma calcBlockSizeLoop_cases (d : Int) (n i : ℕ) :
    (∃ j, i ≤ j ∧ j < i + n ∧
      calcBlockSizeLoop d n ((beginningSize * 2 ^ i : ℕ) : Int) =
        ((beginningSize * 2 ^ j : ℕ) : Int) ∧
      d ≤ ((beginningSize * 2 ^ j : ℕ) : Int) ∧
      ∀ l, i ≤ l → l < j → ((beginningSize * 2 ^ l : ℕ) : Int) < d) ∨
    (calcBlockSizeLoop d n ((beginningSize * 2 ^ i : ℕ) : Int) = -1 ∧
      ∀ l, i ≤ l → l < i + n → ((beginningSize * 2 ^ l : ℕ) : Int) < d) := by
  induction n generalizing i with
  | zero => exact Or.inr ⟨rfl, fun l hl hlt => absurd hlt (by omega)⟩
  | succ n ih =>
    rw [calcBlockSizeLoop]
    split
    · rename_i hle
      exact Or.inl ⟨i, le_rfl, by omega, rfl, hle, fun l hl hlt => absurd hlt (by omega)⟩
    · rename_i hgt
      have hdouble : ((beginningSize * 2 ^ i : ℕ) : Int) * 2 =
          ((beginningSize * 2 ^ (i + 1) : ℕ) : Int) := by
        push_cast
        ring
      -- the sizes before the next round are exceeded, that of this round included
      have hbelow : ∀ m, (∀ l, i + 1 ≤ l → l < m → ((beginningSize * 2 ^ l : ℕ) : Int) < d) →
          ∀ l, i ≤ l → l < m → ((beginningSize * 2 ^ l : ℕ) : Int) < d := by
        intro m hm l hl hlt
        rcases Nat.eq_or_lt_of_le hl with rfl | hlt'
        · omega
        · exact hm l hlt' hlt
      rw [hdouble]
      rcases ih (i + 1) with ⟨j, hj, hlt, hloop, hle, hmin⟩ | ⟨hloop, hall⟩
      · exact Or.inl ⟨j, by omega, by omega, hloop, hle, hbelow j hmin⟩
      · refine Or.inr ⟨hloop, hbelow (i + (n + 1)) fun l hl hlt => hall l hl ?_⟩
        omega

section FindBlockFile

variable {cfg : Config}

/-- `find_block_file` finds a size of the table where it stands. -/
lemma Config.Doubling.findBlockFile_of_lt (hd : cfg.Doubling) {j : ℕ}
    (hj : j < cfg.blockTypeCount) : findBlockFile cfg (beginningSize * 2 ^ j) = j := by
  rcases findBlockFile_cases cfg (beginningSize * 2 ^ j) with hc | ⟨i, hi, hc, heq⟩
  · unfold findBlockFile at hc
    split at hc
    · omega
    · rename_i hnone
      have hnot := List.find?_eq_none.1 hnone j (List.mem_range.2 hj)
      exact absurd (hd.sizes j hj).symm (by simpa using hnot)
  · rw [hd.sizes i hi] at heq
    rw [hc, blockSize_inj heq]

/-- `find_block_file` does not find a size that is not in the table. -/
lemma findBlockFile_of_ne {s : ℕ} (hs : ∀ i < cfg.blockTypeCount, s ≠ cfg.blockSizeArray i) :
    findBlockFile cfg s = -1 := by
  rcases findBlockFile_cases cfg s with hc | ⟨i, hi, -, heq⟩
  · exact hc
  · exact absurd heq (hs i hi)

/-- The block file that `update_block` chooses: the least one that holds the converted size. -/
lemma Config.Doubling.sizeClass_cases (hd : cfg.Doubling) (n : ℕ) :
    (∃ i < cfg.blockTypeCount, cfg.sizeClass n = i ∧ toInt32 n ≤ cfg.blockSizeArray i ∧
      ∀ j < i, (cfg.blockSizeArray j : Int) < toInt32 n) ∨
    (cfg.sizeClass n = -1 ∧
      ∀ i < cfg.blockTypeCount, (cfg.blockSizeArray i : Int) < toInt32 n) := by
  have htypes := hd.types
  have hint : ∀ i < cfg.blockTypeCount, beginningSize * 2 ^ i < 2 ^ 31 :=
    fun i hi => blockSize_lt_int (hi.trans_le htypes)
  have hstart : ((beginningSize * 2 ^ 0 : ℕ) : Int) = beginningSize := by simp
  have hcases := calcBlockSizeLoop_cases (toInt32 n) maxBlockCnt 0
  rw [hstart] at hcases
  unfold Config.sizeClass calcBlockSize
  rcases hcases with ⟨j, -, hj, hloop, hle, hmin⟩ | ⟨hloop, hall⟩
  · have hsize : toSizeT ((beginningSize * 2 ^ j : ℕ) : Int) = beginningSize * 2 ^ j := by
      have hlt := blockSize_lt_int (show j < maxBlockCnt by omega)
      exact toSizeT_natCast (by omega)
    rw [hloop, hsize]
    rcases Nat.lt_or_ge j cfg.blockTypeCount with hin | hout
    · refine Or.inl ⟨j, hin, hd.findBlockFile_of_lt hin, ?_, ?_⟩
      · rw [hd.sizes j hin]
        exact hle
      · intro l hl
        rw [hd.sizes l (hl.trans hin)]
        exact hmin l (Nat.zero_le l) hl
    · refine Or.inr ⟨findBlockFile_of_ne ?_, ?_⟩
      · intro i hi
        rw [hd.sizes i hi]
        exact (blockSize_lt_blockSize (hi.trans_le hout)).ne'
      · intro i hi
        rw [hd.sizes i hi]
        exact hmin i (Nat.zero_le i) (hi.trans_le hout)
  · rw [hloop, toSizeT_neg_one]
    refine Or.inr ⟨findBlockFile_of_ne ?_, ?_⟩
    · intro i hi
      have hlt := hint i hi
      rw [hd.sizes i hi]
      omega
    · intro i hi
      rw [hd.sizes i hi]
      exact hall i (Nat.zero_le i) (by omega)

/-- The block file that `update_block` chooses for data that fits one. -/
lemma Config.Doubling.sizeClass_of_fits (hd : cfg.Doubling) {n J : ℕ} (hJ : J < cfg.blockTypeCount)
    (hfits : n ≤ cfg.blockSizeArray J) :
    ¬cfg.sizeClass n < 0 ∧ n ≤ cfg.blockSizeArray (cfg.sizeClass n).toNat := by
  have hint : toInt32 n = n := by
    have hlt := blockSize_lt_int (hJ.trans_le hd.types)
    rw [hd.sizes J hJ] at hfits
    exact toInt32_of_lt (hfits.trans_lt hlt)
  rcases hd.sizeClass_cases n with ⟨i, -, hcls, hle, -⟩ | ⟨-, hall⟩
  · rw [hcls, Int.toNat_natCast]
    exact ⟨by omega, by omega⟩
  · have := hall J hJ
    omega

end FindBlockFile

/-! ## When the choice is right -/

/-- The block files that hold data of a size. -/
def Config.holding (cfg : Config) (n : ℕ) : Set ℕ :=
  {i | i < cfg.blockTypeCount ∧ n ≤ cfg.blockSizeArray i}

/-- `update_block` of data of this size is not stopped at an assertion when it appends the data, for
a new key or because the record has to be moved. -/
def Config.NotStopped (cfg : Config) (n : ℕ) : Prop :=
  ∀ (f : Faults) (w : World) (h : Held store) (key data : List UInt8), Ready w → FileFree h →
    w.config = cfg → data.length = n →
    (∀ iv, w.index (fixedKey key) = some iv → w.blockSizeArray iv.blockId < n) →
    ∀ w', exec (handle f) (updateBlock key data) h w ≠ .aborted w'

/-- What the choice of a block file for data of a size should be. -/
structure Config.SizeClassRight (cfg : Config) (n : ℕ) : Prop where
  /-- The least block file that holds it. -/
  least : ∀ i : ℕ, cfg.sizeClass n = i ↔ IsLeast (cfg.holding n) i
  /-- None, if and only if no block file holds it. -/
  none : cfg.sizeClass n = -1 ↔ cfg.holding n = ∅
  /-- The assertions hold. -/
  notStopped : cfg.NotStopped n

section Right

variable {cfg : Config} {n : ℕ}

/-- A chosen block file that is large enough keeps the append from stopping. -/
lemma insertEnding_ne_none {f : Faults} {w : World} {k : Key} {data : List UInt8}
    (hfits : ∀ i : ℕ, w.config.sizeClass data.length = i → data.length ≤ w.blockSizeArray i)
    (fail : Int) : (w.insertEnding f k data fail).ret ≠ none := by
  unfold World.insertEnding
  split
  · simp
  · rename_i hcls
    rw [if_pos (hfits _ (by omega))]
    simp

/-- If every chosen block file is large enough, then no assertion fails. -/
lemma notStopped_of_fits (hfits : ∀ i : ℕ, cfg.sizeClass n = i → n ≤ cfg.blockSizeArray i) :
    cfg.NotStopped n := by
  rintro f w h key data hr hf rfl rfl happend w'
  by_cases hadm : Admits h StoreLock.index .ex
  · have hret : (w.updateEnding f (fixedKey key) data).ret ≠ none := by
      unfold World.updateEnding
      split
      · simp
      · cases hk : w.index (fixedKey key) with
        | none => exact insertEnding_ne_none hfits 0
        | some iv =>
          -- the record is too small for the data, so `modify_block` is not called
          simp only
          rw [if_neg (Nat.not_le.2 (happend iv hk))]
          split
          · simp
          · exact insertEnding_ne_none (by simpa using hfits) (-3)
    obtain ⟨r, hr'⟩ := Option.ne_none_iff_exists'.1 hret
    rw [exec_updateBlock hr hf key data hadm, Ending.outcome, hr']
    simp
  · rw [show updateBlock key data = (Call.update key data).prog from rfl,
      (call_blocked (f := f) (w := w) (c := .update key data) rfl hadm).1]
    simp

/-- The conversion to `int` is harmless if it does not change which block sizes are exceeded. -/
lemma Config.Doubling.right_of_same (hd : cfg.Doubling)
    (hsame : ∀ i < cfg.blockTypeCount,
      (cfg.blockSizeArray i : Int) < toInt32 n ↔ cfg.blockSizeArray i < n) :
    cfg.SizeClassRight n := by
  rcases hd.sizeClass_cases n with ⟨i, hi, hcls, hle, hmin⟩ | ⟨hcls, hall⟩
  · have hfits : n ≤ cfg.blockSizeArray i := by
      have := hsame i hi
      omega
    have hleast : IsLeast (cfg.holding n) i := by
      refine ⟨⟨hi, hfits⟩, fun j hj => Nat.not_lt.1 fun hlt => ?_⟩
      have hjn := (hsame j hj.1).1 (hmin j hlt)
      exact absurd hj.2 (Nat.not_le.2 hjn)
    refine ⟨fun j => ?_, ?_, notStopped_of_fits ?_⟩
    · rw [hcls, Int.natCast_inj]
      refine ⟨?_, fun hj => hleast.unique hj⟩
      rintro rfl
      exact hleast
    · rw [hcls]
      refine ⟨fun h => by omega, fun hempty => ?_⟩
      have hmem := hleast.1
      rw [hempty] at hmem
      exact absurd hmem (Set.notMem_empty i)
    · intro j hj
      obtain rfl : i = j := by omega
      exact hfits
  · have hempty : cfg.holding n = ∅ := by
      refine Set.eq_empty_iff_forall_notMem.2 fun i hi => ?_
      have hlt := (hsame i hi.1).1 (hall i hi.1)
      exact absurd hi.2 (Nat.not_le.2 hlt)
    refine ⟨fun j => ?_, ?_, notStopped_of_fits ?_⟩
    · rw [hcls, hempty]
      exact ⟨fun h => by omega, fun hj => absurd hj.1 (Set.notMem_empty j)⟩
    · exact ⟨fun _ => hempty, fun _ => hcls⟩
    · intro j hj
      omega

/-- Data that no `int` can measure fits no block file. -/
lemma Config.Doubling.holding_eq_empty (hd : cfg.Doubling) (hn : 2 ^ 31 ≤ n) :
    cfg.holding n = ∅ := by
  refine Set.eq_empty_iff_forall_notMem.2 fun i hi => ?_
  have hlt := blockSize_lt_int (hi.1.trans_le hd.types)
  have hle := hi.2
  rw [hd.sizes i hi.1] at hle
  omega

end Right

/-- The choice of a block file is right for a size if and only if the size is below `2 ^ 31`, or its
low 32 bits are a nonnegative `int` that exceeds every block size of the table. -/
theorem size_class_right_iff (largest : ℕ) (w : World) (n : ℕ) :
    (initStorage largest w).2.config.SizeClassRight n ↔
      n < 2 ^ 31 ∨ (n % 2 ^ 32 < 2 ^ 31 ∧
        ∀ i, InTable (effectiveSize largest) i → beginningSize * 2 ^ i < n % 2 ^ 32) := by
  have hcfg : (initStorage largest w).2.config = tableOf largest := by
    simp only [initStorage, World.config, tableOf]
  have hd := tableOf_doubling largest
  have htable := (tableOf_spec largest).2.2
  rw [hcfg]
  constructor
  · intro hright
    by_cases hn : n < 2 ^ 31
    · exact Or.inl hn
    have hnone := hright.none.2 (hd.holding_eq_empty (Nat.not_lt.1 hn))
    rcases hd.sizeClass_cases n with ⟨i, -, hcls, -⟩ | ⟨-, hall⟩
    · omega
    have hlow := fun i hi => natCast_lt_toInt32.1 (hall i hi)
    refine Or.inr ⟨(hlow 0 (tableOf_pos largest)).2, fun i hi => ?_⟩
    have hi' := (htable i).2 hi
    rw [← hd.sizes i hi']
    exact (hlow i hi').1
  · rintro (hn | ⟨hint, hlow⟩)
    · refine hd.right_of_same fun i _ => ?_
      rw [toInt32_of_lt hn, Nat.cast_lt]
    · refine hd.right_of_same fun i hi => ?_
      have hlt := hlow i ((htable i).1 hi)
      rw [← hd.sizes i hi] at hlt
      refine ⟨fun _ => ?_, fun _ => natCast_lt_toInt32.2 ⟨hlt, hint⟩⟩
      exact hlt.trans_le (Nat.mod_le n _)

/-- `update_block` of a new key, when the block file chosen is too small. -/
lemma updateBlock_aborted {w : World} (hr : Ready w) {key data : List UInt8}
    (hindex : w.index (fixedKey key) = none) {i : ℕ} (hcls : w.config.sizeClass data.length = i)
    (hsmall : w.blockSizeArray i < data.length) :
    exec (handle noFaults) (updateBlock key data) [] w = .aborted w := by
  have hend : w.updateEnding noFaults (fixedKey key) data = ⟨none, w⟩ := by
    unfold World.updateEnding World.insertEnding
    rw [hcls]
    simp [noFaults, hindex, Nat.not_le.2 hsmall]
  rw [exec_updateBlock hr (fun b m hm => absurd hm List.not_mem_nil) key data (by simp [Admits]),
    hend]
  rfl

/-- A record of two gibibytes is put into the smallest block file. -/
theorem size_class_narrowed :
    (initStorage 1024 World.empty).1 = 0 ∧
    ¬(initStorage 1024 World.empty).2.config.SizeClassRight (2 ^ 31) ∧
    ∃ w, openStorage {} 1024 World.empty = ⟨0, some ⟨true, true, true⟩, w⟩ ∧
      w.config = (initStorage 1024 World.empty).2.config ∧ w.config.sizeClass (2 ^ 31) = 0 ∧
      w.blockSizeArray 0 = 128 ∧
      exec (handle noFaults) (updateBlock [1] (List.replicate (2 ^ 31) 0)) [] w = .aborted w := by
  have hcls : (tableOf 1024).sizeClass (2 ^ 31) = 0 := by decide
  obtain ⟨w, hopen, hl, hcfg, hindex, -, -⟩ := exists_small_store
  refine ⟨by decide, fun hright => ?_, w, hopen, hcfg, hcfg ▸ hcls, small_blockSize hcfg, ?_⟩
  · have hleast := (hright.least 0).1 hcls
    exact absurd hleast.1.2 (by decide)
  · have hlen : (List.replicate (2 ^ 31) (0 : UInt8)).length = 2 ^ 31 := List.length_replicate
    refine updateBlock_aborted (i := 0) hl.usable.ready (by rw [hindex]) ?_ ?_
    · rw [hlen, hcfg]
      exact hcls
    · rw [hlen, small_blockSize hcfg]
      decide

end Linglongta
