import Linglongta.Storage.Open
import Linglongta.Storage.Slots

/-!
# What an opened store looks like

When nothing fails, `open_storage` reads each data file that is there into its table entry and
creates the others.  `loadedEntry` is the resulting table entry, as a function of what was on disk,
and `openStorage_spec` describes the whole world that `open_storage` leaves.
-/

namespace Linglongta

/-! ## The table of block sizes -/

/-- A later block size is a larger one. -/
lemma blockSize_lt_blockSize {i j : ℕ} (hij : i < j) :
    beginningSize * 2 ^ i < beginningSize * 2 ^ j :=
  Nat.mul_lt_mul_of_pos_left (Nat.pow_lt_pow_right (by decide) hij) (by decide)

lemma blockSize_le_blockSize {i j : ℕ} (hij : i ≤ j) :
    beginningSize * 2 ^ i ≤ beginningSize * 2 ^ j :=
  Nat.mul_le_mul_left _ (Nat.pow_le_pow_right (by decide) hij)

/-- Different block files have different block sizes. -/
lemma blockSize_inj {i j : ℕ} (h : beginningSize * 2 ^ i = beginningSize * 2 ^ j) : i = j :=
  Nat.pow_right_injective (le_refl 2) (Nat.eq_of_mul_eq_mul_left (by decide) h)

/-- A block size is a positive `int`. -/
lemma blockSize_lt_int {j : ℕ} (hj : j < maxBlockCnt) : beginningSize * 2 ^ j < 2 ^ 31 :=
  (blockSize_lt_blockSize hj).trans (by decide)

/-- What the loop of `init_storage` computes. -/
lemma initStorageLoop_spec (largest n i curr : ℕ) (sizes : ℕ → ℕ) (hn : i + n = maxBlockCnt)
    (hcurr : curr = beginningSize * 2 ^ i) (hsizes : ∀ b < i, sizes b = beginningSize * 2 ^ b) :
    (initStorageLoop largest n i curr sizes).2.1 ≤ maxBlockCnt ∧
    (∀ b < (initStorageLoop largest n i curr sizes).2.1,
      (initStorageLoop largest n i curr sizes).2.2 b = beginningSize * 2 ^ b) ∧
    (∀ b, i ≤ b → (b < (initStorageLoop largest n i curr sizes).2.1 ↔
      b < maxBlockCnt ∧ beginningSize * 2 ^ b ≤ largest)) ∧
    i ≤ (initStorageLoop largest n i curr sizes).2.1 ∧
    ((initStorageLoop largest n i curr sizes).1 = 0 ↔
      largest < beginningSize * 2 ^ maxBlockCnt) := by
  induction n generalizing i curr sizes with
  | zero =>
    obtain rfl : i = maxBlockCnt := by omega
    simp only [initStorageLoop]
    refine ⟨le_rfl, hsizes, fun b hb => by omega, le_rfl, ?_⟩
    rw [hcurr]
    split <;> omega
  | succ n ih =>
    rw [initStorageLoop]
    split
    · rename_i hle
      have hstep := ih (i + 1) (curr * 2) (Function.update sizes i curr) (by omega)
        (by rw [hcurr, pow_succ, Nat.mul_assoc]) ?_
      · obtain ⟨h1, h2, h3, h4, h5⟩ := hstep
        refine ⟨h1, h2, ?_, by omega, h5⟩
        intro b hb
        rcases Nat.eq_or_lt_of_le hb with rfl | hlt
        · rw [hcurr] at hle
          exact ⟨fun _ => ⟨by omega, hle⟩, fun _ => by omega⟩
        · exact h3 b hlt
      · intro b hb
        by_cases hbi : b = i
        · rw [hbi, Function.update_self, hcurr]
        · rw [Function.update_of_ne hbi]
          exact hsizes b (by omega)
    · rename_i hlt
      have hi : i ≤ maxBlockCnt := by omega
      refine ⟨hi, hsizes, ?_, le_rfl, ?_⟩
      · intro b hb
        have hmono := blockSize_le_blockSize hb
        rw [hcurr] at hlt
        constructor
        · intro h
          exact absurd (show b < i from h) (by omega)
        · rintro ⟨-, h⟩
          omega
      · have hmono := blockSize_le_blockSize hi
        rw [hcurr] at hlt
        simp only [true_iff]
        omega

/-- The table of block sizes for a largest size. -/
def tableOf (largest : ℕ) : Config :=
  let r := initStorageLoop (effectiveSize largest) maxBlockCnt 0 beginningSize fun _ => 0
  ⟨r.2.1, r.2.2⟩

lemma tableOf_spec (largest : ℕ) :
    (tableOf largest).blockTypeCount ≤ maxBlockCnt ∧
    (∀ b < (tableOf largest).blockTypeCount,
      (tableOf largest).blockSizeArray b = beginningSize * 2 ^ b) ∧
    (∀ b, b < (tableOf largest).blockTypeCount ↔
      b < maxBlockCnt ∧ beginningSize * 2 ^ b ≤ effectiveSize largest) := by
  obtain ⟨h1, h2, h3, -, -⟩ := initStorageLoop_spec (effectiveSize largest) maxBlockCnt 0
    beginningSize (fun _ => 0) (by omega) (by simp) (by simp)
  simp only [tableOf]
  exact ⟨h1, h2, fun b => h3 b (Nat.zero_le b)⟩

/-- `init_storage` succeeds if the largest size is below the limit of the table. -/
lemma initStorage_ret (largest : ℕ) (w : World) :
    (initStorage largest w).1 = 0 ↔ effectiveSize largest < beginningSize * 2 ^ maxBlockCnt := by
  obtain ⟨-, -, -, -, h⟩ := initStorageLoop_spec (effectiveSize largest) maxBlockCnt 0
    beginningSize (fun _ => 0) (by omega) (by simp) (by simp)
  simpa only [initStorage] using h

lemma tableOf_inj (largest : ℕ) {b b' : ℕ} (hb : b < (tableOf largest).blockTypeCount)
    (hb' : b' < (tableOf largest).blockTypeCount)
    (h : (tableOf largest).blockSizeArray b = (tableOf largest).blockSizeArray b') : b = b' := by
  obtain ⟨-, hsizes, -⟩ := tableOf_spec largest
  rw [hsizes b hb, hsizes b' hb'] at h
  exact blockSize_inj h

/-! ## Data files -/

/-- The file that `create_data_file` makes. -/
def newFile (blockSize : ℕ) : ByteFile :=
  writeEntry ByteFile.empty (BlockFile.new blockSize) dataSectionPos

/-- A new file has a whole header. -/
lemma dataSectionPos_le_newFile (blockSize : ℕ) : dataSectionPos ≤ (newFile blockSize).size := by
  have hfill : (ByteFile.empty.fill dataSectionPos).size = max 0 dataSectionPos := rfl
  have hwrite := ByteFile.size_le_pwrite (ByteFile.empty.fill dataSectionPos) 0
    ((BlockFile.new blockSize).headerImage.take dataSectionPos)
  rw [hfill] at hwrite
  exact (le_max_right 0 dataSectionPos).trans hwrite

/-- The table entry for a data file, given what is on disk. -/
def loadedEntry (disk : Fd → Option ByteFile) (blockSize : ℕ) : BlockFile :=
  match disk (.data blockSize) with
  | some file => BlockFile.ofFile (.data blockSize) file dataSectionPos
  | none => BlockFile.new blockSize

/-- The data file after it has been opened, given what is on disk. -/
def loadedFile (disk : Fd → Option ByteFile) (blockSize : ℕ) : ByteFile :=
  (disk (.data blockSize)).getD (newFile blockSize)

/-- No data file is shorter than its header. -/
def HeadersWhole (disk : Fd → Option ByteFile) : Prop :=
  ∀ n file, disk (.data n) = some file → dataSectionPos ≤ file.size

/-- Loading a data file that has a whole header. -/
lemma loadDataFile_eq (b : ℕ) {file : ByteFile} (w : World) (hf : dataSectionPos ≤ file.size) :
    loadDataFile {} b file w = (0, w.setFileHandler b
      (BlockFile.ofFile (.data (w.blockSizeArray b)) file dataSectionPos)) := by
  have hcount : Transfer.complete.count (min dataSectionPos file.size) = some dataSectionPos := by
    rw [Nat.min_eq_left hf]
    rfl
  unfold loadDataFile
  rw [if_neg (by simp)]
  simp only [hcount, if_true]

/-- Creating a data file. -/
lemma createDataFile_eq (b : ℕ) {w : World} (h : w.disk (.data (w.blockSizeArray b)) = none) :
    createDataFile {} b w = (0,
      { w.setFileHandler b (BlockFile.new (w.blockSizeArray b)) with
        disk := Function.update w.disk (.data (w.blockSizeArray b))
          (some (newFile (w.blockSizeArray b))) }) := by
  have hcount : (Transfer.complete.count dataSectionPos).getD 0 = dataSectionPos := rfl
  unfold createDataFile
  rw [if_neg (by simp)]
  simp only [h, Option.getD_none, hcount, if_true, newFile]

/-- Opening one data file. -/
lemma openDataFile_eq {w : World} (b : ℕ) (hw : HeadersWhole w.disk) :
    openDataFile {} b w = (0,
      { w.setFileHandler b (loadedEntry w.disk (w.blockSizeArray b)) with
        disk := Function.update w.disk (.data (w.blockSizeArray b))
          (some (loadedFile w.disk (w.blockSizeArray b))) }) := by
  unfold openDataFile loadedEntry loadedFile
  cases hfile : w.disk (.data (w.blockSizeArray b)) with
  | some file =>
    have hsame : Function.update w.disk (.data (w.blockSizeArray b)) (some file) = w.disk := by
      rw [← hfile]
      exact Function.update_eq_self _ _
    simp only [if_true, loadDataFile_eq b w (hw _ file hfile), Option.getD_some, hsame]
    rfl
  | none =>
    simp only [createDataFile_eq b hfile, Option.getD_none]

/-- The world `w'` comes from `w` by opening the data files of a list. -/
structure Loaded (bs : List ℕ) (w w' : World) : Prop where
  /-- The flag is left alone. -/
  inited : w'.inited = w.inited
  /-- The table of block sizes is left alone. -/
  config : w'.config = w.config
  /-- The index is left alone. -/
  index : w'.index = w.index
  /-- The table entries of the files are loaded. -/
  entry : ∀ b ∈ bs, w'.fileHandler b = loadedEntry w.disk (w.blockSizeArray b)
  /-- The files are there. -/
  file : ∀ b ∈ bs, w'.disk (.data (w.blockSizeArray b)) =
    some (loadedFile w.disk (w.blockSizeArray b))
  /-- Other files are left alone. -/
  other : ∀ d, (∀ b ∈ bs, d ≠ .data (w.blockSizeArray b)) → w'.disk d = w.disk d
  /-- Other table entries are left alone. -/
  otherEntry : ∀ b, b ∉ bs → w'.fileHandler b = w.fileHandler b

/-- Opening a list of data files. -/
lemma openDataFiles_spec (bs : List ℕ) {w : World} (hw : HeadersWhole w.disk)
    (hnodup : bs.Nodup)
    (hinj : ∀ b ∈ bs, ∀ b' ∈ bs, w.blockSizeArray b = w.blockSizeArray b' → b = b') :
    (openDataFiles {} bs w).1 = 0 ∧ Loaded bs w (openDataFiles {} bs w).2 := by
  induction bs generalizing w with
  | nil => exact ⟨rfl, rfl, rfl, rfl, by simp, by simp, fun _ _ => rfl, fun _ _ => rfl⟩
  | cons b bs ih =>
    obtain ⟨hnot, hnodup'⟩ := List.nodup_cons.1 hnodup
    have hne : ∀ b' ∈ bs, w.blockSizeArray b' ≠ w.blockSizeArray b := by
      intro b' hb' heq
      have := hinj b' (by simp [hb']) b (by simp) heq
      exact hnot (this ▸ hb')
    have hwhole : HeadersWhole (Function.update w.disk (.data (w.blockSizeArray b))
        (some (loadedFile w.disk (w.blockSizeArray b)))) := by
      intro n file hfile
      by_cases hn : Fd.data n = .data (w.blockSizeArray b)
      · rw [hn, Function.update_self, Option.some.injEq] at hfile
        rw [← hfile, loadedFile]
        cases hd : w.disk (.data (w.blockSizeArray b)) with
        | some file' => exact hw _ file' hd
        | none => exact dataSectionPos_le_newFile _
      · rw [Function.update_of_ne hn] at hfile
        exact hw n file hfile
    have hopen := openDataFile_eq b hw
    obtain ⟨hret, hl⟩ := ih (w := (openDataFile {} b w).2) (by rw [hopen]; exact hwhole) hnodup'
      (by rw [hopen]; exact fun b₁ h₁ b₂ h₂ => hinj b₁ (by simp [h₁]) b₂ (by simp [h₂]))
    have hstep : openDataFiles {} (b :: bs) w = openDataFiles {} bs (openDataFile {} b w).2 := by
      rw [openDataFiles, if_neg]
      rw [hopen]
      simp
    have hdisk : ∀ n, n ≠ w.blockSizeArray b →
        (openDataFile {} b w).2.disk (.data n) = w.disk (.data n) := by
      intro n hn
      rw [hopen]
      exact Function.update_of_ne (by simpa using hn) _ _
    have hsize : (openDataFile {} b w).2.blockSizeArray = w.blockSizeArray := by
      rw [hopen]
      rfl
    rw [hstep]
    refine ⟨hret, ?_, ?_, ?_, ?_, ?_, ?_, ?_⟩
    · rw [hl.inited, hopen]
      rfl
    · rw [hl.config, hopen]
      rfl
    · rw [hl.index, hopen]
      rfl
    · intro b' hb'
      rcases List.mem_cons.1 hb' with rfl | hmem
      · rw [hl.otherEntry b' hnot, hopen]
        simp
      · rw [hl.entry b' hmem, hsize]
        unfold loadedEntry
        rw [hdisk _ (hne b' hmem)]
    · intro b' hb'
      rcases List.mem_cons.1 hb' with rfl | hmem
      · rw [hl.other, hopen]
        · simp
        · intro b'' hb'' heq
          rw [hsize] at heq
          exact hne b'' hb'' (by simpa using heq.symm)
      · have := hl.file b' hmem
        rw [hsize] at this
        rw [this]
        unfold loadedFile
        rw [hdisk _ (hne b' hmem)]
    · intro d hd
      rw [hl.other d (by rw [hsize]; exact fun b' hb' => hd b' (by simp [hb'])), hopen]
      exact Function.update_of_ne (hd b (by simp)) _ _
    · intro b' hb'
      rw [hl.otherEntry b' (fun h => hb' (by simp [h])), hopen]
      have : b' ≠ b := fun h => hb' (by simp [h])
      simp [Function.update_of_ne this]

/-! ## The whole store -/

/-- What a successful `open_storage` of a closed store leaves. -/
lemma openStorage_spec (largest : ℕ) {w : World} (hinit : w.inited = false)
    (hw : HeadersWhole w.disk)
    (hsize : effectiveSize largest < beginningSize * 2 ^ maxBlockCnt) :
    ∃ w', openStorage {} largest w = ⟨0, some ⟨true, true, true⟩, w'⟩ ∧
      w'.inited = true ∧ w'.config = tableOf largest ∧ w'.index = w.index ∧
      w'.logger = indexLoggerCreate ∧ w'.journal = magicHeader ∧
      (∀ b < (tableOf largest).blockTypeCount,
        w'.fileHandler b = loadedEntry w.disk ((tableOf largest).blockSizeArray b) ∧
        w'.disk (.data ((tableOf largest).blockSizeArray b)) =
          some (loadedFile w.disk ((tableOf largest).blockSizeArray b))) ∧
      (∀ d, (∀ b < (tableOf largest).blockTypeCount,
        d ≠ .data ((tableOf largest).blockSizeArray b)) → w'.disk d = w.disk d) := by
  have hret := (initStorage_ret largest { w with inited := true }).2 hsize
  have hcfg : (initStorage largest { w with inited := true }).2.config = tableOf largest := by
    simp only [initStorage, World.config, tableOf]
  have hsizes : (initStorage largest { w with inited := true }).2.blockSizeArray =
      (tableOf largest).blockSizeArray := congrArg Config.blockSizeArray hcfg
  have hcount : (initStorage largest { w with inited := true }).2.blockTypeCount =
      (tableOf largest).blockTypeCount := congrArg Config.blockTypeCount hcfg
  have hdisk : (initStorage largest { w with inited := true }).2.disk = w.disk := rfl
  have hinj : ∀ b ∈ List.range (initStorage largest { w with inited := true }).2.blockTypeCount,
      ∀ b' ∈ List.range (initStorage largest { w with inited := true }).2.blockTypeCount,
      (initStorage largest { w with inited := true }).2.blockSizeArray b =
        (initStorage largest { w with inited := true }).2.blockSizeArray b' → b = b' := by
    intro b hb b' hb' heq
    rw [hcount] at hb hb'
    rw [hsizes] at heq
    exact tableOf_inj largest (List.mem_range.1 hb) (List.mem_range.1 hb') heq
  obtain ⟨hopen, hl⟩ := openDataFiles_spec _ (hdisk ▸ hw) List.nodup_range hinj
  have hglobals : openGlobals {} largest w = (0,
      (openDataFiles {} (List.range (initStorage largest { w with inited := true }).2.blockTypeCount)
        (initStorage largest { w with inited := true }).2).2) := by
    simp [openGlobals, hinit, hret, hopen]
  refine ⟨{ (openDataFiles {} (List.range
      (initStorage largest { w with inited := true }).2.blockTypeCount)
      (initStorage largest { w with inited := true }).2).2 with
        logger := indexLoggerCreate, journal := magicHeader }, ?_, ?_, ?_, ?_, rfl, rfl, ?_, ?_⟩
  · simp [openStorage, hglobals, openIndexFile]
  · exact hl.inited
  · exact hl.config.trans hcfg
  · exact hl.index
  · intro b hb
    have hmem : b ∈ List.range (initStorage largest { w with inited := true }).2.blockTypeCount := by
      rw [hcount]
      exact List.mem_range.2 hb
    have hentry := hl.entry b hmem
    have hfile := hl.file b hmem
    rw [hsizes, hdisk] at hentry hfile
    exact ⟨hentry, hfile⟩
  · intro d hd
    refine hl.other d ?_
    intro b hb
    rw [hcount] at hb
    rw [hsizes]
    exact hd b (List.mem_range.1 hb)

/-- An `open_storage` with a size that is too large fails, and leaves a zeroed table behind. -/
lemma openStorage_too_large {w : World} (hinit : w.inited = false) {largest : ℕ}
    (hlimit : beginningSize * 2 ^ maxBlockCnt ≤ effectiveSize largest) :
    openStorage {} largest w =
      ⟨-1, none, (initStorage largest { w with inited := true }).2⟩ := by
  have hret : (initStorage largest { w with inited := true }).1 ≠ 0 :=
    fun h => absurd ((initStorage_ret largest _).1 h) (Nat.not_lt.2 hlimit)
  simp [openStorage, openGlobals, hinit, hret]

/-- An `open_storage` with the global variables set up opens no data file. -/
lemma openStorage_inited {w : World} (hinit : w.inited = true) (largest : ℕ) :
    openStorage {} largest w = ⟨0, some ⟨true, true, true⟩,
      { w with logger := indexLoggerCreate, journal := magicHeader }⟩ := by
  simp [openStorage, openGlobals, hinit, openIndexFile]

end Linglongta
