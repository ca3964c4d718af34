import Linglongta.Storage.Sessions

/-!
# The headers on disk

`load_data_file` rebuilds a table entry from the header of its data file.  `HeaderOf fh file` says
that the header of the file holds the table entry `fh`, as far as it is used: the three words, and
the entries of the list of free slots up to its length.  `World.Mirrored` says this of every file of
the table; it is what makes the slot invariant survive a reopening (`Mirrored.diskSlots`).

The words of a header have eight bytes.  `World.Bounded` says that every carved slot lies below the
largest file offset, so that all counters and offsets fit.
-/

namespace Linglongta

open Prog

/-! ## One header -/

/-- The header of the file holds the table entry. -/
structure HeaderOf (fh : BlockFile) (file : ByteFile) : Prop where
  /-- The first word. -/
  blockSize : file.word 0 = fh.blockSize
  /-- The second word. -/
  blockCnt : file.word 8 = fh.blockCnt
  /-- The third word. -/
  freeSlotsCnt : file.word 16 = fh.freeSlotsCnt
  /-- The list of free slots. -/
  slots : ∀ i < fh.freeSlotsCnt, file.word (slotsSectionPos + 8 * i) = fh.freeSlotsOffset i

/-- The entries of the list of free slots lie in the header. -/
lemma slot_le_dataSectionPos {i : ℕ} (hi : i < maxFreeSlots) :
    slotsSectionPos + 8 * i + 8 ≤ dataSectionPos := by
  unfold dataSectionPos
  omega

/-- The three words of a header lie in the header. -/
lemma words_le_dataSectionPos : 24 ≤ dataSectionPos := by
  unfold dataSectionPos slotsSectionPos
  omega

section HeaderOf

variable {fh : BlockFile} {file : ByteFile}

/-- A write behind the header keeps it. -/
lemma HeaderOf.pwrite_behind (hh : HeaderOf fh file) (hwhole : dataSectionPos ≤ file.size)
    (hroom : fh.freeSlotsCnt ≤ maxFreeSlots) {off : ℕ} (hoff : dataSectionPos ≤ off)
    (data : List UInt8) : HeaderOf fh (file.pwrite off data) := by
  have hkeep : ∀ o, o + 8 ≤ dataSectionPos → (file.pwrite off data).word o = file.word o :=
    fun o ho => ByteFile.word_pwrite_of_disjoint (ho.trans hwhole) (Or.inl (ho.trans hoff))
  have hwords := words_le_dataSectionPos
  refine ⟨?_, ?_, ?_, ?_⟩
  · rw [hkeep 0 (by omega), hh.blockSize]
  · rw [hkeep 8 (by omega), hh.blockCnt]
  · rw [hkeep 16 (by omega), hh.freeSlotsCnt]
  · intro i hi
    rw [hkeep _ (slot_le_dataSectionPos (by omega)), hh.slots i hi]

/-- What a write of the three words does to the header. -/
lemma word_pwrite_headerImage (hwhole : dataSectionPos ≤ file.size)
    (hsize : fh.blockSize < 256 ^ 8) (hcnt : fh.blockCnt < 256 ^ 8)
    (hfree : fh.freeSlotsCnt < 256 ^ 8) :
    (file.pwrite 0 fh.headerImage).word 0 = fh.blockSize ∧
    (file.pwrite 0 fh.headerImage).word 8 = fh.blockCnt ∧
    (file.pwrite 0 fh.headerImage).word 16 = fh.freeSlotsCnt ∧
    ∀ i < maxFreeSlots, (file.pwrite 0 fh.headerImage).word (slotsSectionPos + 8 * i) =
      file.word (slotsSectionPos + 8 * i) := by
  have hwords := words_le_dataSectionPos
  have hsplit : file.pwrite 0 fh.headerImage =
      ((file.pwrite 0 (Bytes.toLE 8 fh.blockSize)).pwrite 8 (Bytes.toLE 8 fh.blockCnt)).pwrite 16
        (Bytes.toLE 8 fh.freeSlotsCnt) := by
    rw [BlockFile.headerImage, ByteFile.pwrite_append, ByteFile.pwrite_append]
    simp
  have h₁ := ByteFile.size_le_pwrite file 0 (Bytes.toLE 8 fh.blockSize)
  have h₂ := ByteFile.size_le_pwrite (file.pwrite 0 (Bytes.toLE 8 fh.blockSize)) 8
    (Bytes.toLE 8 fh.blockCnt)
  refine ⟨?_, ?_, ?_, ?_⟩
  · rw [hsplit, ByteFile.word_pwrite_of_disjoint (by omega) (Or.inl (by omega)),
      ByteFile.word_pwrite_of_disjoint (by omega) (Or.inl (by omega)),
      ByteFile.word_pwrite_self _ _ hsize]
  · rw [hsplit, ByteFile.word_pwrite_of_disjoint (by omega) (Or.inl (by omega)),
      ByteFile.word_pwrite_self _ _ hcnt]
  · rw [hsplit, ByteFile.word_pwrite_self _ _ hfree]
  · intro i hi
    have hin := slot_le_dataSectionPos hi
    refine ByteFile.word_pwrite_of_disjoint (hin.trans hwhole) (Or.inr ?_)
    have hlen : fh.headerImage.length = 24 := by simp [BlockFile.headerImage]
    rw [hlen]
    unfold slotsSectionPos
    omega

/-- A table entry whose numbers fit their words. -/
structure Fits (fh : BlockFile) : Prop where
  /-- The block size. -/
  blockSize : fh.blockSize < 256 ^ 8
  /-- The counter. -/
  blockCnt : fh.blockCnt < 256 ^ 8
  /-- The list of free slots has room. -/
  room : fh.freeSlotsCnt ≤ maxFreeSlots

/-- Writing the three words of a table entry whose list of free slots is on disk already. -/
lemma headerOf_pwrite_header (hwhole : dataSectionPos ≤ file.size) (hfits : Fits fh)
    (hslots : ∀ i < fh.freeSlotsCnt,
      file.word (slotsSectionPos + 8 * i) = fh.freeSlotsOffset i) :
    HeaderOf fh (file.pwrite 0 fh.headerImage) := by
  have hroom := hfits.room
  have hmax : maxFreeSlots < 256 ^ 8 := by decide
  obtain ⟨h1, h2, h3, h4⟩ := word_pwrite_headerImage hwhole hfits.blockSize hfits.blockCnt
    (hroom.trans_lt hmax)
  refine ⟨h1, h2, h3, ?_⟩
  intro i hi
  rw [h4 i (by omega)]
  exact hslots i hi

/-- Writing the last entry of the list of free slots. -/
lemma headerOf_pwrite_slot (hwhole : dataSectionPos ≤ file.size) {n : ℕ} (hroom : n < maxFreeSlots)
    (hcnt : fh.freeSlotsCnt = n + 1) (hfits : fh.freeSlotsOffset n < 256 ^ 8)
    (h1 : file.word 0 = fh.blockSize) (h2 : file.word 8 = fh.blockCnt)
    (h3 : file.word 16 = fh.freeSlotsCnt)
    (hslots : ∀ i < n, file.word (slotsSectionPos + 8 * i) = fh.freeSlotsOffset i) :
    HeaderOf fh (file.pwrite (slotsSectionPos + 8 * n) (Bytes.toLE 8 (fh.freeSlotsOffset n))) := by
  have hwords := words_le_dataSectionPos
  have hfront : ∀ o, o + 8 ≤ slotsSectionPos + 8 * n → o + 8 ≤ dataSectionPos →
      (file.pwrite (slotsSectionPos + 8 * n) (Bytes.toLE 8 (fh.freeSlotsOffset n))).word o =
        file.word o :=
    fun o ho hin => ByteFile.word_pwrite_of_disjoint (hin.trans hwhole) (Or.inl ho)
  have hpos : slotsSectionPos = 24 := rfl
  refine ⟨?_, ?_, ?_, ?_⟩
  · rw [hfront 0 (by omega) (by omega), h1]
  · rw [hfront 8 (by omega) (by omega), h2]
  · rw [hfront 16 (by omega) (by omega), h3]
  · intro i hi
    by_cases hin : i = n
    · subst hin
      exact ByteFile.word_pwrite_self _ _ hfits
    · have hlt : i < n := by omega
      rw [hfront _ (by omega) (slot_le_dataSectionPos (by omega)), hslots i hlt]

/-- What `load_data_file` reads from a whole header. -/
lemma wordUpTo_eq {off : ℕ} (hoff : off + 8 ≤ dataSectionPos) :
    wordUpTo file dataSectionPos off = file.word off := by
  unfold wordUpTo ByteFile.word
  rw [List.take_of_length_le]
  rw [ByteFile.length_pread]
  omega

/-- A table entry is rebuilt from the header that holds it. -/
structure SameEntry (fh fh' : BlockFile) : Prop where
  /-- The descriptors. -/
  fd : fh'.fd = fh.fd
  /-- The block sizes. -/
  blockSize : fh'.blockSize = fh.blockSize
  /-- The counters. -/
  blockCnt : fh'.blockCnt = fh.blockCnt
  /-- The lengths of the lists of free slots. -/
  freeSlotsCnt : fh'.freeSlotsCnt = fh.freeSlotsCnt
  /-- The lists of free slots. -/
  slots : ∀ i < fh.freeSlotsCnt, fh'.freeSlotsOffset i = fh.freeSlotsOffset i

lemma HeaderOf.sameEntry (hh : HeaderOf fh file) (hroom : fh.freeSlotsCnt ≤ maxFreeSlots) {d : Fd}
    (hfd : fh.fd = some d) : SameEntry fh (BlockFile.ofFile d file dataSectionPos) := by
  have hwords := words_le_dataSectionPos
  refine ⟨hfd.symm, ?_, ?_, ?_, ?_⟩
  · exact (wordUpTo_eq (by omega)).trans hh.blockSize
  · exact (wordUpTo_eq (by omega)).trans hh.blockCnt
  · exact (wordUpTo_eq (by omega)).trans hh.freeSlotsCnt
  · intro i hi
    exact (wordUpTo_eq (slot_le_dataSectionPos (by omega))).trans (hh.slots i hi)

/-- The header of a file holds what is read from it. -/
lemma headerOf_ofFile (d : Fd)
    (hroom : (BlockFile.ofFile d file dataSectionPos).freeSlotsCnt ≤ maxFreeSlots) :
    HeaderOf (BlockFile.ofFile d file dataSectionPos) file := by
  have hwords := words_le_dataSectionPos
  refine ⟨?_, ?_, ?_, ?_⟩
  · exact (wordUpTo_eq (by omega)).symm
  · exact (wordUpTo_eq (by omega)).symm
  · exact (wordUpTo_eq (by omega)).symm
  · intro i hi
    exact (wordUpTo_eq (slot_le_dataSectionPos (by omega))).symm

/-- A new file is a zeroed file with a header. -/
lemma newFile_eq (s : ℕ) :
    newFile s = (ByteFile.empty.fill dataSectionPos).pwrite 0 (BlockFile.new s).headerImage := by
  have himage : (BlockFile.new s).headerImage.take dataSectionPos =
      (BlockFile.new s).headerImage := by
    rw [List.take_of_length_le]
    have hlen : (BlockFile.new s).headerImage.length = 24 := by simp [BlockFile.headerImage]
    rw [hlen]
    exact words_le_dataSectionPos
  unfold newFile writeEntry
  rw [himage]

/-- A new file holds a new table entry. -/
lemma headerOf_newFile {s : ℕ} (hs : s < 256 ^ 8) : HeaderOf (BlockFile.new s) (newFile s) := by
  have hwhole : dataSectionPos ≤ (ByteFile.empty.fill dataSectionPos).size := le_max_right _ _
  rw [newFile_eq]
  exact headerOf_pwrite_header hwhole ⟨hs, Nat.zero_lt_succ _, Nat.zero_le _⟩
    (fun i hi => absurd hi (Nat.not_lt_zero i))

/-- The list of free slots of a new file is zeroed. -/
lemma word_newFile_slot {s : ℕ} (hs : s < 256 ^ 8) {i : ℕ} (hi : i < maxFreeSlots) :
    (newFile s).word (slotsSectionPos + 8 * i) = 0 := by
  have hwhole : dataSectionPos ≤ (ByteFile.empty.fill dataSectionPos).size := le_max_right _ _
  have hfree : (BlockFile.new s).freeSlotsCnt < 256 ^ 8 := Nat.zero_lt_succ _
  have hcnt : (BlockFile.new s).blockCnt < 256 ^ 8 := Nat.zero_lt_succ _
  have hslots := word_pwrite_headerImage hwhole hs hcnt hfree
  rw [newFile_eq, hslots.2.2.2 i hi]
  exact ByteFile.word_fill (slot_le_dataSectionPos hi)

end HeaderOf

/-! ## The slot invariant of rebuilt entries -/

/-- The slot invariant when table entries are rebuilt, and the table grows by new entries. -/
lemma SlotInv.reload {cfg cfg' : Config} {fh fh' : ℕ → BlockFile}
    {index : Key → Option IndexValue} {hand : Option (ℕ × ℕ)} (hi : SlotInv cfg fh index hand)
    (htypes : cfg'.blockTypeCount ≤ maxBlockCnt)
    (hsizes : ∀ b < cfg'.blockTypeCount, cfg'.blockSizeArray b = beginningSize * 2 ^ b)
    (hcount : cfg.blockTypeCount ≤ cfg'.blockTypeCount)
    (hold : ∀ b < cfg.blockTypeCount, SameEntry (fh b) (fh' b))
    (hnew : ∀ b, cfg.blockTypeCount ≤ b → b < cfg'.blockTypeCount →
      fh' b = BlockFile.new (cfg'.blockSizeArray b)) : SlotInv cfg' fh' index none := by
  have hsame : ∀ b < cfg.blockTypeCount, cfg'.blockSizeArray b = cfg.blockSizeArray b :=
    fun b hb => (hsizes b (hb.trans_le hcount)).trans (hi.sizes b hb).symm
  have howns : ∀ b < cfg.blockTypeCount, ∀ x off, Owns fh' index none b x off →
      Owns fh index hand b x off := by
    intro b hb x off hx
    cases x with
    | live k => exact hx
    | free i =>
      obtain ⟨hlt, hoff⟩ := hx
      rw [(hold b hb).freeSlotsCnt] at hlt
      exact ⟨hlt, ((hold b hb).slots i hlt).symm.trans hoff⟩
    | hand => simp [Owns] at hx
  have hnone : ∀ b, cfg.blockTypeCount ≤ b → b < cfg'.blockTypeCount → ∀ x off,
      ¬Owns fh' index none b x off := by
    intro b hge hlt x off hx
    cases x with
    | live k =>
      obtain ⟨iv, hk, rfl, -⟩ := hx
      exact absurd (hi.live k iv hk).1 (Nat.not_lt.2 hge)
    | free i =>
      obtain ⟨hlt', -⟩ := hx
      rw [hnew b hge hlt] at hlt'
      exact absurd hlt' (Nat.not_lt_zero i)
    | hand => simp [Owns] at hx
  refine ⟨htypes, hsizes, ?_, ?_, ?_, ?_, ?_, ?_⟩
  · intro b hb
    rcases Nat.lt_or_ge b cfg.blockTypeCount with hlt | hge
    · rw [(hold b hlt).fd, hsame b hlt]
      exact hi.opened b hlt
    · rw [hnew b hge hb]
      rfl
  · intro b hb
    rcases Nat.lt_or_ge b cfg.blockTypeCount with hlt | hge
    · rw [(hold b hlt).blockSize, hsame b hlt]
      exact hi.blockSize b hlt
    · rw [hnew b hge hb]
      rfl
  · intro b hb
    rcases Nat.lt_or_ge b cfg.blockTypeCount with hlt | hge
    · rw [(hold b hlt).freeSlotsCnt]
      exact hi.room b hlt
    · rw [hnew b hge hb]
      exact Nat.zero_le _
  · intro k iv hk
    obtain ⟨hb, hl⟩ := hi.live k iv hk
    exact ⟨hb.trans_le hcount, (hsame _ hb).symm ▸ hl⟩
  · intro b hb x off hx
    rcases Nat.lt_or_ge b cfg.blockTypeCount with hlt | hge
    · obtain ⟨j, hj, hoff⟩ := hi.slot b hlt x off (howns b hlt x off hx)
      refine ⟨j, ?_, ?_⟩
      · rw [BlockFile.carved, (hold b hlt).blockCnt, (hold b hlt).freeSlotsCnt]
        exact hj
      · rw [hoff, slotOffset, slotOffset, hsame b hlt]
    · exact absurd hx (hnone b hge hb x off)
  · intro b hb
    rcases Nat.lt_or_ge b cfg.blockTypeCount with hlt | hge
    · exact (hi.exclusive b hlt).mono (howns b hlt)
    · intro x y off hx
      exact absurd hx (hnone b hge hb x off)

/-! ## All headers -/

namespace World

/-- The header of every file of the table holds its table entry. -/
def Mirrored (w : World) : Prop :=
  ∀ b < w.blockTypeCount, ∃ file, w.file b = some file ∧ HeaderOf (w.fileHandler b) file

/-- The slot invariant of the table that would be rebuilt from the disk. -/
def DiskSlots (w : World) : Prop :=
  SlotInv w.config (fun b => loadedEntry w.disk (w.blockSizeArray b)) w.index none

/-- Every carved slot lies below the largest file offset. -/
def Bounded (w : World) : Prop :=
  ∀ b < w.blockTypeCount, ∀ j < (w.fileHandler b).carved, slotOffset w.config b j ≤ offMax

end World

/-- All writes to the data files are complete. -/
def Faults.Writes (f : Faults) : Prop :=
  ∀ kind b, f.pwrite kind b = .complete

lemma noFaults_writes : noFaults.Writes := fun _ _ => rfl

section Mirrored

variable {f : Faults} {w : World} {hand : Option (ℕ × ℕ)}

/-- If the headers hold the table entries, then the table that would be rebuilt has the slot
invariant. -/
lemma World.Mirrored.diskSlots (hm : w.Mirrored) (hu : Usable w) (hi : w.SlotsOk) :
    w.DiskSlots := by
  refine SlotInv.reload hi hi.types hi.sizes le_rfl ?_
    (fun b hge hlt => absurd hlt (Nat.not_lt.2 hge))
  intro b hb
  obtain ⟨file, hfile, hh⟩ := hm b hb
  have hdisk : w.disk (.data (w.blockSizeArray b)) = some file := by
    rw [World.file, hu.opened b hb] at hfile
    exact hfile
  simp only [loadedEntry, hdisk]
  exact hh.sameEntry (hi.room b hb) (hu.opened b hb)

/-- The number of carved slots. -/
lemma World.Bounded.carved_le (hbd : w.Bounded)
    (hi : SlotInv w.config w.fileHandler w.index hand) {b : ℕ} (hb : b < w.blockTypeCount) :
    (w.fileHandler b).carved ≤ offMax + 1 := by
  have hpos := hi.size_pos hb
  by_contra hlt
  have hoff := hbd b hb offMax.succ (by omega)
  have hmul : offMax.succ ≤ w.config.blockSizeArray b * offMax.succ :=
    Nat.le_mul_of_pos_left _ hpos
  unfold slotOffset at hoff
  omega

/-- A block size fits a word. -/
lemma blockSize_lt {b : ℕ} (hb : b < maxBlockCnt) : beginningSize * 2 ^ b < 256 ^ 8 :=
  (blockSize_lt_int hb).trans (by decide)

/-- The numbers of a table entry fit their words, also if one more slot is carved. -/
lemma World.Bounded.fits (hbd : w.Bounded) (hi : SlotInv w.config w.fileHandler w.index hand)
    {b : ℕ} (hb : b < w.blockTypeCount) {fh : BlockFile}
    (hsize : fh.blockSize = (w.fileHandler b).blockSize)
    (hcnt : fh.blockCnt ≤ (w.fileHandler b).carved + 1) (hroom : fh.freeSlotsCnt ≤ maxFreeSlots) :
    Fits fh := by
  have hcarved := hbd.carved_le hi hb
  refine ⟨?_, ?_, hroom⟩
  · rw [hsize, hi.blockSize b hb, hi.sizes b hb]
    exact blockSize_lt (hb.trans_le hi.types)
  · have hmax : offMax + 2 < 256 ^ 8 := by decide
    omega

/-- Changing one file and its table entry. -/
lemma World.Mirrored.step {w' : World} (hm : w.Mirrored)
    (hcount : w'.blockTypeCount = w.blockTypeCount) (b : ℕ)
    (hother : ∀ b' < w.blockTypeCount, b' ≠ b →
      w'.file b' = w.file b' ∧ w'.fileHandler b' = w.fileHandler b')
    (hself : b < w.blockTypeCount →
      ∃ file, w'.file b = some file ∧ HeaderOf (w'.fileHandler b) file) : w'.Mirrored := by
  intro b' hb'
  rw [hcount] at hb'
  by_cases hbb : b' = b
  · subst hbb
    exact hself hb'
  · obtain ⟨hfile, hentry⟩ := hother b' hb' hbb
    rw [hfile, hentry]
    exact hm b' hb'

/-- A `pwrite` to a file of the table leaves the other files alone. -/
lemma Usable.file_pwrite_other (hu : Usable w) {b b' : ℕ} (hb : b < w.blockTypeCount)
    (hb' : b' < w.blockTypeCount) (hne : b' ≠ b) (t : Transfer) (off : ℕ) (data : List UInt8) :
    (w.pwrite t b off data).2.file b' = w.file b' :=
  file_pwrite_of_ne t (hu.fd_ne hb' hb hne)

/-- A write behind the header. -/
lemma World.Mirrored.record (hm : w.Mirrored) (hu : Usable w) {b : ℕ} (hb : b < w.blockTypeCount)
    (hroom : (w.fileHandler b).freeSlotsCnt ≤ maxFreeSlots) (t : Transfer) {off : ℕ}
    (hoff : dataSectionPos ≤ off) (data : List UInt8) : (w.pwrite t b off data).2.Mirrored := by
  refine hm.step (by simp) b (fun b' hb' hne => ?_) (fun _ => ?_)
  · exact ⟨hu.file_pwrite_other hb hb' hne t off data, by simp⟩
  · obtain ⟨file, hfile, hh⟩ := hm b hb
    obtain ⟨file', hfile', hwhole⟩ := hu.file hb
    obtain rfl : file' = file := Option.some.inj (hfile'.symm.trans hfile)
    rw [World.fileHandler_pwrite]
    by_cases hmax : offMax < off + data.length
    · rw [pwrite_of_refused t (Or.inr hmax)]
      exact ⟨file', hfile, hh⟩
    · rw [(file_pwrite t hfile (Nat.not_lt.1 hmax)).2]
      exact ⟨_, rfl, hh.pwrite_behind hwhole hroom hoff _⟩

/-- The header of a file is written, with the entries of the list of free slots on disk already. -/
lemma World.Mirrored.header (hm : w.Mirrored) (hf : f.Writes) (hu : Usable w) {b : ℕ}
    (hb : b < w.blockTypeCount) {fh : BlockFile} (hfd : fh.fd = (w.fileHandler b).fd)
    (hfits : Fits fh)
    (hslots : ∀ file, w.file b = some file → ∀ i < fh.freeSlotsCnt,
      file.word (slotsSectionPos + 8 * i) = fh.freeSlotsOffset i) :
    ((w.setFileHandler b fh).syncHeader f b).Mirrored := by
  have hu' : Usable (w.setFileHandler b fh) := hu.setFileHandler hfd
  refine hm.step (by simp) b (fun b' hb' hne => ?_) (fun _ => ?_)
  · refine ⟨?_, by simp [Function.update_of_ne hne]⟩
    refine (hu'.file_pwrite_other hb hb' hne _ _ _).trans ?_
    simp [World.file, Function.update_of_ne hne]
  · obtain ⟨file, hfile, hwhole⟩ := hu.file hb
    have hfile' : (w.setFileHandler b fh).file b = some file := by
      simpa [World.file, hfd] using hfile
    have hlen : 0 + ((w.setFileHandler b fh).fileHandler b).headerImage.length ≤ offMax := by
      simp [BlockFile.headerImage, offMax]
    refine ⟨_, (file_pwrite (f.pwrite .header b) hfile' hlen).2, ?_⟩
    rw [hf]
    simp only [World.fileHandler_pwrite, World.fileHandler_setFileHandler, Function.update_self]
    exact headerOf_pwrite_header hwhole hfits (hslots file hfile)

end Mirrored

end Linglongta
