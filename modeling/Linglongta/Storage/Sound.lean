import Linglongta.Storage.Headers

/-!
# Sound stores, and opening them again

When all writes to the data files are complete, an open store is `Sound`: it has the slot invariant,
and the headers on disk hold the table entries.  `append_block`, `modify_block` and
`do_delete_block` keep it sound.

`Reopened w₁ w'` describes the store `w'` that `open_storage` makes from what the open store `w₁`
has on disk, after a close or a crash.  It has the slot invariant if the table that can be rebuilt
from the disk has it, it holds what was stored, and it is sound if `w₁` was.
-/

namespace Linglongta

open Prog

/-! ## Sound stores -/

/-- There are no other data files than those of the table. -/
def World.Tight (w : World) : Prop :=
  ∀ s, w.disk (.data s) ≠ none → ∃ b < w.blockTypeCount, s = w.blockSizeArray b

/-- What holds of an open store when all writes to the data files are complete. -/
structure Sound (w : World) : Prop where
  /-- It can be used. -/
  usable : Usable w
  /-- The slot invariant. -/
  slots : w.SlotsOk
  /-- The headers hold the table entries. -/
  mirrored : w.Mirrored
  /-- The slots lie below the largest file offset. -/
  bounded : w.Bounded
  /-- There are no other data files. -/
  tight : w.Tight

section Sound

variable {f : Faults} {w : World}

lemma World.Tight.pwrite (ht : w.Tight) (t : Transfer) (b off : ℕ) (data : List UInt8) :
    (w.pwrite t b off data).2.Tight := by
  intro s hs
  rw [World.blockTypeCount_pwrite, World.blockSizeArray_pwrite]
  refine ht s ?_
  rcases disk_pwrite_cases w t b off data with hsame | ⟨d, file, hfile, hdisk⟩
  · rwa [hsame] at hs
  · by_cases hd : Fd.data s = d
    · simp [hd, hfile]
    · rwa [hdisk, Function.update_of_ne hd] at hs

/-- Only the number of files, the descriptors, the table entries and the disk matter. -/
lemma World.Mirrored.congr {w' : World} (hm : w.Mirrored)
    (hcount : w'.blockTypeCount = w.blockTypeCount) (hentry : w'.fileHandler = w.fileHandler)
    (hdisk : w'.disk = w.disk) : w'.Mirrored := by
  unfold World.Mirrored World.file
  rw [hcount, hentry, hdisk]
  exact hm

lemma World.Tight.congr {w' : World} (ht : w.Tight) (hcfg : w'.config = w.config)
    (hdisk : w'.disk = w.disk) : w'.Tight := by
  unfold World.Tight
  rw [show w'.blockTypeCount = w.blockTypeCount from congrArg Config.blockTypeCount hcfg,
    show w'.blockSizeArray = w.blockSizeArray from congrArg Config.blockSizeArray hcfg, hdisk]
  exact ht

/-- The header that `append_block` writes. -/
lemma Sound.taken (hs : Sound w) (hf : f.Writes) {b : ℕ} (hb : b < w.blockTypeCount) :
    ((w.setFileHandler b (w.fileHandler b).takeSlot.2).syncHeader f b).Mirrored := by
  have hroom := hs.slots.room b hb
  have hfits : Fits (w.fileHandler b).takeSlot.2 := by
    refine hs.bounded.fits hs.slots hb ?_ ?_ ?_
    · unfold BlockFile.takeSlot
      split <;> rfl
    · unfold BlockFile.takeSlot BlockFile.carved
      split <;> simp only <;> omega
    · unfold BlockFile.takeSlot
      split <;> simp only <;> omega
  refine hs.mirrored.header hf hs.usable hb (fd_takeSlot _) hfits ?_
  intro file hfile i hi
  obtain ⟨file', hfile', hh⟩ := hs.mirrored b hb
  obtain rfl : file' = file := Option.some.inj (hfile'.symm.trans hfile)
  obtain ⟨hlt, hoff⟩ := takeSlot_free _ i hi
  rw [hoff]
  exact hh.slots i (by omega)

/-- The slot that `append_block` takes lies behind the header. -/
lemma dataSectionPos_le_takeSlot (hi : w.SlotsOk) {b : ℕ} (hb : b < w.blockTypeCount) :
    dataSectionPos ≤ (w.fileHandler b).takeSlot.1 := by
  rcases takeSlot_cases hi hb with ⟨-, -, j, -, hoff⟩ | ⟨-, -, hoff⟩
  · rw [hoff]
    exact Nat.le_add_right _ _
  · rw [hoff]
    exact Nat.le_add_right _ _

/-- The store while `append_block` holds the file lock, before and after the write of the record. -/
lemma Sound.placed (hs : Sound w) (hf : f.Writes) {b : ℕ} (hb : b < w.blockTypeCount)
    (data : List UInt8) : (w.placed f b data).Mirrored := by
  have hu : Usable ((w.setFileHandler b (w.fileHandler b).takeSlot.2).syncHeader f b) :=
    (hs.usable.setFileHandler (fd_takeSlot _)).pwrite _ _ _ _
  refine (hs.taken hf hb).record hu (by simpa using hb) ?_ _
    (dataSectionPos_le_takeSlot hs.slots hb) data
  have htake := (SlotInv.take hs.slots hb).room b hb
  simpa using htake

/-- `append_block` of a record that can be written. -/
lemma Sound.appended (hs : Sound w) (hf : f.Writes) {b : ℕ} (hb : b < w.blockTypeCount) (k : Key)
    {data : List UInt8} (hl : data.length ≤ w.blockSizeArray b)
    (hoff : (w.fileHandler b).takeSlot.1 ≤ offMax) : Sound (w.appended f b k data) where
  usable := hs.usable.appended f hb k data
  slots := hs.slots.appended f k hb hl
  mirrored := (hs.placed hf hb data).congr (by simp) (by simp) (by simp)
  bounded := by
    intro b' hb' j hj
    rw [World.blockTypeCount_appended] at hb'
    rw [World.config_appended]
    rw [World.fileHandler_appended] at hj
    by_cases hbb : b' = b
    · subst hbb
      rw [Function.update_self] at hj
      rcases takeSlot_cases hs.slots hb' with ⟨-, hcarved, -⟩ | ⟨-, hcarved, hslot⟩
      · exact hs.bounded b' hb' j (hcarved ▸ hj)
      · rw [hcarved] at hj
        rcases Nat.lt_succ_iff_lt_or_eq.1 hj with hlt | rfl
        · exact hs.bounded b' hb' j hlt
        · exact hslot ▸ hoff
    · rw [Function.update_of_ne hbb] at hj
      exact hs.bounded b' hb' j hj
  tight := by
    have hplaced : (w.placed f b data).Tight := by
      have hset : (w.setFileHandler b (w.fileHandler b).takeSlot.2).Tight := hs.tight
      exact (hset.pwrite _ _ _ _).pwrite _ _ _ _
    exact hplaced.congr (by simp) (by simp)

/-- The write of the record in `modify_block`. -/
lemma Sound.rewritten (hs : Sound w) {k : Key} {iv : IndexValue} (hk : w.index k = some iv)
    (data : List UInt8) : (w.syncRecord f iv.blockId data iv.offset).Mirrored := by
  have hb := (hs.slots.live k iv hk).1
  exact hs.mirrored.record hs.usable hb (hs.slots.room _ hb) _ (hs.slots.dataSectionPos_le hk) data

/-- `modify_block`. -/
lemma Sound.modified (hs : Sound w) {k : Key} {iv : IndexValue} {data : List UInt8}
    (hk : w.index k = some iv) (hl : data.length ≤ w.blockSizeArray iv.blockId) :
    Sound (w.modified f iv k data) := by
  have htight : (w.syncRecord f iv.blockId data iv.offset).Tight :=
    hs.tight.pwrite _ _ _ _
  refine ⟨(Usable.kept f).modified hs.usable hk hl, hs.slots.modified f hk hl,
    (hs.rewritten (f := f) hk data).congr (by simp) (by simp) (by simp), ?_,
    htight.congr (by simp) (by simp)⟩
  · intro b' hb' j hj
    rw [World.blockTypeCount_modified] at hb'
    rw [World.fileHandler_modified] at hj
    rw [World.config_modified]
    exact hs.bounded b' hb' j hj

/-- The offset of a record fits a word. -/
lemma Sound.offset_le (hs : Sound w) {k : Key} {iv : IndexValue} (hk : w.index k = some iv) :
    iv.offset ≤ offMax := by
  have hb := (hs.slots.live k iv hk).1
  obtain ⟨j, hj, hoff⟩ := hs.slots.slot _ hb (.live k) _ ⟨iv, hk, rfl, rfl⟩
  rw [hoff]
  exact hs.bounded _ hb j hj

/-- The table entry with which `do_delete_block` frees a slot fits its words. -/
lemma Sound.putSlot_fits (hs : Sound w) {b : ℕ} (hb : b < w.blockTypeCount)
    (hroom : (w.fileHandler b).freeSlotsCnt < maxFreeSlots) (off : ℕ) :
    Fits ((w.fileHandler b).putSlot off) := by
  refine hs.bounded.fits hs.slots hb rfl ?_ hroom
  simp only [BlockFile.putSlot, BlockFile.carved]
  omega

/-- `do_delete_block` writes the header and then the entry of the list of free slots. -/
lemma World.Mirrored.freed (hm : w.Mirrored) (hf : f.Writes) (hu : Usable w) {b off : ℕ}
    (hb : b < w.blockTypeCount)
    (hfits : (w.fileHandler b).freeSlotsCnt < maxFreeSlots →
      Fits ((w.fileHandler b).putSlot off))
    (hoff : off < 256 ^ 8) : (w.freed f b off).Mirrored := by
  unfold World.freed
  split
  · exact hm
  · rename_i hfull
    have hroom : (w.fileHandler b).freeSlotsCnt < maxFreeSlots := by omega
    have hmax : maxFreeSlots < 256 ^ 8 := by decide
    have hu₁ : Usable (w.setFileHandler b ((w.fileHandler b).putSlot off)) :=
      hu.setFileHandler rfl
    have hu₂ : Usable ((w.setFileHandler b ((w.fileHandler b).putSlot off)).syncHeader f b) :=
      hu₁.pwrite _ _ _ _
    refine hm.step (by simp) b (fun b' hb' hne => ?_) (fun _ => ?_)
    · refine ⟨?_, by simp [Function.update_of_ne hne]⟩
      refine (hu₂.file_pwrite_other (by simpa using hb) (by simpa using hb') hne _ _ _).trans ?_
      refine (hu₁.file_pwrite_other hb hb' hne _ _ _).trans ?_
      simp [World.file, Function.update_of_ne hne]
    · obtain ⟨file, hfile, hh⟩ := hm b hb
      obtain ⟨file', hfile', hwhole⟩ := hu.file hb
      obtain rfl : file' = file := Option.some.inj (hfile'.symm.trans hfile)
      have hfile₁ : (w.setFileHandler b ((w.fileHandler b).putSlot off)).file b = some file' := by
        simpa [World.file, BlockFile.putSlot] using hfile
      have hlen : 0 + ((w.setFileHandler b ((w.fileHandler b).putSlot off)).fileHandler b
          ).headerImage.length ≤ offMax := by
        simp [BlockFile.headerImage, offMax]
      have hfile₂ := (file_pwrite (f.pwrite .header b) hfile₁ hlen).2
      have hin := slot_le_dataSectionPos hroom
      have hlen₂ : slotsSectionPos + 8 * (w.fileHandler b).freeSlotsCnt + (Bytes.toLE 8
          ((((w.setFileHandler b ((w.fileHandler b).putSlot off)).syncHeader f b).fileHandler
            b).freeSlotsOffset (w.fileHandler b).freeSlotsCnt)).length ≤ offMax := by
        rw [Bytes.length_toLE]
        exact hin.trans (by decide)
      refine ⟨_, (file_pwrite (f.pwrite .slot b) hfile₂ hlen₂).2, ?_⟩
      rw [hf, hf]
      simp only [World.fileHandler_pwrite, World.fileHandler_setFileHandler, Function.update_self]
      obtain ⟨h1, h2, h3, h4⟩ := word_pwrite_headerImage hwhole (hfits hroom).blockSize
        (hfits hroom).blockCnt ((hfits hroom).room.trans_lt hmax)
      refine headerOf_pwrite_slot (hwhole.trans (ByteFile.size_le_pwrite _ _ _)) hroom rfl ?_ h1 h2
        h3 ?_
      · simpa [BlockFile.putSlot] using hoff
      · intro i hi
        refine (h4 i (by omega)).trans ((hh.slots i hi).trans ?_)
        simp only [BlockFile.putSlot]
        rw [Function.update_of_ne hi.ne]

/-- The part of `do_delete_block` that is about the index. -/
lemma Sound.unindexed (hs : Sound w) (k : Key) (iv : IndexValue) :
    Usable (w.unindexed f iv k) ∧ (w.unindexed f iv k).Mirrored ∧ (w.unindexed f iv k).Tight :=
  ⟨(hs.usable.logAppend _ _).delRecord _ k, hs.mirrored.congr (by simp) (by simp) (by simp),
    hs.tight.congr (by simp) (by simp)⟩

/-- `do_delete_block`. -/
lemma Sound.deleted (hs : Sound w) (hf : f.Writes) {k : Key} {iv : IndexValue}
    (hk : w.index k = some iv) : Sound (w.deleted f iv k) := by
  have hb := (hs.slots.live k iv hk).1
  obtain ⟨hun, hmun, htun⟩ := hs.unindexed (f := f) k iv
  have hoff : iv.offset < 256 ^ 8 := (hs.offset_le hk).trans_lt (by decide)
  refine ⟨hs.usable.deleted f iv k, hs.slots.deleted f hk, ?_, ?_, ?_⟩
  · unfold World.deleted
    split
    · exact hmun
    · refine hmun.freed hf hun (by simpa using hb) ?_ hoff
      simp only [World.fileHandler_unindexed]
      exact fun hroom => hs.putSlot_fits hb hroom iv.offset
  · intro b' hb' j hj
    rw [World.blockTypeCount_deleted] at hb'
    rw [carved_deleted f hs.slots hk] at hj
    rw [World.config_deleted]
    exact hs.bounded b' hb' j hj
  · unfold World.deleted
    split
    · exact htun
    · unfold World.freed
      split
      · exact htun
      · have hput : ((w.unindexed f iv k).setFileHandler iv.blockId
            (((w.unindexed f iv k).fileHandler iv.blockId).putSlot iv.offset)).Tight := htun
        exact (hput.pwrite _ _ _ _).pwrite _ _ _ _

end Sound

/-! ## Opening again -/

/-- A store that is not open and holds what the open store `w₁` has on disk. -/
structure Rests (w₁ w : World) : Prop where
  /-- The global variables are not set up. -/
  inited : w.inited = false
  /-- The data files. -/
  disk : w.disk = w₁.disk
  /-- The index. -/
  index : w.index = w₁.index

/-- What a reopening of `w` gives when `w₁` was the open store before. -/
structure Reopened (w₁ w' : World) : Prop where
  /-- It can be used. -/
  usable : Usable w'
  /-- The table has not become smaller. -/
  count : w₁.blockTypeCount ≤ w'.blockTypeCount
  /-- The index is the same. -/
  index : w'.index = w₁.index
  /-- The old entries of the table are read from the disk. -/
  old : ∀ b < w₁.blockTypeCount,
    w'.fileHandler b = loadedEntry w₁.disk (w₁.blockSizeArray b) ∧ w'.file b = w₁.file b
  /-- The new entries belong to new files. -/
  new : ∀ b, w₁.blockTypeCount ≤ b → b < w'.blockTypeCount →
    w'.fileHandler b = BlockFile.new (w'.blockSizeArray b) ∧
      w'.file b = some (newFile (w'.blockSizeArray b))
  /-- There are no other data files. -/
  tight : w'.Tight

section Reopen

variable {w₁ w w' : World}

lemma Rests.closed (hr : Rests w₁ w) (hu : Usable w₁) {n : ℕ}
    (hgrow : ∀ b < w₁.blockTypeCount, InTable n b) : Closed n w where
  inited := hr.inited
  whole := hr.disk ▸ hu.whole
  indexed := fun k iv hk => hgrow _ (hu.indexed k iv (hr.index ▸ hk))

/-- Opening a store again, with the same or a larger table. -/
lemma Rests.reopened (hr : Rests w₁ w) (hu : Usable w₁) (ht : w₁.Tight) {largest : ℕ}
    {bsp : Option Handle} (hgrow : ∀ b < w₁.blockTypeCount, InTable (effectiveSize largest) b)
    (hopen : openStorage {} largest w = ⟨0, bsp, w'⟩) : Reopened w₁ w' := by
  have hc := hr.closed hu hgrow
  have ho : Opened (effectiveSize largest) w' := hc.opened le_rfl hopen
  have hlimit := effectiveSize_of_open hc.inited (congrArg OpenResult.ret hopen)
  obtain ⟨w'', hopen', -, hcfg, hindex, -, -, hentry, hother⟩ :=
    openStorage_spec largest hc.inited hc.whole hlimit
  obtain rfl : w' = w'' := congrArg OpenResult.world (hopen.symm.trans hopen')
  have hcount : w₁.blockTypeCount ≤ w'.blockTypeCount := by
    by_contra hlt
    have hin := (ho.table w'.blockTypeCount).2 (hgrow _ (by omega))
    exact absurd hin (lt_irrefl _)
  have hsizes : w'.blockSizeArray = (tableOf largest).blockSizeArray :=
    congrArg Config.blockSizeArray hcfg
  have hcnt : w'.blockTypeCount = (tableOf largest).blockTypeCount :=
    congrArg Config.blockTypeCount hcfg
  have hsame : ∀ b < w₁.blockTypeCount, w'.blockSizeArray b = w₁.blockSizeArray b :=
    fun b hb => (ho.usable.sizes b (hb.trans_le hcount)).trans (hu.sizes b hb).symm
  have hfile : ∀ b < w'.blockTypeCount,
      w'.file b = some (loadedFile w.disk (w'.blockSizeArray b)) := by
    intro b hb
    rw [World.file, ho.usable.opened b hb, hsizes]
    exact (hentry b (hcnt ▸ hb)).2
  refine ⟨ho.usable, hcount, hindex.trans hr.index, ?_, ?_, ?_⟩
  · intro b hb
    have hb' := hb.trans_le hcount
    refine ⟨?_, ?_⟩
    · rw [(hentry b (hcnt ▸ hb')).1, ← hsizes, hsame b hb, hr.disk]
    · obtain ⟨file, hf⟩ := Option.ne_none_iff_exists'.1 (hu.present b hb)
      rw [hfile b hb', hsame b hb, hr.disk, World.file, hu.opened b hb, loadedFile, hf]
      exact hf.symm
  · intro b hge hb
    have hnone : w.disk (.data (w'.blockSizeArray b)) = none := by
      by_contra hsome
      rw [hr.disk] at hsome
      obtain ⟨b', hb', heq⟩ := ht _ hsome
      rw [ho.usable.sizes b hb, hu.sizes b' hb'] at heq
      have hbb : b = b' := blockSize_inj heq
      omega
    refine ⟨?_, ?_⟩
    · rw [(hentry b (hcnt ▸ hb)).1, ← hsizes, loadedEntry, hnone]
    · rw [hfile b hb, loadedFile, hnone]
      rfl
  · intro s hs
    by_cases hin : ∃ b < w'.blockTypeCount, s = w'.blockSizeArray b
    · exact hin
    · have hsame' : w'.disk (.data s) = w.disk (.data s) := by
        refine hother _ (fun b hb heq => hin ⟨b, hcnt ▸ hb, ?_⟩)
        rw [hsizes]
        simpa using heq
      rw [hsame', hr.disk] at hs
      obtain ⟨b, hb, heq⟩ := ht s hs
      exact ⟨b, hb.trans_le hcount, heq.trans (hsame b hb).symm⟩

namespace Reopened

/-- The slot invariant of the reopened store is that of the disk. -/
lemma slots (hr : Reopened w₁ w') (hd : w₁.DiskSlots) : w'.SlotsOk := by
  unfold World.SlotsOk
  rw [hr.index]
  refine SlotInv.reload hd hr.usable.types hr.usable.sizes hr.count ?_ ?_
  · intro b hb
    rw [(hr.old b hb).1]
    exact ⟨rfl, rfl, rfl, rfl, fun _ _ => rfl⟩
  · intro b hge hb
    exact (hr.new b hge hb).1

/-- The headers hold the table entries of the reopened store. -/
lemma mirrored (hr : Reopened w₁ w') (hu : Usable w₁) (hd : w₁.DiskSlots) : w'.Mirrored := by
  have hi := hr.slots hd
  intro b hb
  rcases Nat.lt_or_ge b w₁.blockTypeCount with hlt | hge
  · obtain ⟨hentry, hfile⟩ := hr.old b hlt
    obtain ⟨file, hdisk⟩ := Option.ne_none_iff_exists'.1 (hu.present b hlt)
    have hroom := hi.room b hb
    rw [hentry, loadedEntry, hdisk] at hroom
    refine ⟨file, ?_, ?_⟩
    · rw [hfile, World.file, hu.opened b hlt]
      exact hdisk
    · rw [hentry, loadedEntry, hdisk]
      exact headerOf_ofFile _ hroom
  · obtain ⟨hentry, hfile⟩ := hr.new b hge hb
    refine ⟨_, hfile, ?_⟩
    rw [hentry, hr.usable.sizes b hb]
    exact headerOf_newFile (blockSize_lt (hb.trans_le hr.usable.types))

/-- What is stored is stored in the reopened store. -/
lemma stored (hr : Reopened w₁ w') (hu : Usable w₁) {k : Key} {v : Option (List UInt8)}
    (hs : Stored w₁ k v) : Stored w' k v := by
  refine hs.of_read (congrFun hr.index k) ?_
  intro iv d hk _ hread
  unfold World.pread at hread ⊢
  rw [(hr.old _ (hu.indexed k iv hk)).2]
  exact hread

/-- A sound store stays sound. -/
lemma sound (hr : Reopened w₁ w') (hs : Sound w₁) : Sound w' := by
  have hd := hs.mirrored.diskSlots hs.usable hs.slots
  refine ⟨hr.usable, hr.slots hd, hr.mirrored hs.usable hd, ?_, hr.tight⟩
  intro b hb j hj
  rcases Nat.lt_or_ge b w₁.blockTypeCount with hlt | hge
  · have hsize : w'.config.blockSizeArray b = w₁.config.blockSizeArray b :=
      (hr.usable.sizes b hb).trans (hs.usable.sizes b hlt).symm
    rw [slotOffset, hsize]
    refine hs.bounded b hlt j ?_
    obtain ⟨file, hfile, hh⟩ := hs.mirrored b hlt
    have hdisk : w₁.disk (.data (w₁.blockSizeArray b)) = some file := by
      rw [World.file, hs.usable.opened b hlt] at hfile
      exact hfile
    have hsame := hh.sameEntry (hs.slots.room b hlt) (hs.usable.opened b hlt)
    rw [(hr.old b hlt).1, loadedEntry, hdisk] at hj
    simp only at hj
    rwa [BlockFile.carved, hsame.blockCnt, hsame.freeSlotsCnt] at hj
  · rw [(hr.new b hge hb).1] at hj
    exact absurd hj (Nat.not_lt_zero j)

end Reopened

end Reopen

/-! ## Closing -/

section Close

variable {c : CloseFaults} {w : World}

/-- Writing a header that is on disk already. -/
lemma Sound.syncHeader {f : Faults} (hs : Sound w) (hf : f.Writes) {b : ℕ}
    (hb : b < w.blockTypeCount) : Sound (w.syncHeader f b) := by
  have hset : w.setFileHandler b (w.fileHandler b) = w := by
    simp [World.setFileHandler]
  have hfits : Fits (w.fileHandler b) := by
    refine hs.bounded.fits hs.slots hb rfl ?_ (hs.slots.room b hb)
    unfold BlockFile.carved
    omega
  have hm := hs.mirrored.header hf hs.usable hb rfl hfits ?_
  · rw [hset] at hm
    refine ⟨hs.usable.pwrite _ _ _ _, by simpa [World.SlotsOk] using hs.slots, hm, ?_,
      hs.tight.pwrite _ _ _ _⟩
    simpa [World.Bounded] using hs.bounded
  · intro file hfile i hi
    obtain ⟨file', hfile', hh⟩ := hs.mirrored b hb
    obtain rfl : file' = file := Option.some.inj (hfile'.symm.trans hfile)
    exact hh.slots i hi

/-- A `pwrite` depends on the descriptor and the disk. -/
lemma disk_pwrite_congr {w' : World} (t : Transfer) {b : ℕ}
    (hfd : (w'.fileHandler b).fd = (w.fileHandler b).fd) (hdisk : w'.disk = w.disk) (off : ℕ)
    (data : List UInt8) : (w'.pwrite t b off data).2.disk = (w.pwrite t b off data).2.disk := by
  have hfile : w'.file b = w.file b := by
    rw [World.file, World.file, hfd, hdisk]
  unfold World.pwrite World.setFile
  rw [hfile, hfd]
  split
  · exact hdisk
  · split
    · exact hdisk
    · split
      · exact hdisk
      · simp only
        rw [hdisk]

/-- What the loop of `close_storage` on the store `w` keeps: the property holds of the open store
with the disk as it is in `w'`, and the table entries differ in their descriptors only. -/
structure Closing (P : World → Prop) (w w' : World) : Prop where
  /-- The open store with the new disk. -/
  holds : P { w with disk := w'.disk }
  /-- The index is left alone. -/
  index : w'.index = w.index
  /-- The descriptors are closed one after the other. -/
  entry : ∀ b, w'.fileHandler b = w.fileHandler b ∨
    w'.fileHandler b = { w.fileHandler b with fd := none }

/-- One round of the loop of `close_storage`. -/
lemma Closing.step {P : World → Prop} {w' : World}
    (hP : ∀ w b, P w → b < w.blockTypeCount → P (w.syncHeader { pwrite := fun _ => c.pwrite } b))
    (hc : Closing P w w') {b : ℕ} (hb : b < w.blockTypeCount)
    (hpos : (w'.fileHandler b).fdPositive = true) :
    Closing P w (w'.syncHeader { pwrite := fun _ => c.pwrite } b
      |>.setFileHandler b { w'.fileHandler b with fd := none }) := by
  have hsame : w'.fileHandler b = w.fileHandler b := by
    rcases hc.entry b with h | h
    · exact h
    · rw [h] at hpos
      simp [BlockFile.fdPositive] at hpos
  refine ⟨?_, by simpa using hc.index, ?_⟩
  · have hstep := hP _ b hc.holds hb
    obtain ⟨disk, hdisk⟩ := World.pwrite_eq { w with disk := w'.disk } (c.pwrite b) b 0
      (w.fileHandler b).headerImage
    have hdisk' : (w'.syncHeader { pwrite := fun _ => c.pwrite } b).disk = disk := by
      have hcongr := disk_pwrite_congr (w := { w with disk := w'.disk }) (c.pwrite b) (b := b)
        (congrArg BlockFile.fd hsame) rfl 0 (w.fileHandler b).headerImage
      rw [hdisk] at hcongr
      rw [World.syncHeader, hsame]
      exact hcongr
    unfold World.syncHeader at hstep
    simp only at hstep
    rw [hdisk] at hstep
    simp only [World.disk_setFileHandler, hdisk']
    exact hstep
  · intro b'
    rw [World.fileHandler_setFileHandler]
    by_cases hbb : b' = b
    · subst hbb
      rw [Function.update_self, hsame]
      exact Or.inr rfl
    · rw [Function.update_of_ne hbb, World.fileHandler_pwrite]
      exact hc.entry b'

/-- What `close_storage` leaves on disk belongs to an open store with the same table, of which the
property still holds. -/
lemma close_rests {P : World → Prop} (bsp : Handle) (hu : Usable w)
    (hP : ∀ w b, P w → b < w.blockTypeCount → P (w.syncHeader { pwrite := fun _ => c.pwrite } b))
    (hw : P w) : (c.closeBdb = 0 → (closeStorage c bsp w).1 = 0) ∧
      ∃ w₁, P w₁ ∧ w₁.config = w.config ∧ w₁.fileHandler = w.fileHandler ∧
        Rests w₁ (closeStorage c bsp w).2 := by
  obtain ⟨hret, w', hc, hinit, hdisk, hindex⟩ := closeStorage_spec (c := c) (P := Closing P w)
    bsp hu (fun w' b hb hpos hc => hc.step hP hb hpos) ⟨hw, rfl, fun _ => Or.inl rfl⟩
  exact ⟨hret, _, hc.holds, rfl, rfl, hinit, hdisk, hindex.trans hc.index⟩

end Close

/-! ## An empty directory -/

section Blank

variable {w : World}

/-- An empty directory is that of an open store with an empty table. -/
lemma Blank.rests (hb : Blank w) : Rests { w with inited := true, blockTypeCount := 0 } w :=
  ⟨hb.closed, rfl, rfl⟩

lemma Blank.sound (hb : Blank w) : Sound { w with inited := true, blockTypeCount := 0 } := by
  refine ⟨⟨rfl, Nat.zero_le _, ?_, ?_, ?_, ?_, ?_⟩, ⟨Nat.zero_le _, ?_, ?_, ?_, ?_, ?_, ?_, ?_⟩,
    ?_, ?_, ?_⟩
  case refine_3 => exact fun k iv hk => absurd hk (by simp [hb.noEntry k])
  case refine_5 => exact fun s file hfile => absurd hfile (by simp [hb.noFile s])
  case refine_10 => exact fun k iv hk => absurd hk (by simp [hb.noEntry k])
  case refine_15 => exact fun s hs => absurd (hb.noFile s) hs
  all_goals exact fun b hb' => absurd hb' (Nat.not_lt_zero b)

/-- A new store is sound. -/
lemma Blank.open_sound (hb : Blank w) {largest : ℕ} {bsp : Option Handle} {w₁ : World}
    (hopen : openStorage {} largest w = ⟨0, bsp, w₁⟩) :
    Sound w₁ ∧ ∀ b, b < w₁.blockTypeCount ↔ InTable (effectiveSize largest) b := by
  have hs := hb.sound
  have hgrow : ∀ b < 0, InTable (effectiveSize largest) b :=
    fun b hb' => absurd hb' (Nat.not_lt_zero b)
  have hc := hb.rests.closed hs.usable hgrow
  exact ⟨(hb.rests.reopened hs.usable hs.tight hgrow hopen).sound hs,
    (hc.opened le_rfl hopen).table⟩

end Blank

end Linglongta
