import Linglongta.Storage.Records

/-!
# Stores that can be used

`Usable` collects what holds of an open store whatever the system answers: the table of block files
is open, each of its files is there and has a whole header, and the index refers to the table.  It
does not say that the slots are in order: a header that could not be written may leave the table of
the next session wrong.
-/

namespace Linglongta

open Prog

/-- What holds of an open store, whatever the system answers. -/
structure Usable (w : World) : Prop where
  /-- The global variables are set up. -/
  inited : w.inited = true
  /-- The table is not longer than its array. -/
  types : w.blockTypeCount ≤ maxBlockCnt
  /-- The block sizes. -/
  sizes : ∀ b < w.blockTypeCount, w.blockSizeArray b = beginningSize * 2 ^ b
  /-- Each entry of the table has the descriptor of its file. -/
  opened : ∀ b < w.blockTypeCount, (w.fileHandler b).fd = some (.data (w.blockSizeArray b))
  /-- Every index entry names a file of the table. -/
  indexed : ∀ k iv, w.index k = some iv → iv.blockId < w.blockTypeCount
  /-- The files are there. -/
  present : ∀ b < w.blockTypeCount, w.disk (.data (w.blockSizeArray b)) ≠ none
  /-- They have whole headers. -/
  whole : HeadersWhole w.disk

/-- What a `pwrite` does to the disk. -/
lemma disk_pwrite_cases (w : World) (t : Transfer) (b off : ℕ) (data : List UInt8) :
    (w.pwrite t b off data).2.disk = w.disk ∨
      ∃ d file, w.disk d = some file ∧ (w.pwrite t b off data).2.disk =
        Function.update w.disk d (some (file.pwrite off (t.bytes data))) := by
  cases hfd : (w.fileHandler b).fd with
  | none =>
    left
    rw [pwrite_of_refused t (Or.inl (by simp [World.file, hfd]))]
  | some d =>
    cases hdisk : w.disk d with
    | none =>
      left
      rw [pwrite_of_refused t (Or.inl (by simp [World.file, hfd, hdisk]))]
    | some file =>
      have hfile : w.file b = some file := by simp [World.file, hfd, hdisk]
      by_cases hoff : offMax < off + data.length
      · left
        rw [pwrite_of_refused t (Or.inr hoff)]
      · right
        exact ⟨d, file, hdisk, by simp [World.pwrite, hfile, hoff, World.setFile, hfd]⟩

/-- A `pwrite` never shortens a file. -/
lemma HeadersWhole.pwrite {w : World} (hw : HeadersWhole w.disk) (t : Transfer) (b off : ℕ)
    (data : List UInt8) : HeadersWhole (w.pwrite t b off data).2.disk := by
  rcases disk_pwrite_cases w t b off data with hsame | ⟨d, file, hfile, hdisk⟩
  · rwa [hsame]
  · intro n file' hfile'
    rw [hdisk] at hfile'
    by_cases hd : Fd.data n = d
    · subst hd
      rw [Function.update_self, Option.some.injEq] at hfile'
      rw [← hfile']
      exact (hw n file hfile).trans (ByteFile.size_le_pwrite _ _ _)
    · rw [Function.update_of_ne hd] at hfile'
      exact hw n file' hfile'

/-- A `pwrite` never removes a file. -/
lemma disk_pwrite_ne_none {w : World} {d : Fd} (hd : w.disk d ≠ none) (t : Transfer) (b off : ℕ)
    (data : List UInt8) : (w.pwrite t b off data).2.disk d ≠ none := by
  rcases disk_pwrite_cases w t b off data with hsame | ⟨d', file, -, hdisk⟩
  · rwa [hsame]
  · rw [hdisk]
    by_cases hd' : d = d'
    · subst hd'
      simp
    · rwa [Function.update_of_ne hd']

namespace Usable

variable {w : World}

lemma ready (hu : Usable w) : Ready w where
  types := hu.types
  opened := by
    intro b hb
    unfold BlockFile.fdPositive
    rw [hu.opened b hb]
  indexed := hu.indexed

/-- The file of each entry of the table. -/
lemma file (hu : Usable w) {b : ℕ} (hb : b < w.blockTypeCount) :
    ∃ file, w.file b = some file ∧ dataSectionPos ≤ file.size := by
  obtain ⟨file, hfile⟩ := Option.ne_none_iff_exists'.1 (hu.present b hb)
  refine ⟨file, ?_, hu.whole _ file hfile⟩
  rw [World.file, hu.opened b hb]
  exact hfile

/-- Different block files have different descriptors. -/
lemma fd_ne (hu : Usable w) {b c : ℕ} (hb : b < w.blockTypeCount) (hc : c < w.blockTypeCount)
    (hne : b ≠ c) : (w.fileHandler b).fd ≠ (w.fileHandler c).fd := by
  rw [hu.opened b hb, hu.opened c hc]
  simp only [ne_eq, Option.some.injEq, Fd.data.injEq]
  rw [hu.sizes b hb, hu.sizes c hc]
  intro h
  exact hne (blockSize_inj h)

/-! ### What the requests keep -/

lemma pwrite (hu : Usable w) (t : Transfer) (b off : ℕ) (data : List UInt8) :
    Usable (w.pwrite t b off data).2 where
  inited := by simpa using hu.inited
  types := by simpa using hu.types
  sizes := by simpa using hu.sizes
  opened := by simpa using hu.opened
  indexed := by simpa using hu.indexed
  present := by
    intro b' hb'
    rw [World.blockTypeCount_pwrite] at hb'
    rw [World.blockSizeArray_pwrite]
    exact disk_pwrite_ne_none (hu.present b' hb') t b off data
  whole := hu.whole.pwrite t b off data

lemma setFileHandler (hu : Usable w) {b : ℕ} {fh : BlockFile}
    (hfd : fh.fd = (w.fileHandler b).fd) : Usable (w.setFileHandler b fh) where
  inited := hu.inited
  types := hu.types
  sizes := hu.sizes
  opened := by
    intro b' hb'
    rw [World.fileHandler_setFileHandler]
    by_cases hbb : b' = b
    · subst hbb
      rw [Function.update_self, hfd]
      exact hu.opened b' hb'
    · rw [Function.update_of_ne hbb]
      exact hu.opened b' hb'
  indexed := hu.indexed
  present := hu.present
  whole := hu.whole

lemma logAppend (hu : Usable w) (out : Option ℕ) (ili : IndexLogItem) :
    Usable (w.logAppend out ili).2 :=
  ⟨hu.inited, hu.types, hu.sizes, hu.opened, hu.indexed, hu.present, hu.whole⟩

lemma insertRecord (hu : Usable w) (ret : Int) (k : Key) {iv : IndexValue}
    (hb : iv.blockId < w.blockTypeCount) : Usable (w.insertRecord ret k iv) := by
  unfold World.insertRecord
  split
  · refine ⟨hu.inited, hu.types, hu.sizes, hu.opened, ?_, hu.present, hu.whole⟩
    intro k' iv' hk'
    by_cases hkk : k' = k
    · subst hkk
      obtain rfl : iv = iv' := by simpa using hk'
      exact hb
    · exact hu.indexed k' iv' (by simpa [Function.update_of_ne hkk] using hk')
  · exact hu

lemma delRecord (hu : Usable w) (ret : Int) (k : Key) : Usable (w.delRecord ret k) := by
  unfold World.delRecord
  split
  · refine ⟨hu.inited, hu.types, hu.sizes, hu.opened, ?_, hu.present, hu.whole⟩
    intro k' iv' hk'
    by_cases hkk : k' = k
    · subst hkk
      simp at hk'
    · exact hu.indexed k' iv' (by simpa [Function.update_of_ne hkk] using hk')
  · exact hu

/-! ### What the operations keep -/

variable (f : Faults)

lemma appended (hu : Usable w) {b : ℕ} (hb : b < w.blockTypeCount) (k : Key) (data : List UInt8) :
    Usable (w.appended f b k data) := by
  have hplaced : Usable (w.placed f b data) :=
    ((hu.setFileHandler (fd_takeSlot _)).pwrite _ _ _ _).pwrite _ _ _ _
  refine (hplaced.logAppend _ _).insertRecord _ k ?_
  simpa [World.appendedValue] using hb

lemma deleted (hu : Usable w) (iv : IndexValue) (k : Key) : Usable (w.deleted f iv k) := by
  have hun : Usable (w.unindexed f iv k) := (hu.logAppend _ _).delRecord _ k
  unfold World.deleted
  split
  · exact hun
  · unfold World.freed
    split
    · exact hun
    · have hput : Usable ((w.unindexed f iv k).setFileHandler iv.blockId
          (((w.unindexed f iv k).fileHandler iv.blockId).putSlot iv.offset)) :=
        hun.setFileHandler rfl
      exact (hput.pwrite _ _ _ _).pwrite _ _ _ _

/-- Every call keeps the store usable, whatever happens. -/
lemma kept : Kept f Usable where
  ready := ready
  appended := fun k hu hb _ => hu.appended f hb k _
  modified := fun hu hk _ => by
    refine ((hu.pwrite _ _ _ _).logAppend _ _).insertRecord _ _ ?_
    simpa [World.modifiedValue] using hu.indexed _ _ hk
  stopped := fun hu _ _ => hu.pwrite _ _ _ _
  deleted := fun hu _ => hu.deleted f _ _

end Usable

end Linglongta
