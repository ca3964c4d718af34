import Linglongta.Storage.Runs

/-!
# What the store holds under a key

`Stored w k v` says that the store holds the value `v` under the key `k`: for a value, an index
entry with its length and its CRC32 that leads to its bytes.  `find_block` answers by it
(`findReply_of_stored`).

An operation on one key leaves what is stored under the other keys alone, whatever the system
answers: the header is written in front of all slots, and a record is written to a slot that no
other record has.
-/

namespace Linglongta

open Prog

/-! ## Reading after a write -/

section Frame

variable {w : World}

@[simp] lemma bytes_complete (data : List UInt8) : Transfer.complete.bytes data = data := rfl

/-- The bytes of a transfer are not more than there are. -/
lemma length_bytes_le (t : Transfer) (data : List UInt8) : (t.bytes data).length ≤ data.length := by
  cases t <;> simp [Transfer.bytes]

/-- A `pwrite` replaces the contents of the file behind the descriptor, if it is there. -/
lemma file_pwrite (t : Transfer) {b off : ℕ} {data : List UInt8} {file : ByteFile}
    (hfile : w.file b = some file) (hoff : off + data.length ≤ offMax) :
    (w.pwrite t b off data).1 = t.count data.length ∧
      (w.pwrite t b off data).2.file b = some (file.pwrite off (t.bytes data)) := by
  have hlt : ¬offMax < off + data.length := by omega
  unfold World.file at hfile
  cases hfd : (w.fileHandler b).fd with
  | none => simp [hfd] at hfile
  | some d =>
    have hdisk : w.disk d = some file := by simpa [hfd] using hfile
    simp [World.pwrite, hdisk, hlt, World.setFile, hfd, World.file]

/-- A `pwrite` leaves the files behind other descriptors alone. -/
lemma file_pwrite_of_ne (t : Transfer) {b b' off : ℕ} {data : List UInt8}
    (hfd : (w.fileHandler b').fd ≠ (w.fileHandler b).fd) :
    (w.pwrite t b off data).2.file b' = w.file b' := by
  unfold World.pwrite
  split
  · rfl
  · split
    · rfl
    · unfold World.setFile World.file
      cases hd : (w.fileHandler b).fd with
      | none => rfl
      | some d =>
        cases hd' : (w.fileHandler b').fd with
        | none => simp
        | some d' =>
          have hne : d' ≠ d := by
            rintro rfl
            exact hfd (hd'.trans hd.symm)
          simp [Function.update_of_ne hne]

/-- A `pwrite` that the kernel refuses changes nothing. -/
lemma pwrite_of_refused (t : Transfer) {b off : ℕ} {data : List UInt8}
    (h : w.file b = none ∨ offMax < off + data.length) : w.pwrite t b off data = (none, w) := by
  unfold World.pwrite
  rcases h with h | h
  · rw [h]
  · split
    · rfl
    · rw [if_pos h]

/-- A range reads the same after a `pwrite` to another file or outside the range. -/
lemma pread_pwrite_frame (t : Transfer) {b b' off off' : ℕ} {data d : List UInt8}
    (hread : w.pread .complete b' off' d.length = some d)
    (hdisj : (w.fileHandler b').fd ≠ (w.fileHandler b).fd ∨ off' + d.length ≤ off ∨
      off + data.length ≤ off') :
    (w.pwrite t b off data).2.pread .complete b' off' d.length = some d := by
  unfold World.pread at hread ⊢
  by_cases hfd : (w.fileHandler b').fd = (w.fileHandler b).fd
  · have hdisj' := hdisj.resolve_left (fun h => h hfd)
    have hfiles : ∀ w' : World, w'.fileHandler = w.fileHandler → w'.file b' = w'.file b := by
      intro w' hw'
      simp only [World.file, hw', hfd]
    rw [hfiles w rfl] at hread
    rw [hfiles _ (World.fileHandler_pwrite _ _ _ _ _)]
    cases hfile : w.file b with
    | none =>
      rw [hfile] at hread
      simp at hread
    | some file =>
      by_cases hoff : offMax < off + data.length
      · rw [pwrite_of_refused t (Or.inr hoff), hfile]
        rw [hfile] at hread
        exact hread
      · rw [(file_pwrite t hfile (by omega)).2]
        rw [hfile] at hread
        simp only [reduceCtorEq, if_false, bytes_complete] at hread ⊢
        split at hread
        · simp at hread
        · rename_i hoff'
          rw [if_neg hoff', Option.some.injEq]
          rw [Option.some.injEq] at hread
          refine ByteFile.pread_pwrite_eq_of_disjoint hread ?_
          have := length_bytes_le t data
          omega
  · rw [file_pwrite_of_ne t hfd]
    exact hread

/-- A range that has been written completely reads back what was written. -/
lemma pread_pwrite_complete {b off : ℕ} {data : List UInt8} (t : Transfer)
    (hw : (w.pwrite t b off data).1 = some data.length) :
    (w.pwrite t b off data).2.pread .complete b off data.length = some data := by
  cases hfile : w.file b with
  | none => simp [pwrite_of_refused t (Or.inl hfile)] at hw
  | some file =>
    by_cases hoff : offMax < off + data.length
    · simp [pwrite_of_refused t (Or.inr hoff)] at hw
    · obtain ⟨hret, hfile'⟩ := file_pwrite t hfile (Nat.not_lt.1 hoff)
      have hbytes : t.bytes data = data := by
        rw [hret] at hw
        cases t with
        | complete => rfl
        | short n =>
          have hn : data.length ≤ n := by
            simpa [Transfer.count] using hw
          simp [Transfer.bytes, hn]
        | failed => simp [Transfer.count] at hw
      unfold World.pread
      have hle : ¬offMax < off := by omega
      rw [hfile', hbytes]
      simp [hle, ByteFile.pread_pwrite_self]

/-- Reading depends on the descriptors and the files only. -/
lemma pread_congr {w' : World} (hfd : ∀ b, (w'.fileHandler b).fd = (w.fileHandler b).fd)
    (hdisk : w'.disk = w.disk) : w'.pread = w.pread := by
  funext t b off len
  simp only [World.pread, World.file, hfd, hdisk]

end Frame

/-! ## What is stored -/

/-- The store holds the value under the key. -/
def Stored (w : World) (k : Key) : Option (List UInt8) → Prop
  | none => w.index k = none
  | some d => ∃ iv, w.index k = some iv ∧ iv.dataSize = d.length ∧ iv.crc32 = crc32Calc d ∧
      w.pread .complete iv.blockId iv.offset d.length = some d

/-- The reply of `find_block` for a value. -/
def valueReply : Option (List UInt8) → Reply
  | none => { ret := dbNotfound }
  | some d => { ret := 0, valuePtr := some d, valueLen := d.length }

/-- `find_block` answers what is stored. -/
lemma findReply_of_stored {w : World} {k : Key} {v : Option (List UInt8)} (hs : Stored w k v) :
    w.findReply noFaults k = valueReply v := by
  unfold World.findReply
  cases v with
  | none =>
    have hk : w.index k = none := hs
    simp [noFaults, hk, valueReply]
  | some d =>
    obtain ⟨iv, hk, hsize, -, hread⟩ := hs
    simp [noFaults, hk, hsize, hread, valueReply]

section Stored

variable {w : World} {k : Key} {v : Option (List UInt8)}

/-- What is stored depends on the index entry and on what can be read. -/
lemma Stored.of_read {w' : World} (hs : Stored w k v) (hindex : w'.index k = w.index k)
    (hread : ∀ iv d, w.index k = some iv → iv.dataSize = d.length →
      w.pread .complete iv.blockId iv.offset d.length = some d →
      w'.pread .complete iv.blockId iv.offset d.length = some d) : Stored w' k v := by
  cases v with
  | none => exact hindex.trans hs
  | some d =>
    obtain ⟨iv, hk, hsize, hcrc, hr⟩ := hs
    exact ⟨iv, hindex.trans hk, hsize, hcrc, hread iv d hk hsize hr⟩

lemma Stored.congr {w' : World} (hs : Stored w k v) (hindex : w'.index k = w.index k)
    (hfd : ∀ b, (w'.fileHandler b).fd = (w.fileHandler b).fd) (hdisk : w'.disk = w.disk) :
    Stored w' k v :=
  hs.of_read hindex (fun iv d _ _ hr => by rw [pread_congr hfd hdisk]; exact hr)

/-- A record lies behind the header. -/
lemma World.SlotsOk.dataSectionPos_le (hi : w.SlotsOk) {iv : IndexValue}
    (hk : w.index k = some iv) : dataSectionPos ≤ iv.offset := by
  obtain ⟨j, -, hoff⟩ := hi.slot _ (hi.live k iv hk).1 (.live k) _ ⟨iv, hk, rfl, rfl⟩
  rw [hoff, slotOffset]
  exact Nat.le_add_right _ _

/-- Records in different slots do not overlap. -/
lemma slot_disjoint {cfg : Config} {b i j m n : ℕ} (hne : slotOffset cfg b i ≠ slotOffset cfg b j)
    (hm : m ≤ cfg.blockSizeArray b) (hn : n ≤ cfg.blockSizeArray b) :
    slotOffset cfg b i + m ≤ slotOffset cfg b j ∨ slotOffset cfg b j + n ≤ slotOffset cfg b i := by
  have hij : i ≠ j := fun h => hne (by rw [h])
  unfold slotOffset
  rcases Nat.lt_or_gt_of_ne hij with h | h
  · left
    have := Nat.mul_le_mul_left (cfg.blockSizeArray b) h
    rw [Nat.mul_succ] at this
    omega
  · right
    have := Nat.mul_le_mul_left (cfg.blockSizeArray b) h
    rw [Nat.mul_succ] at this
    omega

/-- Writing to the header changes nothing that is stored. -/
lemma Stored.pwrite_front (hs : Stored w k v) (hi : w.SlotsOk) (t : Transfer) (b : ℕ) {off : ℕ}
    {data : List UInt8} (hoff : off + data.length ≤ dataSectionPos) :
    Stored (w.pwrite t b off data).2 k v := by
  refine hs.of_read (by simp) fun iv d hk _ hr => pread_pwrite_frame t hr (Or.inr (Or.inr ?_))
  exact hoff.trans (hi.dataSectionPos_le hk)

/-- Writing to a slot that is not that of the key changes nothing that is stored under the key. -/
lemma Stored.pwrite_slot (hs : Stored w k v) (hi : w.SlotsOk) (t : Transfer) {b j : ℕ}
    {data : List UInt8} (hb : b < w.blockTypeCount) (hlen : data.length ≤ w.blockSizeArray b)
    (hne : ∀ iv, w.index k = some iv → iv.blockId = b → iv.offset ≠ slotOffset w.config b j) :
    Stored (w.pwrite t b (slotOffset w.config b j) data).2 k v := by
  refine hs.of_read (by simp) fun iv d hk hsize hr => pread_pwrite_frame t hr ?_
  have hb' := (hi.live k iv hk).1
  by_cases hblock : iv.blockId = b
  · right
    obtain ⟨i, -, hoff⟩ := hi.slot _ hb' (.live k) _ ⟨iv, hk, rfl, rfl⟩
    have hne' := hne iv hk hblock
    rw [hblock] at hoff
    rw [hoff] at hne' ⊢
    refine slot_disjoint hne' ?_ hlen
    rw [← hsize, ← hblock]
    exact (hi.live k iv hk).2
  · left
    rw [hi.opened _ hb', hi.opened b hb]
    simp only [ne_eq, Option.some.injEq, Fd.data.injEq]
    rw [hi.sizes _ hb', hi.sizes b hb]
    intro h
    exact hblock (blockSize_inj h)

/-- `append_block` leaves alone what is stored, until it changes the index. -/
lemma Stored.placed (hs : Stored w k v) (hi : w.SlotsOk) (f : Faults) {b : ℕ} {data : List UInt8}
    (hb : b < w.blockTypeCount) (hlen : data.length ≤ w.blockSizeArray b) :
    Stored (w.placed f b data) k v := by
  have htake := (SlotInv.take hi hb).drop
  have hi₁ : (w.setFileHandler b (w.fileHandler b).takeSlot.2).SlotsOk := htake
  have hs₁ : Stored (w.setFileHandler b (w.fileHandler b).takeSlot.2) k v := by
    refine hs.congr rfl (fun b' => ?_) rfl
    by_cases hb' : b' = b
    · subst hb'
      simp
    · simp [Function.update_of_ne hb']
  have hs₂ : Stored ((w.setFileHandler b (w.fileHandler b).takeSlot.2).syncHeader f b) k v :=
    hs₁.pwrite_front hi₁ _ b (by simp [BlockFile.headerImage, dataSectionPos, slotsSectionPos])
  have hi₂ : ((w.setFileHandler b (w.fileHandler b).takeSlot.2).syncHeader f b).SlotsOk := by
    simpa [World.SlotsOk] using htake
  obtain ⟨j, hj⟩ : ∃ j, (w.fileHandler b).takeSlot.1 = slotOffset w.config b j := by
    rcases takeSlot_cases hi hb with ⟨-, -, j, -, hoff⟩ | ⟨-, -, hoff⟩
    · exact ⟨j, hoff⟩
    · exact ⟨_, hoff⟩
  unfold World.placed World.syncRecord
  rw [hj]
  have hcfg : ((w.setFileHandler b (w.fileHandler b).takeSlot.2).syncHeader f b).config =
      w.config := by
    simp
  rw [← hcfg]
  refine hs₂.pwrite_slot hi₂ _ (by simpa using hb) (by simpa using hlen) ?_
  intro iv hk hblock
  rw [hcfg, ← hj, ← hblock]
  exact SlotInv.take_not_live hi (by simpa using hk)

variable {k' : Key}

/-- `append_block` leaves alone what is stored under other keys. -/
lemma Stored.appended_of_ne (hs : Stored w k v) (hi : w.SlotsOk) (f : Faults) {b : ℕ}
    {data : List UInt8} (hb : b < w.blockTypeCount) (hlen : data.length ≤ w.blockSizeArray b)
    (hne : k ≠ k') : Stored (w.appended f b k' data) k v := by
  refine (hs.placed hi f hb hlen).congr ?_ (by simp) (by simp)
  simp only [World.index_appended, World.index_placed]
  split
  · rw [Function.update_of_ne hne]
  · rfl

/-- `append_block` stores its data, if it can be read back and the index takes the entry. -/
lemma stored_appended {f : Faults} (k : Key) {b : ℕ} {data : List UInt8}
    (hput : f.insertRecord = 0)
    (hread : (w.placed f b data).pread .complete b (w.fileHandler b).takeSlot.1 data.length =
      some data) : Stored (w.appended f b k data) k (some data) := by
  refine ⟨w.appendedValue b data, ?_, rfl, rfl, ?_⟩
  · simp [hput]
  · rw [pread_congr (w := w.placed f b data) (by simp) (by simp)]
    exact hread

/-- `modify_block` leaves alone what is stored under other keys. -/
lemma Stored.modified_of_ne (hs : Stored w k v) (hi : w.SlotsOk) (f : Faults) {iv : IndexValue}
    {data : List UInt8} (hk' : w.index k' = some iv)
    (hlen : data.length ≤ w.blockSizeArray iv.blockId) (hne : k ≠ k') :
    Stored (w.modified f iv k' data) k v := by
  have hb := (hi.live k' iv hk').1
  obtain ⟨j, -, hoff⟩ := hi.slot _ hb (.live k') _ ⟨iv, hk', rfl, rfl⟩
  have hs₁ : Stored (w.syncRecord f iv.blockId data iv.offset) k v := by
    unfold World.syncRecord
    rw [hoff]
    refine hs.pwrite_slot hi _ hb hlen ?_
    intro iv' hk hblock heq
    have := hi.exclusive _ hb (.live k) (.live k') _ ⟨iv', hk, hblock, rfl⟩
      ⟨iv, hk', rfl, hoff.trans heq.symm⟩
    exact hne (by simpa using this)
  refine hs₁.congr ?_ (by simp) (by simp)
  simp only [World.index_modified, World.index_pwrite]
  split
  · rw [Function.update_of_ne hne]
  · rfl

/-- `modify_block` stores its data, if its write is complete and the index takes the entry. -/
lemma stored_modified {f : Faults} (k : Key) {iv : IndexValue} {data : List UInt8}
    (hput : f.insertRecord = 0)
    (hw : (w.pwrite (f.pwrite .record iv.blockId) iv.blockId iv.offset data).1 =
      some data.length) : Stored (w.modified f iv k data) k (some data) := by
  refine ⟨World.modifiedValue iv data, ?_, rfl, rfl, ?_⟩
  · simp [hput]
  · rw [pread_congr (w := w.syncRecord f iv.blockId data iv.offset) (by simp) (by simp)]
    exact pread_pwrite_complete _ hw

/-- Freeing a slot leaves alone what is stored. -/
lemma Stored.freed (hs : Stored w k v) {b off : ℕ}
    (hi : SlotInv w.config w.fileHandler w.index (some (b, off))) (f : Faults)
    (hb : b < w.blockTypeCount) : Stored (w.freed f b off) k v := by
  unfold World.freed
  split
  · exact hs
  · rename_i hfull
    have hroom : (w.fileHandler b).freeSlotsCnt < maxFreeSlots := by omega
    have hi₁ : (w.setFileHandler b ((w.fileHandler b).putSlot off)).SlotsOk := hi.free hb hroom
    have hs₁ : Stored (w.setFileHandler b ((w.fileHandler b).putSlot off)) k v := by
      refine hs.congr rfl (fun b' => ?_) rfl
      by_cases hb' : b' = b
      · subst hb'
        simp [BlockFile.putSlot]
      · simp [Function.update_of_ne hb']
    have hs₂ : Stored ((w.setFileHandler b ((w.fileHandler b).putSlot off)).syncHeader f b) k v :=
      hs₁.pwrite_front hi₁ _ b (by simp [BlockFile.headerImage, dataSectionPos, slotsSectionPos])
    refine hs₂.pwrite_front (by simpa [World.SlotsOk] using hi₁) _ b ?_
    simp only [Bytes.length_toLE, dataSectionPos]
    omega

/-- `do_delete_block` leaves alone what is stored under other keys. -/
lemma Stored.deleted_of_ne (hs : Stored w k v) (hi : w.SlotsOk) (f : Faults) {iv : IndexValue}
    (hk' : w.index k' = some iv) (hne : k ≠ k') : Stored (w.deleted f iv k') k v := by
  have hs₁ : Stored (w.unindexed f iv k') k v := by
    refine hs.congr ?_ (by simp) (by simp)
    simp only [World.index_unindexed]
    split
    · rw [Function.update_of_ne hne]
    · rfl
  by_cases hdel : f.delRecord = 0
  · rw [World.deleted_of_success f w k' iv hdel]
    refine hs₁.freed ?_ f (by simpa using (hi.live k' iv hk').1)
    have := SlotInv.unindex hi hk'
    simpa [hdel] using this
  · rw [World.deleted_of_fault f w k' iv hdel]
    exact hs₁

/-- After `do_delete_block` nothing is stored under the key. -/
lemma stored_deleted {f : Faults} (k : Key) (iv : IndexValue) (hdel : f.delRecord = 0) :
    Stored (w.deleted f iv k) k none := by
  show (w.deleted f iv k).index k = none
  simp [hdel]

end Stored

end Linglongta
