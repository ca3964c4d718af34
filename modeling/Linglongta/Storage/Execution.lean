import Linglongta.Storage.Operations

/-!
# Running the operations

The equations by which the programs of the store are executed: what each request does to the world,
which parts of the world it leaves alone, and from these the closed form of each helper of
`storage.c`: `World.appended`, `World.modified` and `World.deleted` are the worlds in which
`append_block`, `modify_block` and `do_delete_block` return.
-/

namespace Linglongta

open Prog

/-! ## Requests -/

section Requests

variable {β : Type}

@[simp] lemma readConfig_bind (k : Config → Prog store β) :
    readConfig >>= k = call (I := store) .config k := rfl

@[simp] lemma readFileHandler_bind (b : ℕ) (k : BlockFile → Prog store β) :
    readFileHandler b >>= k = call (I := store) (.fileHandler b) k := rfl

@[simp] lemma setFileHandler_bind (b : ℕ) (fh : BlockFile) (k : Unit → Prog store β) :
    setFileHandler b fh >>= k = call (I := store) (.setFileHandler b fh) k := rfl

@[simp] lemma slabAlloc_bind (n : ℕ) (k : Bool → Prog store β) :
    slabAlloc n >>= k = call (I := store) (.slabAlloc n) k := rfl

@[simp] lemma findRecord_bind (x : Key) (k : Except Int IndexValue → Prog store β) :
    findRecord x >>= k = call (I := store) (.findRecord x) k := rfl

@[simp] lemma insertRecord_bind (x : Key) (iv : IndexValue) (k : Int → Prog store β) :
    insertRecord x iv >>= k = call (I := store) (.insertRecord x iv) k := rfl

@[simp] lemma delRecord_bind (x : Key) (k : Int → Prog store β) :
    delRecord x >>= k = call (I := store) (.delRecord x) k := rfl

@[simp] lemma preadFile_bind (b off len : ℕ) (k : Option (List UInt8) → Prog store β) :
    preadFile b off len >>= k = call (I := store) (.pread b off len) k := rfl

@[simp] lemma pwriteFile_bind (kind : WriteKind) (b off : ℕ) (data : List UInt8)
    (k : Option ℕ → Prog store β) :
    pwriteFile kind b off data >>= k = call (I := store) (.pwrite kind b off data) k := rfl

@[simp] lemma logAppend_bind (ili : IndexLogItem) (k : Int → Prog store β) :
    logAppend ili >>= k = call (I := store) (.logAppend ili) k := rfl

variable {f : Faults} {w : World} {h : Held store}

/-- What comes of the answer to a request and of the world behind it. -/
def World.answer {γ : Sort*} (f : Faults) (w : World) (r : store.Req)
    (k : store.Resp r → World → γ) : γ :=
  k (handle f w r).1 (handle f w r).2

section Answer

variable {γ : Sort*}

-- Applied before the continuation is simplified: the answer then stands everywhere in it, also in
-- the `Decidable` instances of its conditions, into which `simp` does not look.

@[simp ↓] lemma answer_config (k : Config → World → γ) :
    w.answer f .config k = k w.config w := rfl

@[simp ↓] lemma answer_fileHandler (b : ℕ) (k : BlockFile → World → γ) :
    w.answer f (.fileHandler b) k = k (w.fileHandler b) w := rfl

@[simp ↓] lemma answer_setFileHandler (b : ℕ) (fh : BlockFile) (k : Unit → World → γ) :
    w.answer f (.setFileHandler b fh) k = k () (w.setFileHandler b fh) := rfl

@[simp ↓] lemma answer_slabAlloc (n : ℕ) (k : Bool → World → γ) :
    w.answer f (.slabAlloc n) k = k f.slabAlloc w := rfl

@[simp ↓] lemma answer_findRecord (x : Key) (k : Except Int IndexValue → World → γ) :
    w.answer f (.findRecord x) k = k (w.findRecord f.findRecord x) w := rfl

@[simp ↓] lemma answer_insertRecord (x : Key) (iv : IndexValue) (k : Int → World → γ) :
    w.answer f (.insertRecord x iv) k =
      k f.insertRecord (w.insertRecord f.insertRecord x iv) := rfl

@[simp ↓] lemma answer_delRecord (x : Key) (k : Int → World → γ) :
    w.answer f (.delRecord x) k = k f.delRecord (w.delRecord f.delRecord x) := rfl

@[simp ↓] lemma answer_pread (b off len : ℕ) (k : Option (List UInt8) → World → γ) :
    w.answer f (.pread b off len) k = k (w.pread f.pread b off len) w := rfl

@[simp ↓] lemma answer_pwrite (kind : WriteKind) (b off : ℕ) (data : List UInt8)
    (k : Option ℕ → World → γ) :
    w.answer f (.pwrite kind b off data) k =
      k (w.pwrite (f.pwrite kind b) b off data).1 (w.pwrite (f.pwrite kind b) b off data).2 := rfl

@[simp ↓] lemma answer_logAppend (ili : IndexLogItem) (k : Int → World → γ) :
    w.answer f (.logAppend ili) k =
      k (w.logAppend (f.journal ili.type) ili).1 (w.logAppend (f.journal ili.type) ili).2 := rfl

end Answer

/-- A run that makes a request. -/
@[simp] lemma exec_request (r : store.Req) (k : store.Resp r → Prog store β) :
    exec (handle f) (call r k) h w = w.answer f r fun x w' => exec (handle f) (k x) h w' := rfl

variable {P : Action store → Held store → World → Prop} {Q : β → Held store → World → Prop}

/-- A safe run that makes a request. -/
@[simp] lemma safe_request (r : store.Req) (k : store.Resp r → Prog store β) :
    Safe (handle f) P Q (call r k) h w ↔
      P (.call r) h w ∧ w.answer f r fun x w' => Safe (handle f) P Q (k x) h w' := Iff.rfl

/-- The requests of a run that makes one. -/
@[simp] lemma requests_request (r : store.Req) (k : store.Resp r → Prog store β) :
    requests (handle f) (call r k) h w =
      r :: w.answer f r fun x w' => requests (handle f) (k x) h w' := rfl

variable (w)

/-- A lookup that fails. -/
lemma findRecord_of_fault (e : { e : Int // e ≠ 0 ∧ e ≠ dbNotfound }) (k : Key) :
    w.findRecord (some e) k = .error e.1 := rfl

variable {w} in
/-- A lookup that finds a value. -/
lemma findRecord_of_some {k : Key} {iv : IndexValue} (hk : w.index k = some iv) :
    w.findRecord none k = .ok iv := by
  simp [World.findRecord, hk]

variable {w} in
/-- A lookup that finds nothing. -/
lemma findRecord_of_none {k : Key} (hk : w.index k = none) :
    w.findRecord none k = .error dbNotfound := by
  simp [World.findRecord, hk]

@[simp] lemma blockTypeCount_config : w.config.blockTypeCount = w.blockTypeCount := rfl

@[simp] lemma blockSizeArray_config : w.config.blockSizeArray = w.blockSizeArray := rfl

end Requests

/-! ## What a request leaves alone -/

namespace World

variable (w : World) (t : Transfer) (b off : ℕ) (data : List UInt8) (fh : BlockFile)
  (out : Option ℕ) (ili : IndexLogItem) (ret : Int) (k : Key) (iv : IndexValue)

@[simp] lemma fileHandler_setFileHandler :
    (w.setFileHandler b fh).fileHandler = Function.update w.fileHandler b fh := rfl

@[simp] lemma blockTypeCount_setFileHandler :
    (w.setFileHandler b fh).blockTypeCount = w.blockTypeCount := rfl

@[simp] lemma blockSizeArray_setFileHandler :
    (w.setFileHandler b fh).blockSizeArray = w.blockSizeArray := rfl

@[simp] lemma config_setFileHandler : (w.setFileHandler b fh).config = w.config := rfl

@[simp] lemma index_setFileHandler : (w.setFileHandler b fh).index = w.index := rfl

@[simp] lemma disk_setFileHandler : (w.setFileHandler b fh).disk = w.disk := rfl

@[simp] lemma logger_setFileHandler : (w.setFileHandler b fh).logger = w.logger := rfl

@[simp] lemma journal_setFileHandler : (w.setFileHandler b fh).journal = w.journal := rfl

/-- A `pwrite` changes the file behind the descriptor and nothing else. -/
lemma pwrite_eq : ∃ disk, (w.pwrite t b off data).2 = { w with disk := disk } := by
  unfold pwrite setFile
  split
  · exact ⟨w.disk, rfl⟩
  · split
    · exact ⟨w.disk, rfl⟩
    · split
      · exact ⟨w.disk, rfl⟩
      · exact ⟨_, rfl⟩

@[simp] lemma fileHandler_pwrite : (w.pwrite t b off data).2.fileHandler = w.fileHandler := by
  obtain ⟨_, h⟩ := pwrite_eq w t b off data
  rw [h]

@[simp] lemma inited_pwrite : (w.pwrite t b off data).2.inited = w.inited := by
  obtain ⟨_, h⟩ := pwrite_eq w t b off data
  rw [h]

@[simp] lemma blockTypeCount_pwrite :
    (w.pwrite t b off data).2.blockTypeCount = w.blockTypeCount := by
  obtain ⟨_, h⟩ := pwrite_eq w t b off data
  rw [h]

@[simp] lemma blockSizeArray_pwrite :
    (w.pwrite t b off data).2.blockSizeArray = w.blockSizeArray := by
  obtain ⟨_, h⟩ := pwrite_eq w t b off data
  rw [h]

@[simp] lemma config_pwrite : (w.pwrite t b off data).2.config = w.config := by
  simp [config]

@[simp] lemma index_pwrite : (w.pwrite t b off data).2.index = w.index := by
  obtain ⟨_, h⟩ := pwrite_eq w t b off data
  rw [h]

@[simp] lemma logger_pwrite : (w.pwrite t b off data).2.logger = w.logger := by
  obtain ⟨_, h⟩ := pwrite_eq w t b off data
  rw [h]

@[simp] lemma journal_pwrite : (w.pwrite t b off data).2.journal = w.journal := by
  obtain ⟨_, h⟩ := pwrite_eq w t b off data
  rw [h]

@[simp] lemma fileHandler_logAppend : (w.logAppend out ili).2.fileHandler = w.fileHandler := rfl

@[simp] lemma blockTypeCount_logAppend :
    (w.logAppend out ili).2.blockTypeCount = w.blockTypeCount := rfl

@[simp] lemma blockSizeArray_logAppend :
    (w.logAppend out ili).2.blockSizeArray = w.blockSizeArray := rfl

@[simp] lemma config_logAppend : (w.logAppend out ili).2.config = w.config := rfl

@[simp] lemma index_logAppend : (w.logAppend out ili).2.index = w.index := rfl

@[simp] lemma disk_logAppend : (w.logAppend out ili).2.disk = w.disk := rfl

/-- `insert_record` changes the index and nothing else. -/
lemma insertRecord_eq : w.insertRecord ret k iv =
    { w with index := if ret = 0 then Function.update w.index k (some iv) else w.index } := by
  unfold insertRecord
  split <;> rfl

@[simp] lemma index_insertRecord : (w.insertRecord ret k iv).index =
    if ret = 0 then Function.update w.index k (some iv) else w.index := by
  rw [insertRecord_eq]

@[simp] lemma fileHandler_insertRecord :
    (w.insertRecord ret k iv).fileHandler = w.fileHandler := by
  rw [insertRecord_eq]

@[simp] lemma blockTypeCount_insertRecord :
    (w.insertRecord ret k iv).blockTypeCount = w.blockTypeCount := by
  rw [insertRecord_eq]

@[simp] lemma blockSizeArray_insertRecord :
    (w.insertRecord ret k iv).blockSizeArray = w.blockSizeArray := by
  rw [insertRecord_eq]

@[simp] lemma config_insertRecord : (w.insertRecord ret k iv).config = w.config := by
  simp [config]

@[simp] lemma disk_insertRecord : (w.insertRecord ret k iv).disk = w.disk := by
  rw [insertRecord_eq]

@[simp] lemma logger_insertRecord : (w.insertRecord ret k iv).logger = w.logger := by
  rw [insertRecord_eq]

@[simp] lemma journal_insertRecord : (w.insertRecord ret k iv).journal = w.journal := by
  rw [insertRecord_eq]

/-- `del_record` changes the index and nothing else. -/
lemma delRecord_eq : w.delRecord ret k =
    { w with index := if ret = 0 then Function.update w.index k none else w.index } := by
  unfold delRecord
  split <;> rfl

@[simp] lemma index_delRecord : (w.delRecord ret k).index =
    if ret = 0 then Function.update w.index k none else w.index := by
  rw [delRecord_eq]

@[simp] lemma fileHandler_delRecord : (w.delRecord ret k).fileHandler = w.fileHandler := by
  rw [delRecord_eq]

@[simp] lemma blockTypeCount_delRecord :
    (w.delRecord ret k).blockTypeCount = w.blockTypeCount := by
  rw [delRecord_eq]

@[simp] lemma blockSizeArray_delRecord :
    (w.delRecord ret k).blockSizeArray = w.blockSizeArray := by
  rw [delRecord_eq]

@[simp] lemma config_delRecord : (w.delRecord ret k).config = w.config := by
  simp [config]

@[simp] lemma disk_delRecord : (w.delRecord ret k).disk = w.disk := by
  rw [delRecord_eq]

@[simp] lemma logger_delRecord : (w.delRecord ret k).logger = w.logger := by
  rw [delRecord_eq]

@[simp] lemma journal_delRecord : (w.delRecord ret k).journal = w.journal := by
  rw [delRecord_eq]

end World

/-! ## The helpers of `storage.c` -/

namespace World

variable (f : Faults) (w : World)

/-- The world after `sync_data_file_header`. -/
abbrev syncHeader (b : ℕ) : World :=
  (w.pwrite (f.pwrite .header b) b 0 (w.fileHandler b).headerImage).2

/-- The world after the `sync_data_file` of a record. -/
abbrev syncRecord (b : ℕ) (data : List UInt8) (off : ℕ) : World :=
  (w.pwrite (f.pwrite .record b) b off data).2

/-- The world after the `sync_data_file` of an entry of the list of free slots. -/
abbrev syncSlot (b i : ℕ) : World :=
  (w.pwrite (f.pwrite .slot b) b (slotsSectionPos + 8 * i)
    (Bytes.toLE 8 ((w.fileHandler b).freeSlotsOffset i))).2

/-- The index value that `append_block` makes. -/
def appendedValue (b : ℕ) (data : List UInt8) : IndexValue where
  crc32 := crc32Calc data
  blockId := b
  dataSize := data.length
  offset := (w.fileHandler b).takeSlot.1

/-- The world after the part of `append_block` that holds the file lock. -/
def placed (b : ℕ) (data : List UInt8) : World :=
  ((w.setFileHandler b (w.fileHandler b).takeSlot.2).syncHeader f b).syncRecord f b data
    (w.fileHandler b).takeSlot.1

/-- The world in which `append_block` returns. -/
def appended (b : ℕ) (k : Key) (data : List UInt8) : World :=
  ((w.placed f b data).logAppend (f.journal .append)
    ⟨.append, k, (w.appendedValue b data).image⟩).2.insertRecord f.insertRecord k
      (w.appendedValue b data)

/-- The index value that `modify_block` makes. -/
def modifiedValue (iv : IndexValue) (data : List UInt8) : IndexValue :=
  { iv with crc32 := crc32Calc data, dataSize := data.length }

/-- The world in which `modify_block` returns. -/
def modified (iv : IndexValue) (k : Key) (data : List UInt8) : World :=
  ((w.syncRecord f iv.blockId data iv.offset).logAppend (f.journal .modify)
    ⟨.modify, k, (modifiedValue iv data).image⟩).2.insertRecord f.insertRecord k
      (modifiedValue iv data)

/-- The world after the part of `do_delete_block` that is about the index. -/
def unindexed (iv : IndexValue) (k : Key) : World :=
  (w.logAppend (f.journal .del) ⟨.del, k, iv.image⟩).2.delRecord f.delRecord k

/-- The world after the part of `do_delete_block` that is about the block file. -/
def freed (b off : ℕ) : World :=
  if maxFreeSlots ≤ (w.fileHandler b).freeSlotsCnt then w
  else ((w.setFileHandler b ((w.fileHandler b).putSlot off)).syncHeader f b).syncSlot f b
    (w.fileHandler b).freeSlotsCnt

/-- The world in which `do_delete_block` returns. -/
def deleted (iv : IndexValue) (k : Key) : World :=
  if f.delRecord ≠ 0 then w.unindexed f iv k
  else (w.unindexed f iv k).freed f iv.blockId iv.offset

section Frame

variable (b off : ℕ) (k : Key) (iv : IndexValue) (data : List UInt8)

@[simp] lemma blockTypeCount_placed : (w.placed f b data).blockTypeCount = w.blockTypeCount := by
  simp [placed, syncRecord, syncHeader]

@[simp] lemma blockSizeArray_placed : (w.placed f b data).blockSizeArray = w.blockSizeArray := by
  simp [placed, syncRecord, syncHeader]

@[simp] lemma index_placed : (w.placed f b data).index = w.index := by
  simp [placed, syncRecord, syncHeader]

@[simp] lemma fileHandler_placed : (w.placed f b data).fileHandler =
    Function.update w.fileHandler b (w.fileHandler b).takeSlot.2 := by
  simp [placed, syncRecord, syncHeader]

@[simp] lemma blockTypeCount_appended :
    (w.appended f b k data).blockTypeCount = w.blockTypeCount := by
  simp [appended]

@[simp] lemma blockSizeArray_appended :
    (w.appended f b k data).blockSizeArray = w.blockSizeArray := by
  simp [appended]

@[simp] lemma fileHandler_appended : (w.appended f b k data).fileHandler =
    Function.update w.fileHandler b (w.fileHandler b).takeSlot.2 := by
  simp [appended]

@[simp] lemma index_appended : (w.appended f b k data).index =
    if f.insertRecord = 0 then Function.update w.index k (some (w.appendedValue b data))
    else w.index := by
  simp [appended]

@[simp] lemma disk_appended : (w.appended f b k data).disk = (w.placed f b data).disk := by
  simp [appended]

@[simp] lemma blockTypeCount_modified :
    (w.modified f iv k data).blockTypeCount = w.blockTypeCount := by
  simp [modified, syncRecord]

@[simp] lemma blockSizeArray_modified :
    (w.modified f iv k data).blockSizeArray = w.blockSizeArray := by
  simp [modified, syncRecord]

@[simp] lemma fileHandler_modified : (w.modified f iv k data).fileHandler = w.fileHandler := by
  simp [modified, syncRecord]

@[simp] lemma index_modified : (w.modified f iv k data).index =
    if f.insertRecord = 0 then Function.update w.index k (some (modifiedValue iv data))
    else w.index := by
  simp [modified, syncRecord]

@[simp] lemma disk_modified : (w.modified f iv k data).disk =
    (w.syncRecord f iv.blockId data iv.offset).disk := by
  simp [modified]

@[simp] lemma blockTypeCount_unindexed :
    (w.unindexed f iv k).blockTypeCount = w.blockTypeCount := by
  simp [unindexed]

@[simp] lemma blockSizeArray_unindexed :
    (w.unindexed f iv k).blockSizeArray = w.blockSizeArray := by
  simp [unindexed]

@[simp] lemma fileHandler_unindexed : (w.unindexed f iv k).fileHandler = w.fileHandler := by
  simp [unindexed]

@[simp] lemma disk_unindexed : (w.unindexed f iv k).disk = w.disk := by
  simp [unindexed]

@[simp] lemma config_unindexed : (w.unindexed f iv k).config = w.config := by
  simp [unindexed]

@[simp] lemma index_unindexed : (w.unindexed f iv k).index =
    if f.delRecord = 0 then Function.update w.index k none else w.index := by
  simp [unindexed]

@[simp] lemma blockTypeCount_freed : (w.freed f b off).blockTypeCount = w.blockTypeCount := by
  unfold freed
  split <;> simp [syncSlot, syncHeader]

@[simp] lemma blockSizeArray_freed : (w.freed f b off).blockSizeArray = w.blockSizeArray := by
  unfold freed
  split <;> simp [syncSlot, syncHeader]

@[simp] lemma index_freed : (w.freed f b off).index = w.index := by
  unfold freed
  split <;> simp [syncSlot, syncHeader]

@[simp] lemma logger_freed : (w.freed f b off).logger = w.logger := by
  unfold freed
  split <;> simp [syncSlot, syncHeader]

@[simp] lemma journal_freed : (w.freed f b off).journal = w.journal := by
  unfold freed
  split <;> simp [syncSlot, syncHeader]

@[simp] lemma fileHandler_freed : (w.freed f b off).fileHandler =
    if maxFreeSlots ≤ (w.fileHandler b).freeSlotsCnt then w.fileHandler
    else Function.update w.fileHandler b ((w.fileHandler b).putSlot off) := by
  unfold freed
  split <;> simp [syncSlot, syncHeader]

/-- A deletion that the index refuses changes the journal only. -/
lemma deleted_of_fault (hdel : f.delRecord ≠ 0) : w.deleted f iv k = w.unindexed f iv k := by
  simp [deleted, hdel]

/-- A deletion that the index accepts frees the slot. -/
lemma deleted_of_success (hdel : f.delRecord = 0) :
    w.deleted f iv k = (w.unindexed f iv k).freed f iv.blockId iv.offset := by
  simp [deleted, hdel]

@[simp] lemma blockTypeCount_deleted : (w.deleted f iv k).blockTypeCount = w.blockTypeCount := by
  unfold deleted
  split <;> simp

@[simp] lemma blockSizeArray_deleted : (w.deleted f iv k).blockSizeArray = w.blockSizeArray := by
  unfold deleted
  split <;> simp

@[simp] lemma index_deleted : (w.deleted f iv k).index =
    if f.delRecord = 0 then Function.update w.index k none else w.index := by
  by_cases hdel : f.delRecord = 0
  · simp [deleted_of_success f w k iv hdel]
  · simp [deleted_of_fault f w k iv hdel]

@[simp] lemma fileHandler_deleted : (w.deleted f iv k).fileHandler =
    if f.delRecord = 0 ∧ (w.fileHandler iv.blockId).freeSlotsCnt < maxFreeSlots then
      Function.update w.fileHandler iv.blockId ((w.fileHandler iv.blockId).putSlot iv.offset)
    else w.fileHandler := by
  by_cases hdel : f.delRecord = 0
  · by_cases hfull : maxFreeSlots ≤ (w.fileHandler iv.blockId).freeSlotsCnt
    · simp [deleted_of_success f w k iv hdel, hfull, Nat.not_lt.2 hfull]
    · simp [deleted_of_success f w k iv hdel, hfull, Nat.not_le.1 hfull, hdel]
  · simp [deleted_of_fault f w k iv hdel, hdel]

@[simp] lemma config_placed : (w.placed f b data).config = w.config := by
  simp [config]

@[simp] lemma config_appended : (w.appended f b k data).config = w.config := by
  simp [config]

@[simp] lemma config_modified : (w.modified f iv k data).config = w.config := by
  simp [config]

@[simp] lemma config_deleted : (w.deleted f iv k).config = w.config := by
  simp [config]

end Frame

end World

section Helpers

variable {f : Faults} {w : World} {h : Held store}

/-- `append_block` of an unknown block file. -/
lemma exec_appendBlock_invalid {b : ℕ} (k : Key) (data : List UInt8) (hb : w.blockTypeCount ≤ b) :
    exec (handle f) (appendBlock b k data) h w = .returned (-1) h w := by
  simp [appendBlock, hb]

/-- `append_block` stops at an assertion if the data does not fit or the file is not open. -/
lemma exec_appendBlock_abort {b : ℕ} (k : Key) (data : List UInt8) (hb : b < w.blockTypeCount)
    (ha : ¬((w.fileHandler b).fdPositive = true ∧ data.length ≤ w.blockSizeArray b)) :
    exec (handle f) (appendBlock b k data) h w = .aborted w := by
  have hb' : ¬w.blockTypeCount ≤ b := by omega
  by_cases hfd : (w.fileHandler b).fdPositive = true
  · have hl : ¬data.length ≤ w.blockSizeArray b := fun hl => ha ⟨hfd, hl⟩
    simp [appendBlock, assert, hb', hfd, hl]
  · simp [appendBlock, assert, hb', hfd]

/-- `append_block` otherwise returns `0`, whatever its requests are answered. -/
lemma exec_appendBlock {b : ℕ} (k : Key) {data : List UInt8} (hb : b < w.blockTypeCount)
    (hfd : (w.fileHandler b).fdPositive = true) (hl : data.length ≤ w.blockSizeArray b)
    (hadm : Admits h (StoreLock.file b) .ex) :
    exec (handle f) (appendBlock b k data) h w = .returned 0 h (w.appended f b k data) := by
  have hb' : ¬w.blockTypeCount ≤ b := by omega
  simp [appendBlock, syncDataFileHeader, syncDataFile, assert, hb, hb', hfd, hl, hadm,
    World.appended, World.placed, World.appendedValue, World.syncHeader, World.syncRecord]

/-- `modify_block` stops at an assertion if its write is not complete. -/
lemma exec_modifyBlock_abort {iv : IndexValue} (k : Key) {data : List UInt8}
    (hb : iv.blockId < w.blockTypeCount) (hfd : (w.fileHandler iv.blockId).fdPositive = true)
    (hl : data.length ≤ w.blockSizeArray iv.blockId)
    (hadm : Admits h (StoreLock.file iv.blockId) .ex)
    (hw : (w.pwrite (f.pwrite .record iv.blockId) iv.blockId iv.offset data).1 ≠
      some data.length) :
    exec (handle f) (modifyBlock iv k data) h w =
      .aborted (w.syncRecord f iv.blockId data iv.offset) := by
  have hb' : ¬w.blockTypeCount ≤ iv.blockId := by omega
  simp [modifyBlock, syncDataFile, assert, hb, hb', hfd, hl, hadm, hw]

/-- `modify_block` otherwise reports what `insert_record` reported. -/
lemma exec_modifyBlock {iv : IndexValue} (k : Key) {data : List UInt8}
    (hb : iv.blockId < w.blockTypeCount) (hfd : (w.fileHandler iv.blockId).fdPositive = true)
    (hl : data.length ≤ w.blockSizeArray iv.blockId)
    (hadm : Admits h (StoreLock.file iv.blockId) .ex)
    (hw : (w.pwrite (f.pwrite .record iv.blockId) iv.blockId iv.offset data).1 =
      some data.length) :
    exec (handle f) (modifyBlock iv k data) h w =
      .returned (if f.insertRecord ≠ 0 then -1 else 0) h (w.modified f iv k data) := by
  have hb' : ¬w.blockTypeCount ≤ iv.blockId := by omega
  by_cases hins : f.insertRecord = 0 <;>
    simp [modifyBlock, syncDataFile, assert, hb, hb', hfd, hl, hadm, hw, hins, World.modified,
      World.modifiedValue]

/-- `do_delete_block` reports what `del_record` reported. -/
lemma exec_doDeleteBlock {iv : IndexValue} (k : Key) (hb : iv.blockId < w.blockTypeCount)
    (hadm : Admits h (StoreLock.file iv.blockId) .ex) :
    exec (handle f) (doDeleteBlock iv k) h w =
      .returned (if f.delRecord ≠ 0 then -1 else 0) h (w.deleted f iv k) := by
  by_cases hdel : f.delRecord = 0
  · by_cases hfull : maxFreeSlots ≤ (w.fileHandler iv.blockId).freeSlotsCnt
    · simp [doDeleteBlock, hdel, hadm, hfull, World.deleted, World.unindexed, World.freed]
    · simp [doDeleteBlock, syncDataFileHeader, syncDataFile, assert, hdel, hadm, hfull, hb,
        World.deleted, World.unindexed, World.freed, World.syncHeader, World.syncSlot]
  · simp [doDeleteBlock, hdel, World.deleted, World.unindexed]

end Helpers

end Linglongta
