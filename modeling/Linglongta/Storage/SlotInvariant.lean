import Linglongta.Storage.Loading

/-!
# The slot invariant along every run

From a store that was just created, whatever the index and the kernel answer, every call of
`update_block`, `find_block` and `delete_block` keeps the slot invariant of `Slots`, also where an
assertion stops the process or a call waits for the index lock forever.  The slots carved from a
block file are, independently of the counters in memory, the slots to which a record was ever
written: `recordWrites` collects these writes from the requests of a run.
-/

namespace Linglongta

open Prog

/-! ## One operation -/

namespace World

/-- The slot invariant of a world between two operations. -/
def SlotsOk (w : World) : Prop :=
  SlotInv w.config w.fileHandler w.index none

variable {w : World} (f : Faults)

lemma SlotsOk.ready (hi : w.SlotsOk) : Ready w where
  types := hi.types
  opened := by
    intro b hb
    unfold BlockFile.fdPositive
    rw [hi.opened b hb]
  indexed := fun k iv hk => (hi.live k iv hk).1

/-- `append_block` keeps the slot invariant. -/
lemma SlotsOk.appended (hi : w.SlotsOk) {b : ℕ} (k : Key) {data : List UInt8}
    (hb : b < w.blockTypeCount) (hl : data.length ≤ w.blockSizeArray b) :
    (w.appended f b k data).SlotsOk := by
  have htake : SlotInv w.config _ w.index
      (some ((w.appendedValue b data).blockId, (w.appendedValue b data).offset)) :=
    SlotInv.take hi hb
  unfold SlotsOk
  simp only [config_appended, fileHandler_appended, index_appended]
  split
  · exact htake.insert k hb hl
  · exact htake.drop

/-- `modify_block` keeps the slot invariant. -/
lemma SlotsOk.modified (hi : w.SlotsOk) {iv : IndexValue} {k : Key} {data : List UInt8}
    (hk : w.index k = some iv) (hl : data.length ≤ w.blockSizeArray iv.blockId) :
    (w.modified f iv k data).SlotsOk := by
  unfold SlotsOk
  simp only [config_modified, fileHandler_modified, index_modified]
  split
  · exact SlotInv.replace hi hk rfl rfl hl
  · exact hi

/-- `do_delete_block` keeps the slot invariant. -/
lemma SlotsOk.deleted (hi : w.SlotsOk) {iv : IndexValue} {k : Key} (hk : w.index k = some iv) :
    (w.deleted f iv k).SlotsOk := by
  have hb := (hi.live k iv hk).1
  have hhand := SlotInv.unindex hi hk
  unfold SlotsOk
  simp only [config_deleted, index_deleted, fileHandler_deleted]
  by_cases hdel : f.delRecord = 0
  · by_cases hroom : (w.fileHandler iv.blockId).freeSlotsCnt < maxFreeSlots
    · simpa only [hdel, hroom, true_and, if_true] using hhand.free hb hroom
    · simpa only [hdel, hroom, and_false, if_true, if_false] using hhand.drop
  · simp only [hdel, false_and, if_false]
    exact hi

lemma SlotsOk.syncRecord (hi : w.SlotsOk) (b : ℕ) (data : List UInt8) (off : ℕ) :
    (w.syncRecord f b data off).SlotsOk := by
  simpa [SlotsOk] using hi

/-- Every call keeps the slot invariant, whatever happens. -/
lemma kept_slotsOk : Kept f SlotsOk where
  ready := SlotsOk.ready
  appended := fun k hi hb hl => hi.appended f k hb hl
  modified := fun hi hk hl => hi.modified f hk hl
  stopped := fun hi _ _ => hi.syncRecord f _ _ _
  deleted := fun hi hk => hi.deleted f hk

end World

/-! ## The records that are written -/

/-- The writes of records among a list of requests: block file, offset and data. -/
def recordWrites (reqs : List StoreReq) : List (ℕ × ℕ × List UInt8) :=
  reqs.filterMap fun r =>
    match r with
    | .pwrite .record b off data => some (b, off, data)
    | _ => none

@[simp] lemma recordWrites_append (r s : List StoreReq) :
    recordWrites (r ++ s) = recordWrites r ++ recordWrites s := by
  simp [recordWrites]

namespace World

variable (f : Faults) (w : World) (k : Key) (data : List UInt8)

/-- The record that the `append_block` of `update_block` writes. -/
def insertWrites : List (ℕ × ℕ × List UInt8) :=
  if w.config.sizeClass data.length < 0 then []
  else if data.length ≤ w.blockSizeArray (w.config.sizeClass data.length).toNat then
    [((w.config.sizeClass data.length).toNat,
      (w.fileHandler (w.config.sizeClass data.length).toNat).takeSlot.1, data)]
  else []

/-- The record that `update_block` writes. -/
def updateWrites : List (ℕ × ℕ × List UInt8) :=
  if f.findRecord.isSome then []
  else match w.index k with
    | some iv =>
      if data.length ≤ w.blockSizeArray iv.blockId then [(iv.blockId, iv.offset, data)]
      else if f.delRecord ≠ 0 then []
      else (w.deleted f iv k).insertWrites data
    | none => w.insertWrites data

end World

section Writes

variable {f : Faults} {w : World} {h : Held store}

/-- A continuation that writes no record does not matter. -/
lemma recordWrites_bind {α β : Type} (p : Prog store α) (g : α → Prog store β)
    (hg : ∀ a h w, recordWrites (requests (handle f) (g a) h w) = []) :
    recordWrites (requests (handle f) (p >>= g) h w) =
      recordWrites (requests (handle f) p h w) := by
  simp only [requests_bind, recordWrites_append]
  cases exec (handle f) p h w with
  | returned a h' w' => simp [hg a h' w']
  | aborted w' => simp [recordWrites]
  | blocked w' => simp [recordWrites]

/-- `append_block` writes one record. -/
lemma recordWrites_appendBlock (hr : Ready w) (hf : FileFree h) (k : Key) (data : List UInt8)
    (cls : Int) (hcls : cls = w.config.sizeClass data.length) :
    recordWrites (requests (handle f) (appendBlock (toSizeT cls) k data) h w) =
      w.insertWrites data := by
  subst hcls
  have htypes : w.blockTypeCount ≤ 20 := hr.types
  rcases findBlockFile_cases w.config (toSizeT (calcBlockSize data.length)) with hc | ⟨i, hi, hc, -⟩
  · have hc' : w.config.sizeClass data.length = -1 := hc
    have hle : w.blockTypeCount ≤ 2 ^ 64 - 1 := by omega
    rw [hc', toSizeT_neg_one]
    generalize 2 ^ 64 - 1 = n at hle ⊢
    simp [appendBlock, hle, World.insertWrites, hc', recordWrites]
  · have hc' : w.config.sizeClass data.length = (i : Int) := hc
    have hi' : i < w.blockTypeCount := hi
    have hle : ¬w.blockTypeCount ≤ i := by omega
    have hnonneg : ¬((i : Int) < 0) := by omega
    rw [hc', toSizeT_natCast (by omega)]
    by_cases hl : data.length ≤ w.blockSizeArray i
    · simp [appendBlock, syncDataFileHeader, syncDataFile, assert, hi', hle, hr.opened i hi', hl,
        hf.admits i .ex, World.insertWrites, hc', hnonneg, recordWrites]
    · simp [appendBlock, assert, hle, hr.opened i hi', hl, World.insertWrites, hc', hnonneg,
        recordWrites]

/-- `modify_block` writes one record. -/
lemma recordWrites_modifyBlock {iv : IndexValue} (k : Key) {data : List UInt8} (hr : Ready w)
    (hf : FileFree h) (hb : iv.blockId < w.blockTypeCount)
    (hl : data.length ≤ w.blockSizeArray iv.blockId) :
    recordWrites (requests (handle f) (modifyBlock iv k data) h w) =
      [(iv.blockId, iv.offset, data)] := by
  have hb' : ¬w.blockTypeCount ≤ iv.blockId := by omega
  by_cases hw : (w.pwrite (f.pwrite .record iv.blockId) iv.blockId iv.offset data).1 =
      some data.length <;>
    simp [modifyBlock, syncDataFile, assert, hb, hb', hr.opened _ hb, hl, hf.admits _ .ex, hw,
      recordWrites]

/-- `do_delete_block` writes no record. -/
lemma recordWrites_doDeleteBlock {iv : IndexValue} (k : Key) (hf : FileFree h)
    (hb : iv.blockId < w.blockTypeCount) :
    recordWrites (requests (handle f) (doDeleteBlock iv k) h w) = [] := by
  by_cases hdel : f.delRecord = 0
  · by_cases hfull : maxFreeSlots ≤ (w.fileHandler iv.blockId).freeSlotsCnt
    · simp [doDeleteBlock, hdel, hf.admits _ .ex, hfull, recordWrites]
    · simp [doDeleteBlock, syncDataFileHeader, syncDataFile, assert, hdel, hf.admits _ .ex, hfull,
        hb, recordWrites]
  · simp [doDeleteBlock, hdel, recordWrites]

/-- The record that `update_block` writes. -/
lemma recordWrites_updateLocked (hr : Ready w) (hf : FileFree h) (k : Key) (data : List UInt8) :
    recordWrites (requests (handle f) (updateLocked k data) h w) = w.updateWrites f k data := by
  have hskip : ∀ (r : StoreReq) (rs : List StoreReq),
      (∀ b off d, r ≠ .pwrite .record b off d) → recordWrites (r :: rs) = recordWrites rs := by
    intro r rs hr
    unfold recordWrites
    rw [List.filterMap_cons_none]
    cases r with
    | pwrite kind b off d =>
      cases kind with
      | record => exact absurd rfl (hr b off d)
      | header => rfl
      | slot => rfl
    | _ => rfl
  have hret : ∀ (a : Int) (h : Held store) (w : World),
      recordWrites (requests (handle f) (ret a : Prog store Int) h w) = [] :=
    fun _ _ _ => rfl
  unfold World.updateWrites
  cases hfault : f.findRecord with
  | some e =>
    simp [updateLocked, hfault, findRecord_of_fault, e.2.2, recordWrites]
  | none =>
    cases hk : w.index k with
    | some iv =>
      have hb := hr.indexed _ iv hk
      by_cases hl : data.length ≤ w.config.blockSizeArray iv.blockId
      · have hmod := recordWrites_modifyBlock (f := f) k hr hf hb hl
        simp only [updateLocked, findRecord_bind, readConfig_bind, requests_request,
          ↓answer_findRecord, ↓answer_config, hfault, findRecord_of_some hk, if_pos hl]
        rw [hskip _ _ (by simp), hskip _ _ (by simp)]
        refine (recordWrites_bind _ _ fun a => hret _).trans (hmod.trans ?_)
        exact (if_pos hl).symm
      · have hdel := exec_doDeleteBlock (f := f) k hb (hf.admits _ .ex)
        have hnone := recordWrites_doDeleteBlock (f := f) k hf hb
        have hl' : ¬data.length ≤ w.blockSizeArray iv.blockId := hl
        simp only [updateLocked, findRecord_bind, readConfig_bind, requests_request,
          ↓answer_findRecord, ↓answer_config, hfault, findRecord_of_some hk, if_neg hl]
        rw [hskip _ _ (by simp), hskip _ _ (by simp)]
        simp only [requests_bind, recordWrites_append, hnone, hdel, List.nil_append]
        by_cases hret' : f.delRecord = 0
        · have happ := recordWrites_appendBlock (f := f) (hr.deleted f iv k) hf k data
            (w.config.sizeClass data.length) (by simp)
          simp only [hret', hl', ne_eq, not_true_eq_false, if_false, Option.isSome_none,
            Bool.false_eq_true]
          rw [← happ]
          exact recordWrites_bind _ _ (fun a => hret _)
        · simp [hret', hl', recordWrites]
    | none =>
      simp only [updateLocked, findRecord_bind, readConfig_bind, requests_request,
          ↓answer_findRecord, ↓answer_config, hfault, findRecord_of_none hk, if_true]
      rw [hskip _ _ (by simp), hskip _ _ (by simp)]
      by_cases hcls : w.config.sizeClass data.length < 0
      · have hcls' : findBlockFile w.config (toSizeT (calcBlockSize data.length)) < 0 := hcls
        simp [hcls', hcls, World.insertWrites, recordWrites]
      · have hcls' : ¬findBlockFile w.config (toSizeT (calcBlockSize data.length)) < 0 := hcls
        have happ := recordWrites_appendBlock (f := f) hr hf k data
          (w.config.sizeClass data.length) rfl
        simp only [if_neg hcls', Option.isSome_none, Bool.false_eq_true, if_false]
        rw [← happ]
        exact recordWrites_bind _ _ (fun a => hret _)

/-- The record that `update_block` writes. -/
lemma recordWrites_updateBlock (hr : Ready w) (hf : FileFree h) (key data : List UInt8)
    (hadm : Admits h StoreLock.index .ex) :
    recordWrites (requests (handle f) (updateBlock key data) h w) =
      w.updateWrites f (fixedKey key) data := by
  rw [← recordWrites_updateLocked hr (hf.cons .ex)]
  simp only [updateBlock, acquire_bind, requests_lock, if_pos hadm]
  exact recordWrites_bind _ _ (fun _ _ _ => rfl)

/-- `delete_block` writes no record. -/
lemma recordWrites_deleteBlock (hr : Ready w) (hf : FileFree h) (key : List UInt8)
    (hadm : Admits h StoreLock.index .ex) :
    recordWrites (requests (handle f) (deleteBlock key) h w) = [] := by
  have hlocked : recordWrites (requests (handle f) (deleteLocked (fixedKey key))
      ((StoreLock.index, .ex) :: h) w) = [] := by
    cases hfault : f.findRecord with
    | some e => simp [deleteLocked, hfault, findRecord_of_fault, recordWrites]
    | none =>
      cases hk : w.index (fixedKey key) with
      | some iv =>
        have hdel := recordWrites_doDeleteBlock (f := f) (fixedKey key) (hf.cons .ex)
          (hr.indexed _ iv hk)
        simp only [deleteLocked, findRecord_bind, requests_request, ↓answer_findRecord, hfault,
          findRecord_of_some hk]
        exact (recordWrites_bind _ _ fun _ _ _ => rfl).trans hdel
      | none => simp [deleteLocked, hfault, findRecord_of_none hk, recordWrites]
  simp only [deleteBlock, acquire_bind, requests_lock, if_pos hadm]
  exact (recordWrites_bind _ _ fun _ _ _ => rfl).trans hlocked

/-- `find_block` writes no record. -/
lemma recordWrites_findBlock (key : List UInt8) :
    recordWrites (requests (handle f) (findBlock key) h w) = [] := by
  simp only [findBlock, acquire_bind, requests_lock]
  split
  · simp only [findRecord_bind, requests_request, ↓answer_findRecord]
    cases w.findRecord f.findRecord (fixedKey key) with
    | error e => simp [recordWrites]
    | ok iv =>
      cases hmem : f.slabAlloc with
      | false => simp [hmem, recordWrites]
      | true =>
        simp only [slabAlloc_bind, requests_request, ↓answer_slabAlloc, hmem, Bool.true_eq_false,
          if_false, requests_lock]
        split <;> simp [recordWrites]
  · rfl

end Writes

/-! ## The slots that have been carved -/

/-- The records written so far lie in the slots that the counters say have been carved, and each of
these has been written to. -/
def Written (w : World) (ws : List (ℕ × ℕ × List UInt8)) : Prop :=
  ∀ b < w.blockTypeCount, ∀ off, (∃ data, (b, off, data) ∈ ws) ↔
    ∃ j < (w.fileHandler b).carved, off = slotOffset w.config b j

section Carved

variable {w : World} {ws : List (ℕ × ℕ × List UInt8)} (f : Faults)

/-- The slot that `append_block` takes: a free one if there is any, else the one behind the last. -/
lemma takeSlot_cases (hi : w.SlotsOk) {b : ℕ} (hb : b < w.blockTypeCount) :
    (w.fileHandler b).freeSlotsCnt ≠ 0 ∧
        (w.fileHandler b).takeSlot.2.carved = (w.fileHandler b).carved ∧
        (∃ j < (w.fileHandler b).carved,
          (w.fileHandler b).takeSlot.1 = slotOffset w.config b j) ∨
      (w.fileHandler b).freeSlotsCnt = 0 ∧
        (w.fileHandler b).takeSlot.2.carved = (w.fileHandler b).carved + 1 ∧
        (w.fileHandler b).takeSlot.1 = slotOffset w.config b (w.fileHandler b).carved := by
  rw [carved_takeSlot, takeSlot_offset]
  by_cases hcnt : (w.fileHandler b).freeSlotsCnt = 0
  · refine Or.inr ⟨hcnt, if_neg (by simpa using hcnt), ?_⟩
    rw [if_neg (by simpa using hcnt), hi.blockSize b hb, slotOffset, BlockFile.carved, hcnt,
      Nat.add_zero]
  · refine Or.inl ⟨hcnt, if_pos hcnt, ?_⟩
    rw [if_pos hcnt]
    exact hi.slot b hb (.free ((w.fileHandler b).freeSlotsCnt - 1)) _ ⟨by omega, rfl⟩

/-- `do_delete_block` carves nothing. -/
lemma carved_deleted (hi : w.SlotsOk) {iv : IndexValue} {k : Key} (hk : w.index k = some iv)
    (b : ℕ) : ((w.deleted f iv k).fileHandler b).carved = (w.fileHandler b).carved := by
  rw [World.fileHandler_deleted]
  split
  · by_cases hb : b = iv.blockId
    · subst hb
      rw [Function.update_self]
      exact (SlotInv.unindex hi hk).carved_putSlot (hi.live k iv hk).1
    · rw [Function.update_of_ne hb]
  · rfl

lemma Written.deleted (hw : Written w ws) (hi : w.SlotsOk) {iv : IndexValue} {k : Key}
    (hk : w.index k = some iv) : Written (w.deleted f iv k) ws := by
  intro b hb off
  rw [World.blockTypeCount_deleted] at hb
  rw [World.config_deleted, carved_deleted f hi hk]
  exact hw b hb off

lemma Written.appended (hw : Written w ws) (hi : w.SlotsOk) {b : ℕ} (hb : b < w.blockTypeCount)
    (k : Key) (data : List UInt8) :
    Written (w.appended f b k data) (ws ++ [(b, (w.fileHandler b).takeSlot.1, data)]) := by
  intro b' hb' off
  rw [World.blockTypeCount_appended] at hb'
  rw [World.config_appended, World.fileHandler_appended]
  have hadd : (∃ d, (b', off, d) ∈ ws ++ [(b, (w.fileHandler b).takeSlot.1, data)]) ↔
      (∃ d, (b', off, d) ∈ ws) ∨ b' = b ∧ off = (w.fileHandler b).takeSlot.1 := by
    simp only [List.mem_append, List.mem_singleton, Prod.mk.injEq]
    constructor
    · rintro ⟨d, h | ⟨h1, h2, -⟩⟩
      · exact Or.inl ⟨d, h⟩
      · exact Or.inr ⟨h1, h2⟩
    · rintro (⟨d, h⟩ | ⟨h1, h2⟩)
      · exact ⟨d, Or.inl h⟩
      · exact ⟨data, Or.inr ⟨h1, h2, rfl⟩⟩
  rw [hadd, hw b' hb' off]
  by_cases hne : b' = b
  · subst hne
    rw [Function.update_self]
    rcases takeSlot_cases hi hb' with ⟨-, hcarved, j, hj, hoff⟩ | ⟨-, hcarved, hoff⟩
    · rw [hcarved, hoff]
      constructor
      · rintro (h | ⟨-, h⟩)
        · exact h
        · exact ⟨j, hj, h⟩
      · exact Or.inl
    · rw [hcarved, hoff]
      constructor
      · rintro (⟨j, hj, h⟩ | ⟨-, h⟩)
        · exact ⟨j, by omega, h⟩
        · exact ⟨_, Nat.lt_succ_self _, h⟩
      · rintro ⟨j, hj, h⟩
        rcases Nat.lt_succ_iff_lt_or_eq.1 hj with hlt | rfl
        · exact Or.inl ⟨j, hlt, h⟩
        · exact Or.inr ⟨rfl, h⟩
  · rw [Function.update_of_ne hne]
    exact ⟨fun h => h.resolve_right (fun h' => hne h'.1), Or.inl⟩

lemma Written.insertEnding (hw : Written w ws) (hi : w.SlotsOk) (k : Key) (data : List UInt8)
    (fail : Int) : Written (w.insertEnding f k data fail).world (ws ++ w.insertWrites data) := by
  unfold World.insertEnding World.insertWrites
  by_cases hcls : w.config.sizeClass data.length < 0
  · simpa [hcls] using hw
  · by_cases hl : data.length ≤ w.blockSizeArray (w.config.sizeClass data.length).toNat
    · simpa [hcls, hl] using hw.appended f hi (w.sizeClass_lt hcls) k data
    · simpa [hcls, hl] using hw

/-- Writing a record to the slot of a live record adds no slot. -/
lemma Written.live (hw : Written w ws) (hi : w.SlotsOk) {iv : IndexValue} {k : Key}
    (hk : w.index k = some iv) (data : List UInt8) {w' : World} (hcfg : w'.config = w.config)
    (hfh : w'.fileHandler = w.fileHandler) :
    Written w' (ws ++ [(iv.blockId, iv.offset, data)]) := by
  intro b hb off
  have hcount : w'.blockTypeCount = w.blockTypeCount := congrArg Config.blockTypeCount hcfg
  rw [hcount] at hb
  rw [hcfg, hfh, ← hw b hb off]
  constructor
  · rintro ⟨d, hd⟩
    rcases List.mem_append.1 hd with h | h
    · exact ⟨d, h⟩
    · simp only [List.mem_singleton, Prod.mk.injEq] at h
      obtain ⟨rfl, rfl, -⟩ := h
      exact (hw _ hb _).2 (hi.slot _ hb (.live k) _ ⟨iv, hk, rfl, rfl⟩)
  · rintro ⟨d, hd⟩
    exact ⟨d, List.mem_append_left _ hd⟩

lemma Written.updateEnding (hw : Written w ws) (hi : w.SlotsOk) (k : Key) (data : List UInt8) :
    Written (w.updateEnding f k data).world (ws ++ w.updateWrites f k data) := by
  unfold World.updateEnding World.updateWrites
  by_cases hfault : f.findRecord.isSome
  · simpa [hfault] using hw
  · cases hk : w.index k with
    | some iv =>
      by_cases hl : data.length ≤ w.blockSizeArray iv.blockId
      · simp only [hfault, hl, if_true, Bool.false_eq_true, if_false]
        unfold World.modifyEnding
        split
        · exact hw.live hi hk data (by simp) (by simp)
        · exact hw.live hi hk data (by simp) (by simp)
      · by_cases hdel : f.delRecord = 0
        · simpa [hfault, hl, hdel] using
            (hw.deleted f hi hk).insertEnding f (hi.deleted f hk) k data (-3)
        · simpa [hfault, hl, hdel] using hw.deleted f hi hk
    | none => simpa [hfault] using hw.insertEnding f hi k data 0

lemma Written.deleteEnding (hw : Written w ws) (hi : w.SlotsOk) (k : Key) :
    Written (w.deleteEnding f k).world ws := by
  unfold World.deleteEnding
  split
  · exact hw
  · cases hk : w.index k with
    | some iv => exact hw.deleted f hi hk
    | none => exact hw

end Carved

end Linglongta
