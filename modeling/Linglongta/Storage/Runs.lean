import Linglongta.Storage.SlotInvariant

/-!
# Runs of the store

`Reached w₀ h w reqs` says that some sequence of calls, each under its own choice of answers of the
system, leads from `w₀` to the world `w`, having made the requests `reqs`; `h` are the locks then
held, none if the process has been stopped by an assertion or waits forever.  A `find_block` that
gets no memory keeps the index lock, so a run may hold it (shared) any number of times.

`slots_of_run` is the slot invariant of every reachable world, spelled out.
-/

namespace Linglongta

open Prog

/-- What some sequence of calls leads to. -/
inductive Reached (w₀ : World) : Option (Held store) → World → List StoreReq → Prop
  /-- No call has been made. -/
  | start : Reached w₀ (some []) w₀ []
  /-- One more call. -/
  | call {h : Held store} {w : World} {reqs : List StoreReq} (hr : Reached w₀ (some h) w reqs)
      (f : Faults) (c : Call) :
      Reached w₀ (exec (handle f) c.prog h w).held? (exec (handle f) c.prog h w).world
        (reqs ++ requests (handle f) c.prog h w)

section Step

variable {w : World} {h : Held store}

/-- The records that one call writes lie in the slots that it carves. -/
lemma call_written (hi : w.SlotsOk) (hh : OnlyLeaked h) (f : Faults) (c : Call)
    {ws : List (ℕ × ℕ × List UInt8)} (hw : Written w ws) :
    Written (exec (handle f) c.prog h w).world
      (ws ++ recordWrites (requests (handle f) c.prog h w)) := by
  cases c with
  | find key =>
    obtain ⟨r, h', hexec, -⟩ := exec_findBlock_cases (f := f) (w := w) hh key
    rw [Call.prog, hexec, recordWrites_findBlock, List.append_nil]
    exact hw
  | update key data =>
    by_cases hadm : Admits h StoreLock.index .ex
    · rw [Call.prog, exec_updateBlock hi.ready hh.fileFree key data hadm,
        recordWrites_updateBlock hi.ready hh.fileFree key data hadm, (Ending.outcome_spec _ _ _).1]
      exact hw.updateEnding f hi _ _
    · obtain ⟨hexec, hreqs⟩ := call_blocked (f := f) (w := w) (c := .update key data) rfl hadm
      rw [hexec, hreqs]
      simpa [recordWrites, Outcome.world] using hw
  | delete key =>
    by_cases hadm : Admits h StoreLock.index .ex
    · rw [Call.prog, exec_deleteBlock hi.ready hh.fileFree key hadm,
        recordWrites_deleteBlock hi.ready hh.fileFree key hadm, (Ending.outcome_spec _ _ _).1,
        List.append_nil]
      exact hw.deleteEnding f hi _
    · obtain ⟨hexec, hreqs⟩ := call_blocked (f := f) (w := w) (c := .delete key) rfl hadm
      rw [hexec, hreqs]
      simpa [recordWrites, Outcome.world] using hw

/-- A run keeps the slot invariant. -/
lemma reached_slots {w₀ : World} (hi : w₀.SlotsOk) {h : Option (Held store)} {reqs : List StoreReq}
    (hr : Reached w₀ h w reqs) : w.SlotsOk ∧ ∀ h', h = some h' → OnlyLeaked h' := by
  induction hr with
  | start => exact ⟨hi, by rintro h' ⟨⟩; intro x hx; simp at hx⟩
  | call hr f c ih =>
    obtain ⟨hi', hh'⟩ := ih
    have hh := hh' _ rfl
    exact ⟨(World.kept_slotsOk f).call hi' hh c, fun h' => call_held hi'.ready hh f c⟩

/-- The records that a run writes lie in the slots that it carves. -/
lemma reached_written {w₀ : World} (hi : w₀.SlotsOk) (hw : Written w₀ []) {h : Option (Held store)}
    {reqs : List StoreReq} (hr : Reached w₀ h w reqs) : Written w (recordWrites reqs) := by
  induction hr with
  | start => exact hw
  | call hr f c ih =>
    obtain ⟨hi', hh'⟩ := reached_slots hi hr
    rw [recordWrites_append]
    exact call_written hi' (hh' _ rfl) f c ih

end Step

/-! ## A store that was just created -/

/-- A process that has not opened the store, in a directory without data files or index entries. -/
structure Blank (w : World) : Prop where
  /-- The store is not open. -/
  closed : w.inited = false
  /-- There is no data file. -/
  noFile : ∀ n, w.disk (.data n) = none
  /-- There is no index entry. -/
  noEntry : ∀ k, w.index k = none

/-- `open_storage` of a closed store succeeds only if the table of block sizes is long enough. -/
lemma effectiveSize_of_open {largest : ℕ} {w : World} (hinit : w.inited = false)
    (h : (openStorage {} largest w).ret = 0) :
    effectiveSize largest < beginningSize * 2 ^ maxBlockCnt := by
  by_contra hlt
  have hret : (initStorage largest { w with inited := true }).1 ≠ 0 :=
    fun h0 => hlt ((initStorage_ret largest _).1 h0)
  have hglobals : (openGlobals {} largest w).1 = -1 := by
    simp [openGlobals, hinit, hret]
  simp [openStorage, hglobals] at h

/-- A new store has the slot invariant, and no slot has been carved. -/
lemma Blank.open_slots {w w₀ : World} {largest : ℕ} {bsp : Option Handle} (hb : Blank w)
    (hopen : openStorage {} largest w = ⟨0, bsp, w₀⟩) : w₀.SlotsOk ∧ Written w₀ [] := by
  have hsize := effectiveSize_of_open hb.closed (congrArg OpenResult.ret hopen)
  have hwhole : HeadersWhole w.disk := by
    intro n file hfile
    simp [hb.noFile n] at hfile
  obtain ⟨w', hopen', -, hcfg, hindex, -, -, hfiles, -⟩ := openStorage_spec largest hb.closed hwhole
    hsize
  obtain rfl : w₀ = w' := congrArg OpenResult.world (hopen.symm.trans hopen')
  have hnone : ∀ k, w₀.index k = none := fun k => by rw [hindex, hb.noEntry k]
  obtain ⟨htypes, hsizes, -⟩ := tableOf_spec largest
  have hentry : ∀ b < w₀.config.blockTypeCount,
      w₀.fileHandler b = BlockFile.new (w₀.config.blockSizeArray b) := by
    intro b hb'
    rw [hcfg] at hb' ⊢
    rw [(hfiles b hb').1, loadedEntry, hb.noFile]
  have howns : ∀ b < w₀.config.blockTypeCount, ∀ x off,
      ¬Owns w₀.fileHandler w₀.index none b x off := by
    intro b hb' x off hx
    cases x with
    | live k =>
      obtain ⟨iv, hk, -⟩ := hx
      simp [hnone k] at hk
    | free i =>
      obtain ⟨hi, -⟩ := hx
      rw [hentry b hb'] at hi
      simp [BlockFile.new, BlockFile.zero] at hi
    | hand => simp [Owns] at hx
  refine ⟨⟨hcfg ▸ htypes, hcfg ▸ hsizes, ?_, ?_, ?_, ?_, ?_, ?_⟩, ?_⟩
  · intro b hb'
    rw [hentry b hb']
    rfl
  · intro b hb'
    rw [hentry b hb']
    rfl
  · intro b hb'
    rw [hentry b hb']
    exact Nat.zero_le _
  · intro k iv hk
    simp [hnone k] at hk
  · intro b hb' x off hx
    exact absurd hx (howns b hb' x off)
  · intro b hb' x y off hx
    exact absurd hx (howns b hb' x off)
  · intro b hb' off
    rw [hentry b hb']
    simp [BlockFile.carved, BlockFile.new, BlockFile.zero]

/-! ## The slot invariant, spelled out -/

/-- What holds of the slots of every block file, after the given writes of records. -/
structure SlotsSound (w : World) (written : List (ℕ × ℕ × List UInt8)) : Prop where
  /-- Two records do not share a slot. -/
  liveDistinct : ∀ k k' iv iv', w.index k = some iv → w.index k' = some iv' →
    iv.blockId = iv'.blockId → iv.offset = iv'.offset → k = k'
  /-- No slot is twice in the list of free slots. -/
  freeDistinct : ∀ b < w.blockTypeCount, ∀ i < (w.fileHandler b).freeSlotsCnt,
    ∀ j < (w.fileHandler b).freeSlotsCnt,
    (w.fileHandler b).freeSlotsOffset i = (w.fileHandler b).freeSlotsOffset j → i = j
  /-- The slot of a record is not in the list of free slots. -/
  liveNotFree : ∀ k iv, w.index k = some iv → ∀ i < (w.fileHandler iv.blockId).freeSlotsCnt,
    (w.fileHandler iv.blockId).freeSlotsOffset i ≠ iv.offset
  /-- A record lies in a slot of a block file of the table. -/
  liveSlot : ∀ k iv, w.index k = some iv → iv.blockId < w.blockTypeCount ∧
    ∃ j < (w.fileHandler iv.blockId).blockCnt + (w.fileHandler iv.blockId).freeSlotsCnt,
      iv.offset = dataSectionPos + (w.fileHandler iv.blockId).blockSize * j
  /-- The entries of the list of free slots are slots. -/
  freeSlot : ∀ b < w.blockTypeCount, ∀ i < (w.fileHandler b).freeSlotsCnt,
    ∃ j < (w.fileHandler b).blockCnt + (w.fileHandler b).freeSlotsCnt,
      (w.fileHandler b).freeSlotsOffset i = dataSectionPos + (w.fileHandler b).blockSize * j
  /-- The list of free slots fits its array. -/
  room : ∀ b < w.blockTypeCount, (w.fileHandler b).freeSlotsCnt ≤ maxFreeSlots
  /-- A record fits its slot. -/
  liveSize : ∀ k iv, w.index k = some iv →
    iv.dataSize ≤ (w.fileHandler iv.blockId).blockSize
  /-- The counters add up to the number of slots that were ever written to. -/
  carved : ∀ b < w.blockTypeCount,
    ((written.filter fun r => r.1 = b).map fun r => r.2.1).toFinset.card =
      (w.fileHandler b).blockCnt + (w.fileHandler b).freeSlotsCnt

/-- What holds of the records that a call for the key `k` writes in the world `w`. -/
structure WriteSound (w : World) (k : Key) (r : ℕ × ℕ × List UInt8) : Prop where
  /-- The record goes to a block file of the table. -/
  file : r.1 < w.blockTypeCount
  /-- It goes to a slot, and not to the header; a new slot is used only if no slot is free. -/
  slot : ∃ j, r.2.1 = dataSectionPos + (w.fileHandler r.1).blockSize * j ∧
    ((w.fileHandler r.1).blockCnt + (w.fileHandler r.1).freeSlotsCnt ≤ j →
      (w.fileHandler r.1).freeSlotsCnt = 0)
  /-- It does not reach into the next slot. -/
  fits : r.2.2.length ≤ (w.fileHandler r.1).blockSize
  /-- The slot is not that of the record of another key. -/
  other : ∀ k' iv, w.index k' = some iv → iv.blockId = r.1 → iv.offset = r.2.1 → k' = k

section Sound

variable {w : World}

/-- The number of slots that were written to. -/
lemma Written.card {ws : List (ℕ × ℕ × List UInt8)} (hw : Written w ws) (hi : w.SlotsOk) {b : ℕ}
    (hb : b < w.blockTypeCount) :
    ((ws.filter fun r => r.1 = b).map fun r => r.2.1).toFinset.card =
      (w.fileHandler b).carved := by
  have hset : ((ws.filter fun r => r.1 = b).map fun r => r.2.1).toFinset =
      (Finset.range (w.fileHandler b).carved).image (slotOffset w.config b) := by
    ext off
    rw [List.mem_toFinset, Finset.mem_image, List.mem_map]
    constructor
    · rintro ⟨r, hr, rfl⟩
      rw [List.mem_filter, decide_eq_true_eq] at hr
      obtain ⟨j, hj, hoff⟩ := (hw b hb r.2.1).1 ⟨r.2.2, hr.2 ▸ hr.1⟩
      exact ⟨j, Finset.mem_range.2 hj, hoff.symm⟩
    · rintro ⟨j, hj, rfl⟩
      obtain ⟨d, hd⟩ := (hw b hb _).2 ⟨j, Finset.mem_range.1 hj, rfl⟩
      exact ⟨(b, slotOffset w.config b j, d), by simpa using hd, rfl⟩
  rw [hset, Finset.card_image_of_injective, Finset.card_range]
  intro i j hij
  exact slotOffset_inj (hi.size_pos hb) hij

/-- The slot invariant, spelled out. -/
lemma World.SlotsOk.sound (hi : w.SlotsOk) {ws : List (ℕ × ℕ × List UInt8)} (hw : Written w ws) :
    SlotsSound w ws where
  liveDistinct := by
    intro k k' iv iv' hk hk' hb hoff
    have := hi.exclusive iv.blockId (hi.live k iv hk).1 (.live k) (.live k') iv.offset
      ⟨iv, hk, rfl, rfl⟩ ⟨iv', hk', hb.symm, hoff.symm⟩
    simpa using this
  freeDistinct := by
    intro b hb i hi' j hj h
    have := hi.exclusive b hb (.free i) (.free j) _ ⟨hi', rfl⟩ ⟨hj, h.symm⟩
    simpa using this
  liveNotFree := by
    intro k iv hk i hi' h
    have := hi.exclusive iv.blockId (hi.live k iv hk).1 (.live k) (.free i) iv.offset
      ⟨iv, hk, rfl, rfl⟩ ⟨hi', h⟩
    simp at this
  liveSlot := by
    intro k iv hk
    have hb := (hi.live k iv hk).1
    refine ⟨hb, ?_⟩
    rw [hi.blockSize _ hb]
    exact hi.slot _ hb (.live k) _ ⟨iv, hk, rfl, rfl⟩
  freeSlot := by
    intro b hb i hi'
    rw [hi.blockSize b hb]
    exact hi.slot b hb (.free i) _ ⟨hi', rfl⟩
  room := hi.room
  liveSize := by
    intro k iv hk
    rw [hi.blockSize _ (hi.live k iv hk).1]
    exact (hi.live k iv hk).2
  carved := fun b hb => hw.card hi hb

/-- The record that `append_block` writes goes to a free or a new slot. -/
lemma insertWrites_sound (hi : w.SlotsOk) {data : List UInt8} {r : ℕ × ℕ × List UInt8}
    (hr : r ∈ w.insertWrites data) (k : Key) : WriteSound w k r := by
  unfold World.insertWrites at hr
  split at hr
  · simp at hr
  · rename_i hcls
    split at hr
    · rename_i hl
      obtain rfl := List.mem_singleton.1 hr
      have hb := w.sizeClass_lt hcls
      have hsize := hi.blockSize _ hb
      refine ⟨hb, ?_, hsize ▸ hl, ?_⟩
      · rw [hsize]
        rcases takeSlot_cases hi hb with ⟨-, -, j, hj, hoff⟩ | ⟨hcnt, -, hoff⟩
        · exact ⟨j, hoff, fun hle => absurd hj (Nat.not_lt.2 hle)⟩
        · exact ⟨_, hoff, fun _ => hcnt⟩
      · intro k' iv hk' hblock hoff
        have := SlotInv.take_not_live hi hk'
        rw [hblock] at this
        exact absurd hoff this
    · simp at hr

/-- `do_delete_block` takes nothing off the list of free slots. -/
lemma freeSlotsCnt_le_deleted (f : Faults) (iv : IndexValue) (k : Key) (b : ℕ) :
    (w.fileHandler b).freeSlotsCnt ≤ ((w.deleted f iv k).fileHandler b).freeSlotsCnt := by
  rw [World.fileHandler_deleted]
  split
  · by_cases hb : b = iv.blockId
    · subst hb
      rw [Function.update_self]
      exact Nat.le_succ _
    · rw [Function.update_of_ne hb]
  · exact le_rfl

/-- What is sound after the record of the key has been deleted is sound before. -/
lemma WriteSound.of_deleted (hi : w.SlotsOk) {f : Faults} {k : Key} {iv : IndexValue}
    (hk : w.index k = some iv) {r : ℕ × ℕ × List UInt8}
    (hr : WriteSound (w.deleted f iv k) k r) : WriteSound w k r := by
  have hb : r.1 < w.blockTypeCount := by simpa using hr.file
  have hsize : ((w.deleted f iv k).fileHandler r.1).blockSize = (w.fileHandler r.1).blockSize := by
    rw [(hi.deleted f hk).blockSize _ (by simpa using hb), hi.blockSize _ hb, World.config_deleted]
  have hcarved := carved_deleted f hi hk r.1
  refine ⟨hb, ?_, hsize ▸ hr.fits, ?_⟩
  · obtain ⟨j, hoff, hfree⟩ := hr.slot
    rw [hsize] at hoff
    refine ⟨j, hoff, fun hle => ?_⟩
    have hzero := hfree (by unfold BlockFile.carved at hcarved; omega)
    have := freeSlotsCnt_le_deleted (w := w) f iv k r.1
    omega
  · intro k' iv' hk' hblock hoff
    by_cases hkk : k' = k
    · exact hkk
    · refine hr.other k' iv' ?_ hblock hoff
      rw [World.index_deleted]
      split
      · rwa [Function.update_of_ne hkk]
      · exact hk'

/-- The records that `update_block` writes. -/
lemma updateWrites_sound (hi : w.SlotsOk) (f : Faults) {k : Key} {data : List UInt8}
    {r : ℕ × ℕ × List UInt8} (hr : r ∈ w.updateWrites f k data) : WriteSound w k r := by
  unfold World.updateWrites at hr
  split at hr
  · simp at hr
  · cases hk : w.index k with
    | none =>
      rw [hk] at hr
      exact insertWrites_sound hi hr k
    | some iv =>
      rw [hk] at hr
      simp only at hr
      split at hr
      · rename_i hl
        obtain rfl := List.mem_singleton.1 hr
        have hb := (hi.live k iv hk).1
        have hsize := hi.blockSize _ hb
        obtain ⟨j, hj, hoff⟩ := hi.slot _ hb (.live k) _ ⟨iv, hk, rfl, rfl⟩
        refine ⟨hb, ⟨j, hsize ▸ hoff, fun hle => absurd hj (Nat.not_lt.2 hle)⟩, hsize ▸ hl, ?_⟩
        intro k' iv' hk' hblock hoff'
        have := hi.exclusive _ hb (.live k') (.live k) _ ⟨iv', hk', hblock, hoff'⟩
          ⟨iv, hk, rfl, rfl⟩
        simpa using this
      · split at hr
        · simp at hr
        · exact (insertWrites_sound (hi.deleted f hk) hr k).of_deleted hi hk

/-- The records that a call writes. -/
lemma call_writes_sound (hi : w.SlotsOk) {h : Held store} (hh : OnlyLeaked h) (f : Faults)
    (c : Call) {r : ℕ × ℕ × List UInt8}
    (hr : r ∈ recordWrites (requests (handle f) c.prog h w)) : WriteSound w c.key r := by
  cases c with
  | find key => simp [Call.prog, recordWrites_findBlock] at hr
  | update key data =>
    by_cases hadm : Admits h StoreLock.index .ex
    · simp only [Call.prog, recordWrites_updateBlock hi.ready hh.fileFree key data hadm] at hr
      exact updateWrites_sound hi f hr
    · rw [(call_blocked (f := f) (w := w) (c := .update key data) rfl hadm).2] at hr
      simp [recordWrites] at hr
  | delete key =>
    by_cases hadm : Admits h StoreLock.index .ex
    · simp [Call.prog, recordWrites_deleteBlock hi.ready hh.fileFree key hadm] at hr
    · rw [(call_blocked (f := f) (w := w) (c := .delete key) rfl hadm).2] at hr
      simp [recordWrites] at hr

end Sound

/-- The slot invariant.  From a store that was just created, whatever the index and the kernel
answer to the calls, in every world that is reached the slots of each block file are sound, and
every record that the next call writes goes to a slot that no record of another key has. -/
theorem slots_of_run {w₀ w₁ w : World} {largest : ℕ} {bsp : Option Handle} (hblank : Blank w₀)
    (hopen : openStorage {} largest w₀ = ⟨0, bsp, w₁⟩) {h : Option (Held store)}
    {reqs : List StoreReq} (hr : Reached w₁ h w reqs) :
    SlotsSound w (recordWrites reqs) ∧
    ∀ (f : Faults) (c : Call) (h' : Held store), h = some h' →
      ∀ r ∈ recordWrites (requests (handle f) c.prog h' w), WriteSound w c.key r := by
  obtain ⟨hi₁, hw₁⟩ := hblank.open_slots hopen
  obtain ⟨hi, hh⟩ := reached_slots hi₁ hr
  refine ⟨hi.sound (reached_written hi₁ hw₁ hr), ?_⟩
  intro f c h' heq r hmem
  exact call_writes_sound hi (hh h' heq) f c hmem

/-- The world of a process that was just started, in an empty directory. -/
lemma blank_empty : Blank World.empty :=
  ⟨rfl, fun _ => rfl, fun _ => rfl⟩

theorem slots_of_run_failed_write :
    ∃ bsp w, openStorage {} 1024 World.empty = ⟨0, bsp, w⟩ ∧
      SlotsSound
        (exec (handle { pwrite := fun _ _ => .failed }) (Call.update [1] [2]).prog [] w).world
        (recordWrites
          (requests (handle { pwrite := fun _ _ => .failed }) (Call.update [1] [2]).prog [] w)) := by
  obtain ⟨w, hopen, -⟩ := openStorage_spec 1024 (w := World.empty) rfl
    (fun n file hfile => by simp [World.empty] at hfile) (by decide)
  exact ⟨_, w, hopen, (slots_of_run blank_empty hopen
    (.call .start { pwrite := fun _ _ => .failed } (.update [1] [2]))).1⟩

end Linglongta
