import Linglongta.Storage.Sound

/-!
# Crashes

The writes to the data files and the index operations are durable, in the order in which they are
made; everything else is lost in a crash.  A crash point is a point of a run between two durable
steps, and `crash_safe` says what a store that is opened again after a crash looks like: its list of
free slots is in order and no later write hits a live record or the header.

One crash point is excluded.  `do_delete_block` writes the header, with the longer list of free
slots, before it writes the new entry of that list.  A crash between the two leaves what stood in
the entry before as a free slot (`crash_between_header_and_slot`), unless it happens to be the right
offset (`Settled`).
-/

namespace Linglongta

open Prog

/-- The requests that change what survives a crash. -/
def StoreReq.Durable : StoreReq → Prop
  | .pwrite _ _ _ _ => True
  | .insertRecord _ _ => True
  | .delRecord _ => True
  | .config => False
  | .fileHandler _ => False
  | .setFileHandler _ _ => False
  | .slabAlloc _ => False
  | .findRecord _ => False
  | .pread _ _ _ => False
  | .logAppend _ => False

/-- The next durable step is not the write of an entry of the list of free slots, or it is one that
changes nothing. -/
def Settled (w : World) : Option StoreReq → Prop
  | some (.pwrite .slot b off data) => w.pread .complete b off data.length = some data
  | _ => True

/-- What a crash leaves can be opened again. -/
structure Recoverable (cfg : Config) (w : World) : Prop where
  /-- The data files are there. -/
  usable : Usable w
  /-- The table that would be rebuilt has the slot invariant. -/
  slots : w.DiskSlots
  /-- There are no other data files. -/
  tight : w.Tight
  /-- The table of block sizes. -/
  config : w.config = cfg

/-- The store between the two writes of `do_delete_block`. -/
def World.freeing (w : World) (iv : IndexValue) (k : Key) : World :=
  ((w.unindexed noFaults iv k).setFileHandler iv.blockId
    ((w.fileHandler iv.blockId).putSlot iv.offset)).syncHeader noFaults iv.blockId

section Recoverable

variable {cfg : Config} {w : World}

/-- A sound store is recoverable. -/
lemma Sound.recoverable (hs : Sound w) : Recoverable w.config w :=
  ⟨hs.usable, hs.mirrored.diskSlots hs.usable hs.slots, hs.tight, rfl⟩

/-- Changing a table entry in memory is not durable. -/
lemma Recoverable.setFileHandler (hr : Recoverable cfg w) {b : ℕ} {fh : BlockFile}
    (hfd : fh.fd = (w.fileHandler b).fd) : Recoverable cfg (w.setFileHandler b fh) :=
  ⟨hr.usable.setFileHandler hfd, hr.slots, hr.tight, hr.config⟩

/-- The journal plays no role. -/
lemma Recoverable.logAppend (hr : Recoverable cfg w) (out : Option ℕ) (ili : IndexLogItem) :
    Recoverable cfg (w.logAppend out ili).2 :=
  ⟨hr.usable.logAppend out ili, hr.slots, hr.tight, hr.config⟩

/-- Between the two writes of `append_block`. -/
lemma Sound.recoverable_taken (hs : Sound w) {b : ℕ} (hb : b < w.blockTypeCount) :
    Recoverable w.config
      ((w.setFileHandler b (w.fileHandler b).takeSlot.2).syncHeader noFaults b) := by
  have hu : Usable ((w.setFileHandler b (w.fileHandler b).takeSlot.2).syncHeader noFaults b) :=
    (hs.usable.setFileHandler (fd_takeSlot _)).pwrite _ _ _ _
  have hset : (w.setFileHandler b (w.fileHandler b).takeSlot.2).Tight := hs.tight
  refine ⟨hu, (hs.taken noFaults_writes hb).diskSlots hu ?_, hset.pwrite _ _ _ _, by simp⟩
  simpa [World.SlotsOk] using (SlotInv.take hs.slots hb).drop

/-- Between the write of the record and the index operation of `append_block`. -/
lemma Sound.recoverable_placed (hs : Sound w) {b : ℕ} (hb : b < w.blockTypeCount)
    (data : List UInt8) : Recoverable w.config (w.placed noFaults b data) := by
  have hr := hs.recoverable_taken hb
  have hu : Usable (w.placed noFaults b data) := hr.usable.pwrite _ _ _ _
  refine ⟨hu, (hs.placed noFaults_writes hb data).diskSlots hu ?_, hr.tight.pwrite _ _ _ _, by simp⟩
  simpa [World.SlotsOk] using (SlotInv.take hs.slots hb).drop

/-- Between the write of the record and the index operation of `modify_block`. -/
lemma Sound.recoverable_rewritten (hs : Sound w) {k : Key} {iv : IndexValue}
    (hk : w.index k = some iv) (data : List UInt8) :
    Recoverable w.config (w.syncRecord noFaults iv.blockId data iv.offset) := by
  have hu : Usable (w.syncRecord noFaults iv.blockId data iv.offset) := hs.usable.pwrite _ _ _ _
  refine ⟨hu, (hs.rewritten hk data).diskSlots hu ?_, hs.tight.pwrite _ _ _ _, by simp⟩
  simpa [World.SlotsOk] using hs.slots

/-- Between the index operation and the writes of `do_delete_block`. -/
lemma Sound.recoverable_unindexed (hs : Sound w) {k : Key} {iv : IndexValue}
    (hk : w.index k = some iv) : Recoverable w.config (w.unindexed noFaults iv k) := by
  have hu : Usable (w.unindexed noFaults iv k) := (hs.usable.logAppend _ _).delRecord _ k
  have hm : (w.unindexed noFaults iv k).Mirrored := hs.mirrored.congr (by simp) (by simp) (by simp)
  refine ⟨hu, hm.diskSlots hu ?_, hs.tight.congr (by simp) (by simp), by simp⟩
  simpa [World.SlotsOk, noFaults] using (SlotInv.unindex hs.slots hk).drop

/-- The store between the two writes of `do_delete_block` can be used. -/
lemma Sound.usable_freeing (hs : Sound w) {k : Key} {iv : IndexValue} (hk : w.index k = some iv) :
    Usable (w.freeing iv k) :=
  ((hs.recoverable_unindexed hk).usable.setFileHandler (by simp [BlockFile.putSlot])).pwrite _ _ _ _

/-- The file between the two writes of `do_delete_block`. -/
lemma file_freeing {k : Key} {iv : IndexValue} {file : ByteFile}
    (hfile : w.file iv.blockId = some file) :
    (w.freeing iv k).file iv.blockId =
      some (file.pwrite 0 ((w.fileHandler iv.blockId).putSlot iv.offset).headerImage) := by
  have hset : ((w.unindexed noFaults iv k).setFileHandler iv.blockId
      ((w.fileHandler iv.blockId).putSlot iv.offset)).file iv.blockId = some file := by
    simpa [World.file, BlockFile.putSlot] using hfile
  have hlen : 0 + ((w.fileHandler iv.blockId).putSlot iv.offset).headerImage.length ≤ offMax := by
    simp [BlockFile.headerImage, offMax]
  rw [World.freeing, World.syncHeader, World.fileHandler_setFileHandler, Function.update_self]
  exact (file_pwrite (noFaults.pwrite .header iv.blockId) hset hlen).2

/-- The words of the header between the two writes of `do_delete_block`. -/
lemma Sound.word_freeing (hs : Sound w) {k : Key} {iv : IndexValue} (hk : w.index k = some iv)
    (hroom : (w.fileHandler iv.blockId).freeSlotsCnt < maxFreeSlots) {file : ByteFile}
    (hwhole : dataSectionPos ≤ file.size) :
    (file.pwrite 0 ((w.fileHandler iv.blockId).putSlot iv.offset).headerImage).word 16 =
        (w.fileHandler iv.blockId).freeSlotsCnt + 1 ∧
      ∀ i < maxFreeSlots, (file.pwrite 0 ((w.fileHandler iv.blockId).putSlot
        iv.offset).headerImage).word (slotsSectionPos + 8 * i) =
          file.word (slotsSectionPos + 8 * i) := by
  have hfits := hs.putSlot_fits (hs.usable.indexed k iv hk) hroom iv.offset
  have hmax : maxFreeSlots < 256 ^ 8 := by decide
  exact (word_pwrite_headerImage hwhole hfits.blockSize hfits.blockCnt
    (hfits.room.trans_lt hmax)).2.2

/-- Between the two writes of `do_delete_block`, if the entry of the list of free slots happens to
be on disk already. -/
lemma Sound.recoverable_freeing (hs : Sound w) {k : Key} {iv : IndexValue}
    (hk : w.index k = some iv) (hroom : (w.fileHandler iv.blockId).freeSlotsCnt < maxFreeSlots)
    (hsettled : (w.freeing iv k).pread .complete iv.blockId
      (slotsSectionPos + 8 * (w.fileHandler iv.blockId).freeSlotsCnt) 8 =
        some (Bytes.toLE 8 iv.offset)) : Recoverable w.config (w.freeing iv k) := by
  have hb := (hs.slots.live k iv hk).1
  have hr := hs.recoverable_unindexed hk
  have hmun : (w.unindexed noFaults iv k).Mirrored :=
    hs.mirrored.congr (by simp) (by simp) (by simp)
  have hbun : iv.blockId < (w.unindexed noFaults iv k).blockTypeCount := by simpa using hb
  have hfd : ((w.fileHandler iv.blockId).putSlot iv.offset).fd =
      ((w.unindexed noFaults iv k).fileHandler iv.blockId).fd := by
    simp [BlockFile.putSlot]
  have hu := hs.usable_freeing hk
  have htight : ((w.unindexed noFaults iv k).setFileHandler iv.blockId
      ((w.fileHandler iv.blockId).putSlot iv.offset)).Tight := hr.tight
  have hm : (w.freeing iv k).Mirrored := by
    refine hmun.header noFaults_writes hr.usable hbun hfd (hs.putSlot_fits hb hroom iv.offset) ?_
    intro file hfile i hi
    have hfile₀ : w.file iv.blockId = some file := by
      rw [← hfile]
      simp [World.file]
    obtain ⟨file₁, hfile₁, hh⟩ := hs.mirrored _ hb
    obtain rfl : file₁ = file := Option.some.inj (hfile₁.symm.trans hfile₀)
    obtain ⟨file₂, hfile₂, hwhole⟩ := hs.usable.file hb
    obtain rfl : file₂ = file₁ := Option.some.inj (hfile₂.symm.trans hfile₀)
    by_cases hlast : i = (w.fileHandler iv.blockId).freeSlotsCnt
    · -- the header write has not touched the entry, and it reads as the offset afterwards
      subst hlast
      have hword := (hs.word_freeing hk hroom hwhole).2 _ hroom
      have hin := slot_le_dataSectionPos hroom
      have hoffMax : ¬offMax < slotsSectionPos + 8 * (w.fileHandler iv.blockId).freeSlotsCnt := by
        have : dataSectionPos ≤ offMax := by decide
        omega
      unfold World.pread at hsettled
      rw [file_freeing hfile₀] at hsettled
      simp only [if_neg hoffMax, reduceCtorEq, if_false, bytes_complete,
        Option.some.injEq] at hsettled
      rw [← hword, ByteFile.word, hsettled,
        Bytes.ofLE_toLE ((hs.offset_le hk).trans_lt (by decide))]
      simp [BlockFile.putSlot]
    · have hlt : i < (w.fileHandler iv.blockId).freeSlotsCnt := by
        simp only [BlockFile.putSlot] at hi
        omega
      rw [hh.slots i hlt]
      simp only [BlockFile.putSlot]
      rw [Function.update_of_ne hlast]
  have hi : (w.freeing iv k).SlotsOk := by
    have hfree := (SlotInv.unindex hs.slots hk).free hb hroom
    simpa [World.freeing, World.SlotsOk, noFaults] using hfree
  exact ⟨hu, hm.diskSlots hu hi, htight.pwrite _ _ _ _, by simp [World.freeing]⟩

end Recoverable

/-! ## The crash points of a call -/

/-- At a crash point that is settled, the store is recoverable. -/
def CrashOk (cfg : Config) : Action store → Held store → World → Prop
  | .call r, _, w => r.Durable → Settled w (some r) → Recoverable cfg w
  | .lock _ _, _, _ => True
  | .unlock _ _, _, _ => True
  | .abort, _, _ => True

section Calls

variable {w : World} {h : Held store}

/-- The crash points of `append_block`. -/
lemma safe_appendBlock (hs : Sound w) (b : ℕ) (k : Key) (data : List UInt8) :
    Safe (handle noFaults) (CrashOk w.config) (fun _ _ _ => True) (appendBlock b k data) h w := by
  by_cases hb : b < w.blockTypeCount
  · have hle : ¬w.blockTypeCount ≤ b := by omega
    have hopened := hs.usable.ready.opened b hb
    by_cases hl : data.length ≤ w.blockSizeArray b
    · simp [appendBlock, syncDataFileHeader, syncDataFile, assert, hle, hb, hopened, hl, CrashOk,
        StoreReq.Durable, Settled]
      refine fun _ => ⟨hs.recoverable.setFileHandler (fd_takeSlot _), ?_, ?_⟩
      · simpa [World.syncHeader] using hs.recoverable_taken hb
      · have hplaced := (hs.recoverable_placed hb data).logAppend (noFaults.journal .append)
          ⟨.append, k, (w.appendedValue b data).image⟩
        simpa [World.placed, World.syncHeader, World.syncRecord, World.appendedValue] using hplaced
    · simp [appendBlock, assert, hle, hopened, hl, CrashOk, StoreReq.Durable]
  · have hge : w.blockTypeCount ≤ b := by omega
    simp [appendBlock, hge, CrashOk, StoreReq.Durable]

/-- The crash points of `modify_block`. -/
lemma safe_modifyBlock (hs : Sound w) {k : Key} {iv : IndexValue} (hk : w.index k = some iv)
    {data : List UInt8} (hl : data.length ≤ w.blockSizeArray iv.blockId) :
    Safe (handle noFaults) (CrashOk w.config) (fun _ _ _ => True) (modifyBlock iv k data) h w := by
  have hb := hs.usable.indexed k iv hk
  have hle : ¬w.blockTypeCount ≤ iv.blockId := by omega
  have hopened := hs.usable.ready.opened _ hb
  have hlog := (hs.recoverable_rewritten hk data).logAppend (noFaults.journal .modify)
    ⟨.modify, k, (World.modifiedValue iv data).image⟩
  by_cases hw : (w.pwrite (noFaults.pwrite .record iv.blockId) iv.blockId iv.offset data).1 =
      some data.length
  · simp [modifyBlock, syncDataFile, assert, hle, hb, hopened, hl, hw, CrashOk, StoreReq.Durable,
      Settled]
    exact fun _ => ⟨hs.recoverable, hlog⟩
  · simp [modifyBlock, syncDataFile, assert, hle, hb, hopened, hl, hw, CrashOk, StoreReq.Durable,
      Settled]
    exact fun _ => hs.recoverable

/-- The crash points of `do_delete_block`. -/
lemma safe_doDeleteBlock (hs : Sound w) {k : Key} {iv : IndexValue} (hk : w.index k = some iv) :
    Safe (handle noFaults) (CrashOk w.config)
      (fun r _ w' => r = 0 ∧ w' = w.deleted noFaults iv k) (doDeleteBlock iv k) h w := by
  have hb := hs.usable.indexed k iv hk
  have hlog := hs.recoverable.logAppend (noFaults.journal .del) ⟨.del, k, iv.image⟩
  have hun := hs.recoverable_unindexed hk
  have hdel : noFaults.delRecord = 0 := rfl
  have hfold : (w.logAppend (noFaults.journal .del) ⟨.del, k, iv.image⟩).2.delRecord 0 k =
      w.unindexed noFaults iv k := rfl
  have hdeleted := World.deleted_of_success noFaults w k iv hdel
  by_cases hfull : maxFreeSlots ≤ (w.fileHandler iv.blockId).freeSlotsCnt
  · simp [doDeleteBlock, hdel, hfull, CrashOk, StoreReq.Durable, Settled, hfold]
    refine ⟨hlog, fun _ => ?_⟩
    rw [hdeleted, World.freed, if_pos (by simpa using hfull)]
  · have hroom : (w.fileHandler iv.blockId).freeSlotsCnt < maxFreeSlots := by omega
    have hslot : ((w.fileHandler iv.blockId).putSlot iv.offset).freeSlotsOffset
        (w.fileHandler iv.blockId).freeSlotsCnt = iv.offset := by
      simp [BlockFile.putSlot]
    simp [doDeleteBlock, syncDataFileHeader, syncDataFile, assert, hdel, hfull, hb, CrashOk,
      StoreReq.Durable, Settled, hfold, hslot]
    refine ⟨hlog, fun _ => ⟨hun.setFileHandler (by simp [BlockFile.putSlot]), ?_, ?_⟩⟩
    · intro hsettled
      have hfreeing := hs.recoverable_freeing hk hroom
      simp only [World.freeing, World.syncHeader, World.fileHandler_setFileHandler,
        Function.update_self] at hfreeing
      exact hfreeing hsettled
    · rw [hdeleted, World.freed, if_neg (by simpa using hfull)]
      simp [World.syncHeader, World.syncSlot, hslot]

/-- The crash points of `delete_block`. -/
lemma safe_deleteLocked (hs : Sound w) (k : Key) :
    Safe (handle noFaults) (CrashOk w.config) (fun _ _ _ => True) (deleteLocked k) h w := by
  have hfault : noFaults.findRecord = none := rfl
  cases hk : w.index k with
  | none => simp [deleteLocked, hfault, findRecord_of_none hk, CrashOk, StoreReq.Durable]
  | some iv =>
    simp only [deleteLocked, findRecord_bind, safe_request, ↓answer_findRecord, hfault,
      findRecord_of_some hk, safe_bind]
    exact ⟨fun hd => hd.elim, (safe_doDeleteBlock hs hk).mono (fun _ _ _ => id) (by simp)⟩

/-- The crash points of `update_block`. -/
lemma safe_updateLocked (hs : Sound w) (k : Key) (data : List UInt8) :
    Safe (handle noFaults) (CrashOk w.config) (fun _ _ _ => True) (updateLocked k data) h w := by
  have hfault : noFaults.findRecord = none := rfl
  cases hk : w.index k with
  | none =>
    simp only [updateLocked, findRecord_bind, readConfig_bind, safe_request, ↓answer_findRecord,
      ↓answer_config, hfault, findRecord_of_none hk, if_true]
    refine ⟨fun hd => hd.elim, fun hd => hd.elim, ?_⟩
    split
    · trivial
    · rw [safe_bind (I := store)]
      exact (safe_appendBlock hs _ k data).mono (fun _ _ _ => id) (by simp)
  | some iv =>
    simp only [updateLocked, findRecord_bind, readConfig_bind, safe_request, ↓answer_findRecord,
      ↓answer_config, hfault, findRecord_of_some hk]
    refine ⟨fun hd => hd.elim, fun hd => hd.elim, ?_⟩
    split
    · rename_i hl
      rw [safe_bind (I := store)]
      exact (safe_modifyBlock hs hk hl).mono (fun _ _ _ => id) (by simp)
    · rw [safe_bind (I := store)]
      refine (safe_doDeleteBlock hs hk).mono (fun _ _ _ => id) ?_
      rintro r h' w' ⟨rfl, rfl⟩
      have happ := safe_appendBlock (h := h') (hs.deleted noFaults_writes hk)
        (toSizeT (findBlockFile w.config (toSizeT (calcBlockSize data.length)))) k data
      rw [World.config_deleted] at happ
      rw [if_neg (by simp), safe_bind (I := store)]
      exact happ.mono (fun _ _ _ => id) (by simp)

/-- The crash points of a call. -/
lemma safe_call_prog (hs : Sound w) (c : Call) :
    Safe (handle noFaults) (CrashOk w.config) (fun _ _ _ => True) c.prog h w := by
  have hrelease : ∀ (r : Int) (h : Held store) (w' : World),
      Safe (handle noFaults) (CrashOk w.config) (fun _ _ _ => True)
        (release (I := store) .index .ex >>= fun _ => pure { ret := r } : Prog store Reply) h w' :=
    fun _ _ _ => ⟨trivial, trivial⟩
  cases c with
  | find key =>
    cases hk : w.index (fixedKey key) with
    | none =>
      simp [Call.prog, findBlock, noFaults, findRecord_of_none hk, CrashOk, StoreReq.Durable]
    | some iv =>
      simp [Call.prog, findBlock, noFaults, findRecord_of_some hk, CrashOk, StoreReq.Durable]
  | delete key =>
    simp only [Call.prog, deleteBlock, acquire_bind, safe_lock]
    rw [safe_bind (I := store)]
    exact ⟨trivial, fun _ => (safe_deleteLocked hs _).mono (fun _ _ _ => id)
      fun r h' w' _ => hrelease r h' w'⟩
  | update key data =>
    simp only [Call.prog, updateBlock, acquire_bind, safe_lock]
    rw [safe_bind (I := store)]
    exact ⟨trivial, fun _ => (safe_updateLocked hs _ _).mono (fun _ _ _ => id)
      fun r h' w' _ => hrelease r h' w'⟩

end Calls

/-! ## Histories and crashes -/

/-- The records that a call writes end below the largest file offset, so that the writes are
complete. -/
def Call.InRange (c : Call) (w : World) : Prop :=
  ∀ r ∈ recordWrites (requests (handle noFaults) c.prog [] w), r.2.1 + r.2.2.length ≤ offMax

/-- A history of calls that leads from `w₁` to `w`, everything succeeding. -/
inductive History (w₁ : World) : World → Prop
  /-- No call has been made. -/
  | start : History w₁ w₁
  /-- One more call, which returns. -/
  | call {w w' : World} {r : Reply} {h : Held store} (hh : History w₁ w) (c : Call)
      (hrange : c.InRange w) (hexec : exec (handle noFaults) c.prog [] w = .returned r h w') :
      History w₁ w'

/-- The world in which a history is stopped by a crash, and the durable step that would have come
next, none if the crash falls between two calls. -/
inductive CrashPoint (w₁ : World) : World → Option StoreReq → Prop
  /-- A crash between two calls. -/
  | between {w : World} (hh : History w₁ w) : CrashPoint w₁ w none
  /-- A crash within a call. -/
  | during {w : World} (hh : History w₁ w) (c : Call) {q : Point store Reply World}
      (hq : Reaches (handle noFaults) ⟨c.prog, [], w⟩ q) {r : StoreReq}
      (hr : q.prog.action = some (.call r)) (hd : r.Durable) : CrashPoint w₁ q.world (some r)

section Histories

variable {f : Faults} {w₁ w : World}

/-- `append_block` for a new key, or nothing. -/
lemma Sound.insertEnding (hs : Sound w) (hf : f.Writes) (k : Key) {data : List UInt8} (fail : Int)
    (hrange : ∀ r ∈ w.insertWrites data, r.2.1 + r.2.2.length ≤ offMax) :
    Sound (w.insertEnding f k data fail).world := by
  unfold World.insertWrites at hrange
  unfold World.insertEnding
  split
  · exact hs
  · rename_i hcls
    rw [if_neg hcls] at hrange
    split
    · rename_i hl
      rw [if_pos hl] at hrange
      have hoff := (Nat.le_add_right _ _).trans (hrange _ (List.mem_singleton.2 rfl))
      exact hs.appended hf (w.sizeClass_lt hcls) k hl hoff
    · exact hs

/-- `update_block`. -/
lemma Sound.updateEnding (hs : Sound w) (hf : f.Writes) (k : Key) {data : List UInt8}
    (hrange : ∀ r ∈ w.updateWrites f k data, r.2.1 + r.2.2.length ≤ offMax)
    (hret : (w.updateEnding f k data).ret ≠ none) : Sound (w.updateEnding f k data).world := by
  unfold World.updateWrites at hrange
  unfold World.updateEnding at hret ⊢
  by_cases hfault : f.findRecord.isSome = true
  · rw [if_pos hfault]
    exact hs
  rw [if_neg hfault] at hrange hret ⊢
  cases hk : w.index k with
  | none =>
    rw [hk] at hrange
    exact hs.insertEnding hf k 0 hrange
  | some iv =>
    rw [hk] at hrange hret
    simp only at hrange hret ⊢
    by_cases hl : data.length ≤ w.blockSizeArray iv.blockId
    · rw [if_pos hl] at hret ⊢
      unfold World.modifyEnding at hret ⊢
      split
      · exact hs.modified hk hl
      · rename_i hw
        rw [if_neg hw] at hret
        exact absurd rfl hret
    · rw [if_neg hl] at hrange ⊢
      have hdeleted := hs.deleted hf hk
      split
      · exact hdeleted
      · rename_i hdel
        rw [if_neg hdel] at hrange
        exact hdeleted.insertEnding hf k (-3) hrange

/-- A call that returns, all writes being complete. -/
lemma Sound.call_of_writes (hs : Sound w) (hf : f.Writes) {h h' : Held store} (hh : OnlyLeaked h)
    {c : Call} (hrange : ∀ r ∈ recordWrites (requests (handle f) c.prog h w),
      r.2.1 + r.2.2.length ≤ offMax) {r : Reply} {w' : World}
    (hexec : exec (handle f) c.prog h w = .returned r h' w') : Sound w' ∧ w'.config = w.config := by
  have hready := hs.usable.ready
  have hworld : w' = (exec (handle f) c.prog h w).world := by rw [hexec]; rfl
  have hcfg := (Usable.kept f).config w.config |>.call ⟨hs.usable, rfl⟩ hh c
  rw [← hworld] at hcfg
  refine ⟨?_, hcfg.2⟩
  cases c with
  | find key =>
    obtain ⟨r', h'', hfind, -⟩ := exec_findBlock_cases (f := f) (w := w) hh key
    rw [Call.prog, hfind] at hworld
    exact hworld ▸ hs
  | update key data =>
    have hadm : Admits h StoreLock.index .ex := by
      by_contra hnot
      simp [Call.prog, updateBlock, hnot] at hexec
    rw [Call.prog, recordWrites_updateBlock hready hh.fileFree key data hadm] at hrange
    rw [Call.prog, exec_updateBlock hready hh.fileFree key data hadm] at hexec hworld
    rw [hworld, (Ending.outcome_spec _ _ _).1]
    refine hs.updateEnding hf _ hrange fun hnone => ?_
    rw [Ending.outcome, hnone] at hexec
    simp at hexec
  | delete key =>
    have hadm : Admits h StoreLock.index .ex := by
      by_contra hnot
      simp [Call.prog, deleteBlock, hnot] at hexec
    rw [Call.prog, exec_deleteBlock hready hh.fileFree key hadm] at hworld
    rw [hworld, (Ending.outcome_spec _ _ _).1, World.deleteEnding]
    split
    · exact hs
    · cases hk : w.index (fixedKey key) with
      | none => exact hs
      | some iv => exact hs.deleted hf hk

/-- A call that returns, everything succeeding. -/
lemma Sound.call (hs : Sound w) {c : Call} (hrange : c.InRange w) {r : Reply} {h : Held store}
    {w' : World} (hexec : exec (handle noFaults) c.prog [] w = .returned r h w') :
    Sound w' ∧ w'.config = w.config :=
  hs.call_of_writes noFaults_writes (fun _ hx => absurd hx List.not_mem_nil) hrange hexec

/-- A history keeps a store sound. -/
lemma History.sound (hh : History w₁ w) (hs : Sound w₁) : Sound w ∧ w.config = w₁.config := by
  induction hh with
  | start => exact ⟨hs, rfl⟩
  | call _ c hrange hexec ih =>
    obtain ⟨hs', hcfg⟩ := ih.1.call hrange hexec
    exact ⟨hs', hcfg.trans ih.2⟩

/-- What a crash leaves can be opened again. -/
lemma CrashPoint.recoverable {next : Option StoreReq} (hc : CrashPoint w₁ w next) (hs : Sound w₁)
    (hsettled : Settled w next) : Recoverable w₁.config w := by
  cases hc with
  | between hh =>
    obtain ⟨hs', hcfg⟩ := hh.sound hs
    exact hcfg ▸ hs'.recoverable
  | during hh c hq hr hd =>
    obtain ⟨hs', hcfg⟩ := hh.sound hs
    have hsafe := (safe_call_prog (h := []) hs' c).reaches hq
    exact hcfg ▸ hsafe.action hr hd hsettled

end Histories

/-! ## Opening after a crash -/

/-- What holds of the lists of free slots of a store. -/
structure FreeListSound (w : World) : Prop where
  /-- No slot is twice in the list. -/
  distinct : ∀ b < w.blockTypeCount, ∀ i < (w.fileHandler b).freeSlotsCnt,
    ∀ j < (w.fileHandler b).freeSlotsCnt,
    (w.fileHandler b).freeSlotsOffset i = (w.fileHandler b).freeSlotsOffset j → i = j
  /-- The slots lie behind the header. -/
  behindHeader : ∀ b < w.blockTypeCount, ∀ i < (w.fileHandler b).freeSlotsCnt,
    dataSectionPos ≤ (w.fileHandler b).freeSlotsOffset i
  /-- No record lies in a free slot. -/
  notLive : ∀ k iv, w.index k = some iv → ∀ i < (w.fileHandler iv.blockId).freeSlotsCnt,
    (w.fileHandler iv.blockId).freeSlotsOffset i ≠ iv.offset
  /-- No record lies where the next one will be appended. -/
  nextNotLive : ∀ k iv, w.index k = some iv → (w.fileHandler iv.blockId).takeSlot.1 ≠ iv.offset

/-- The slot invariant says so. -/
lemma World.SlotsOk.freeListSound {w : World} (hi : w.SlotsOk) : FreeListSound w where
  distinct := by
    intro b hb i hi' j hj h
    have := hi.exclusive b hb (.free i) (.free j) _ ⟨hi', rfl⟩ ⟨hj, h.symm⟩
    simpa using this
  behindHeader := by
    intro b hb i hi'
    obtain ⟨j, -, hoff⟩ := hi.slot b hb (.free i) _ ⟨hi', rfl⟩
    rw [hoff]
    exact Nat.le_add_right _ _
  notLive := by
    intro k iv hk i hi' h
    have := hi.exclusive iv.blockId (hi.live k iv hk).1 (.live k) (.free i) iv.offset
      ⟨iv, hk, rfl, rfl⟩ ⟨hi', h⟩
    simp at this
  nextNotLive := fun k iv hk h => SlotInv.take_not_live hi hk h.symm

/-- Crash safety of the lists of free slots.  A history on a new store is stopped at a crash point
other than the one between the two writes of `do_delete_block`; the store is then opened again.  The
lists of free slots that are loaded are sound, and they stay so, whatever the later calls are
answered; no later call writes to the header or to the slot of a record of another key. -/
theorem crash_safe {w₀ w₁ w w₂ : World} {largest largest' : ℕ} {bsp : Option Handle}
    {next : Option StoreReq} (hblank : Blank w₀)
    (hopen : openStorage {} largest w₀ = ⟨0, bsp, w₁⟩) (hcrash : CrashPoint w₁ w next)
    (hsettled : Settled w next) (hrest : Rests w w₂)
    (hsize : effectiveSize largest ≤ effectiveSize largest')
    (hlimit : effectiveSize largest' < beginningSize * 2 ^ maxBlockCnt) :
    ∃ w₃, openStorage {} largest' w₂ = ⟨0, some ⟨true, true, true⟩, w₃⟩ ∧ FreeListSound w₃ ∧
      ∀ h w' reqs, Reached w₃ h w' reqs → FreeListSound w' ∧
        ∀ (f : Faults) (c : Call) (h' : Held store), h = some h' →
          ∀ r ∈ recordWrites (requests (handle f) c.prog h' w'), WriteSound w' c.key r := by
  obtain ⟨hs, htable⟩ := hblank.open_sound hopen
  have hrec := hcrash.recoverable hs hsettled
  have hgrow : ∀ b < w.blockTypeCount, InTable (effectiveSize largest') b := by
    intro b hb
    have hcount : w.blockTypeCount = w₁.blockTypeCount :=
      congrArg Config.blockTypeCount hrec.config
    exact ((htable b).1 (hcount ▸ hb)).mono hsize
  have hc := hrest.closed hrec.usable hgrow
  obtain ⟨w₃, hopen₃, -⟩ := openStorage_spec largest' hc.inited hc.whole hlimit
  have hslots := (hrest.reopened hrec.usable hrec.tight hgrow hopen₃).slots hrec.slots
  refine ⟨w₃, hopen₃, hslots.freeListSound, fun h w' reqs hr => ?_⟩
  obtain ⟨hslots', hleaked⟩ := reached_slots hslots hr
  exact ⟨hslots'.freeListSound, fun f c h' heq r hmem =>
    call_writes_sound hslots' (hleaked h' heq) f c hmem⟩

theorem crash_safe_after_update :
    ∃ w₁ w₂ w₃, openStorage {} 1024 World.empty = ⟨0, some ⟨true, true, true⟩, w₁⟩ ∧
      exec (handle noFaults) (Call.update [1] [2]).prog [] w₁ = .returned { ret := 0 } [] w₂ ∧
      openStorage {} 1024 { World.empty with disk := w₂.disk, index := w₂.index } =
        ⟨0, some ⟨true, true, true⟩, w₃⟩ ∧ FreeListSound w₃ := by
  obtain ⟨w, hopen, hl, hcfg, hindex, hentry, -⟩ := exists_small_store
  have hupdate := small_update hl hcfg hindex [1]
  have hhist : History w (w.appended noFaults 0 (fixedKey [1]) [2]) :=
    .call .start (.update [1] [2]) (small_update_range hl hcfg hindex hentry [1]) hupdate
  have hrest : Rests (w.appended noFaults 0 (fixedKey [1]) [2]) { World.empty with
      disk := (w.appended noFaults 0 (fixedKey [1]) [2]).disk
      index := (w.appended noFaults 0 (fixedKey [1]) [2]).index } := ⟨rfl, rfl, rfl⟩
  have hsize : effectiveSize 1024 ≤ effectiveSize 1024 := le_rfl
  obtain ⟨w₃, hopen₃, hsound, -⟩ := crash_safe blank_empty hopen (.between hhist) trivial hrest
    hsize (by decide)
  exact ⟨w, _, w₃, hopen, hupdate, hopen₃, hsound⟩

/-! ## The crash point that is left out -/

/-- A `delete_block` of a record passes through it. -/
lemma exists_freeing {w : World} (hu : Usable w) (key : List UInt8) {iv : IndexValue}
    (hk : w.index (fixedKey key) = some iv)
    (hroom : (w.fileHandler iv.blockId).freeSlotsCnt < maxFreeSlots) :
    ∃ q, Reaches (handle noFaults) ⟨(Call.delete key).prog, [], w⟩ q ∧
      q.prog.action = some (.call (.pwrite .slot iv.blockId
        (slotsSectionPos + 8 * (w.fileHandler iv.blockId).freeSlotsCnt)
        (Bytes.toLE 8 iv.offset))) ∧
      q.world = w.freeing iv (fixedKey key) := by
  have hb := hu.indexed _ iv hk
  have hfull : ¬maxFreeSlots ≤ (w.fileHandler iv.blockId).freeSlotsCnt := by omega
  have hfault : noFaults.findRecord = none := rfl
  have hdel : noFaults.delRecord = 0 := rfl
  have hfold : (w.logAppend (noFaults.journal .del) ⟨.del, fixedKey key, iv.image⟩).2.delRecord 0
      (fixedKey key) = w.unindexed noFaults iv (fixedKey key) := rfl
  have hslot : ((w.fileHandler iv.blockId).putSlot iv.offset).freeSlotsOffset
      (w.fileHandler iv.blockId).freeSlotsCnt = iv.offset := by
    simp [BlockFile.putSlot]
  have hnot : ¬Safe (handle noFaults) (fun a _ w' => ¬(a = .call (.pwrite .slot iv.blockId
      (slotsSectionPos + 8 * (w.fileHandler iv.blockId).freeSlotsCnt) (Bytes.toLE 8 iv.offset)) ∧
        w' = w.freeing iv (fixedKey key))) (fun _ _ _ => True) (Call.delete key).prog [] w := by
    simp [Call.prog, deleteBlock, deleteLocked, hfault, findRecord_of_some hk, doDeleteBlock,
      syncDataFileHeader, syncDataFile, assert, hdel, hfull, hb, hfold, hslot, Admits,
      World.freeing, World.syncHeader]
  obtain ⟨q, hq, a, ha, hbad⟩ := exists_reaches_of_not_safe hnot
  obtain ⟨rfl, hw⟩ := not_not.1 hbad
  exact ⟨q, hq, ha, hw⟩

/-- The first entry of the list of free slots of a file was never written. -/
def World.Unused (w : World) (b : ℕ) : Prop :=
  ∃ file, w.file b = some file ∧ dataSectionPos ≤ file.size ∧ file.word slotsSectionPos = 0

/-- Writing a header or a record leaves the list of free slots alone. -/
lemma World.Unused.pwrite {w : World} {b : ℕ} (hunused : w.Unused b) {off : ℕ} {data : List UInt8}
    (hoff : off + data.length ≤ slotsSectionPos ∨ dataSectionPos ≤ off) :
    (w.pwrite .complete b off data).2.Unused b := by
  obtain ⟨file, hfile, hwhole, hword⟩ := hunused
  by_cases hmax : off + data.length ≤ offMax
  · refine ⟨_, (file_pwrite .complete hfile hmax).2,
      hwhole.trans (ByteFile.size_le_pwrite _ _ _), ?_⟩
    have hin : slotsSectionPos + 8 ≤ dataSectionPos := by
      simpa using slot_le_dataSectionPos (i := 0) (by decide)
    rw [bytes_complete, ByteFile.word_pwrite_of_disjoint (hin.trans hwhole) ?_]
    · exact hword
    · rcases hoff with hoff | hoff
      · exact Or.inr hoff
      · exact Or.inl (hin.trans hoff)
  · rw [pwrite_of_refused .complete (Or.inr (Nat.not_le.1 hmax))]
    exact ⟨file, hfile, hwhole, hword⟩

/-- The list of free slots that is loaded after a crash between the two writes, if the entry was
never written. -/
lemma loadedEntry_freeing {w : World} (hs : Sound w) {k : Key} {iv : IndexValue}
    (hk : w.index k = some iv) (hcnt : (w.fileHandler iv.blockId).freeSlotsCnt = 0)
    (hunused : w.Unused iv.blockId) :
    (loadedEntry (w.freeing iv k).disk (w.blockSizeArray iv.blockId)).freeSlotsCnt = 1 ∧
      (loadedEntry (w.freeing iv k).disk (w.blockSizeArray iv.blockId)).freeSlotsOffset 0 = 0 := by
  have hb := hs.usable.indexed k iv hk
  have hroom : (w.fileHandler iv.blockId).freeSlotsCnt < maxFreeSlots := by
    rw [hcnt]
    decide
  obtain ⟨file, hfile, hwhole, hword⟩ := hunused
  have hafter := file_freeing (k := k) hfile
  have hfd : ((w.freeing iv k).fileHandler iv.blockId).fd =
      some (.data (w.blockSizeArray iv.blockId)) := by
    simpa [World.freeing, BlockFile.putSlot] using hs.usable.opened _ hb
  rw [World.file, hfd] at hafter
  have hdisk : (w.freeing iv k).disk (.data (w.blockSizeArray iv.blockId)) = some (file.pwrite 0
      ((w.fileHandler iv.blockId).putSlot iv.offset).headerImage) := hafter
  obtain ⟨hthird, hslots⟩ := hs.word_freeing hk hroom hwhole
  have hzero : 0 < maxFreeSlots := by decide
  have hwords := words_le_dataSectionPos
  rw [loadedEntry, hdisk]
  refine ⟨?_, ?_⟩
  · refine (wordUpTo_eq (by omega)).trans (hthird.trans ?_)
    rw [hcnt]
  · exact (wordUpTo_eq (slot_le_dataSectionPos hzero)).trans ((hslots 0 hzero).trans hword)

/-- A record is stored in a new store, and the process stops between the two writes of the
`delete_block` of it.  The store that is opened again has the header as a free slot. -/
theorem crash_between_header_and_slot :
    ∃ (w₁ w₂ w₃ : World) (q : Point store Reply World),
      openStorage {} 1024 World.empty = ⟨0, some ⟨true, true, true⟩, w₁⟩ ∧
      exec (handle noFaults) (Call.update [1] [2]).prog [] w₁ = .returned { ret := 0 } [] w₂ ∧
      Reaches (handle noFaults) ⟨(Call.delete [1]).prog, [], w₂⟩ q ∧
      CrashPoint w₁ q.world
        (some (.pwrite .slot 0 slotsSectionPos (Bytes.toLE 8 dataSectionPos))) ∧
      openStorage {} 1024 { World.empty with disk := q.world.disk, index := q.world.index } =
        ⟨0, some ⟨true, true, true⟩, w₃⟩ ∧
      (w₃.fileHandler 0).freeSlotsCnt = 1 ∧ (w₃.fileHandler 0).freeSlotsOffset 0 = 0 ∧
      ¬FreeListSound w₃ := by
  obtain ⟨w, hopen, hl, hcfg, hindex, hentry, hfile⟩ := exists_small_store
  obtain ⟨hs, htable⟩ := blank_empty.open_sound hopen
  have hb : 0 < w.blockTypeCount := (htable 0).2 ⟨by decide, by decide⟩
  have hsize := small_blockSize hcfg
  have hupdate := small_update hl hcfg hindex [1]
  have hrange : (Call.update [1] [2]).InRange w := small_update_range hl hcfg hindex hentry [1]
  -- the store after the update
  have hs₂ := (hs.call hrange hupdate).1
  have hhist : History w (w.appended noFaults 0 (fixedKey [1]) [2]) :=
    .call .start (.update [1] [2]) hrange hupdate
  have htake : (w.fileHandler 0).takeSlot.1 = dataSectionPos := by
    rw [hentry]
    rfl
  have hk : (w.appended noFaults 0 (fixedKey [1]) [2]).index (fixedKey [1]) =
      some (w.appendedValue 0 [2]) := by
    simp [noFaults]
  have hoff : (w.appendedValue 0 [2]).offset = dataSectionPos := htake
  have hcnt : ((w.appended noFaults 0 (fixedKey [1]) [2]).fileHandler 0).freeSlotsCnt = 0 := by
    rw [World.fileHandler_appended, Function.update_self, hentry]
    rfl
  have hunused : (w.appended noFaults 0 (fixedKey [1]) [2]).Unused 0 := by
    have hplaced : (w.placed noFaults 0 [2]).Unused 0 := by
      have htaken : (w.setFileHandler 0 (w.fileHandler 0).takeSlot.2).Unused 0 := by
        refine ⟨newFile 128, ?_, dataSectionPos_le_newFile 128, ?_⟩
        · rw [← hfile, World.file, World.file, World.fileHandler_setFileHandler,
            Function.update_self, fd_takeSlot]
          rfl
        · exact word_newFile_slot (by decide) (i := 0) (by decide)
      refine (htaken.pwrite (Or.inl ?_)).pwrite (Or.inr ?_)
      · simp [BlockFile.headerImage, slotsSectionPos]
      · exact htake.ge
    obtain ⟨file, hf, hrest⟩ := hplaced
    refine ⟨file, ?_, hrest⟩
    rw [← hf]
    simp [World.file]
  -- the crash
  obtain ⟨q, hq, haction, hworld⟩ := exists_freeing hs₂.usable [1] hk (by
    rw [show (w.appendedValue 0 [2]).blockId = 0 from rfl, hcnt]
    decide)
  have hcrash := CrashPoint.during hhist (.delete [1]) hq haction trivial
  rw [hoff, show (w.appendedValue 0 [2]).blockId = 0 from rfl, hcnt] at hcrash
  -- opening again
  have hwhole : HeadersWhole q.world.disk := by
    rw [hworld]
    exact (hs₂.usable_freeing hk).whole
  obtain ⟨w₃, hopen₃, -, hcfg₃, -, -, -, hfiles, -⟩ := openStorage_spec 1024
    (w := { World.empty with disk := q.world.disk, index := q.world.index }) rfl hwhole (by decide)
  obtain ⟨hloaded₁, hloaded₂⟩ := loadedEntry_freeing hs₂ hk hcnt hunused
  have hentry₃ : w₃.fileHandler 0 = loadedEntry ((w.appended noFaults 0 (fixedKey [1]) [2]).freeing
      (w.appendedValue 0 [2]) (fixedKey [1])).disk
        ((w.appended noFaults 0 (fixedKey [1]) [2]).blockSizeArray 0) := by
    rw [(hfiles 0 (by decide)).1, ← hworld, World.blockSizeArray_appended, hsize]
    rfl
  rw [show (w.appendedValue 0 [2]).blockId = 0 from rfl, ← hentry₃] at hloaded₁ hloaded₂
  refine ⟨w, _, w₃, q, hopen, hupdate, hq, hcrash, hopen₃, hloaded₁, hloaded₂, fun hsound => ?_⟩
  have hb₃ : 0 < w₃.blockTypeCount := by
    rw [show w₃.blockTypeCount = (tableOf 1024).blockTypeCount from
      congrArg Config.blockTypeCount hcfg₃]
    decide
  have hbehind := hsound.behindHeader 0 hb₃ 0 (by omega)
  rw [hloaded₂] at hbehind
  exact absurd hbehind (by decide)

end Linglongta
