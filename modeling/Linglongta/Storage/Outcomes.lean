import Linglongta.Storage.Execution

/-!
# What the operations of the store come to

`update_block` is assembled over four nested paths.  `World.updateEnding` writes down, as a function
of the world and of the answers of the system, how it ends: which code it returns in which world, or
that an assertion stops it.  `exec_updateBlock`, `exec_deleteBlock` and `exec_findBlock` say that
the programs do just this, in every world whose table of block files is open and whose index entries
name block files of the table.
-/

namespace Linglongta

open Prog

/-! ## Size classes -/

/-- The block file that `update_block` chooses for data of a size, `-1` if there is none. -/
def Config.sizeClass (cfg : Config) (dataSize : ℕ) : Int :=
  findBlockFile cfg (toSizeT (calcBlockSize dataSize))

/-- The chosen block file is one of the table, if there is one. -/
lemma findBlockFile_cases (cfg : Config) (blockSize : ℕ) :
    findBlockFile cfg blockSize = -1 ∨
      ∃ i, i < cfg.blockTypeCount ∧ findBlockFile cfg blockSize = (i : Int) ∧
        blockSize = cfg.blockSizeArray i := by
  unfold findBlockFile
  cases h : (List.range cfg.blockTypeCount).find? fun i => blockSize = cfg.blockSizeArray i with
  | none => exact Or.inl rfl
  | some i =>
    have hmem := List.mem_of_find?_eq_some h
    have hprop := List.find?_some h
    exact Or.inr ⟨i, List.mem_range.1 hmem, rfl, by simpa using hprop⟩

lemma toSizeT_neg_one : toSizeT (-1) = 2 ^ 64 - 1 := by decide

/-! ## Outcomes -/

/-- How a part of a call ends. -/
structure Ending where
  /-- The code it returns, none if an assertion stops it. -/
  ret : Option Int
  /-- The world it leaves. -/
  world : World

/-- The same as the outcome of a run that holds the locks `h` at both ends. -/
def Ending.outcome {α : Type} (e : Ending) (mk : Int → α) (h : Held store) :
    Outcome store α World :=
  match e.ret with
  | some r => .returned (mk r) h e.world
  | none => .aborted e.world

namespace World

variable (f : Faults) (w : World) (k : Key) (data : List UInt8)

/-- How the choice of a block file and the `append_block` for it end; `fail` is the code for data
that no block file can hold. -/
def insertEnding (fail : Int) : Ending :=
  if w.config.sizeClass data.length < 0 then ⟨some fail, w⟩
  else if data.length ≤ w.blockSizeArray (w.config.sizeClass data.length).toNat then
    ⟨some 0, w.appended f (w.config.sizeClass data.length).toNat k data⟩
  else ⟨none, w⟩

/-- How the `modify_block` of `update_block` ends. -/
def modifyEnding (iv : IndexValue) : Ending :=
  if (w.pwrite (f.pwrite .record iv.blockId) iv.blockId iv.offset data).1 = some data.length then
    ⟨some (if f.insertRecord ≠ 0 then -1 else 0), w.modified f iv k data⟩
  else ⟨none, w.syncRecord f iv.blockId data iv.offset⟩

/-- How `update_block` ends. -/
def updateEnding : Ending :=
  if f.findRecord.isSome then ⟨some (-1), w⟩
  else match w.index k with
    | some iv =>
      if data.length ≤ w.blockSizeArray iv.blockId then w.modifyEnding f k data iv
      else if f.delRecord ≠ 0 then ⟨some (-2), w.deleted f iv k⟩
      else (w.deleted f iv k).insertEnding f k data (-3)
    | none => w.insertEnding f k data 0

/-- How `delete_block` ends. -/
def deleteEnding : Ending :=
  if f.findRecord.isSome then ⟨some (-1), w⟩
  else match w.index k with
    | some iv => ⟨some (if f.delRecord ≠ 0 then -1 else 0), w.deleted f iv k⟩
    | none => ⟨some dbNotfound, w⟩

/-- What `find_block` answers when memory is left. -/
def findReply : Reply :=
  match f.findRecord with
  | some e => { ret := e.1 }
  | none =>
    match w.index k with
    | some iv =>
      let nread := w.pread f.pread iv.blockId iv.offset iv.dataSize
      { ret := if nread.map List.length = some iv.dataSize then 0 else -1
        valuePtr := some (nread.getD [])
        valueLen := iv.dataSize }
    | none => { ret := dbNotfound }

end World

/-- The table of block files is open, and the index refers to it. -/
structure Ready (w : World) : Prop where
  /-- The table is not longer than its array. -/
  types : w.blockTypeCount ≤ maxBlockCnt
  /-- Every file of the table is open. -/
  opened : ∀ b < w.blockTypeCount, (w.fileHandler b).fdPositive = true
  /-- Every index entry names a file of the table. -/
  indexed : ∀ k iv, w.index k = some iv → iv.blockId < w.blockTypeCount

/-- No lock of a block file is held. -/
def FileFree (h : Held store) : Prop :=
  ∀ b m, (StoreLock.file b, m) ∉ h

lemma FileFree.admits {h : Held store} (hf : FileFree h) (b : ℕ) (m : LockMode) :
    Admits h (StoreLock.file b) m := by
  cases m with
  | sh => exact hf b _
  | ex => exact ⟨hf b _, hf b _⟩

lemma FileFree.cons {h : Held store} (hf : FileFree h) (m : LockMode) :
    FileFree ((StoreLock.index, m) :: h) := by
  intro b m' hmem
  rcases List.mem_cons.1 hmem with heq | hmem
  · simp at heq
  · exact hf b m' hmem

section Outcomes

variable {f : Faults} {w : World} {h : Held store}

/-- The table entry keeps its descriptor when a slot is taken. -/
@[simp] lemma fd_takeSlot (fh : BlockFile) : fh.takeSlot.2.fd = fh.fd := by
  unfold BlockFile.takeSlot
  split <;> rfl

/-- Deleting an entry keeps the store ready. -/
lemma Ready.deleted (hr : Ready w) (f : Faults) (iv : IndexValue) (k : Key) :
    Ready (w.deleted f iv k) := by
  have hfd : ∀ b, ((w.deleted f iv k).fileHandler b).fd = (w.fileHandler b).fd := by
    intro b
    unfold World.deleted
    split
    · simp
    · simp only [World.fileHandler_freed, World.fileHandler_unindexed]
      split
      · rfl
      · by_cases hb : b = iv.blockId
        · subst hb
          simp [BlockFile.putSlot]
        · simp [Function.update_of_ne hb]
  refine ⟨by simpa using hr.types, ?_, ?_⟩
  · intro b hb
    have := hr.opened b (by simpa using hb)
    unfold BlockFile.fdPositive at this ⊢
    rwa [hfd b]
  · intro k' iv' hk'
    rw [World.index_deleted] at hk'
    rw [World.blockTypeCount_deleted]
    split at hk'
    · by_cases hk : k' = k
      · simp [hk] at hk'
      · exact hr.indexed k' iv' (by simpa [Function.update_of_ne hk] using hk')
    · exact hr.indexed k' iv' hk'

/-- The choice of a block file and the `append_block` for it. -/
lemma exec_insert (hr : Ready w) (hf : FileFree h) (k : Key) (data : List UInt8) (cls : Int)
    (hcls : cls = w.config.sizeClass data.length) (fail : Int) :
    (exec (handle f) (appendBlock (toSizeT cls) k data) h w).andThen
        (fun r h' w' => .returned (if r ≠ 0 then fail else 0) h' w') =
      (w.insertEnding f k data fail).outcome id h := by
  subst hcls
  have htypes : w.blockTypeCount ≤ 20 := hr.types
  rcases findBlockFile_cases w.config (toSizeT (calcBlockSize data.length)) with hc | ⟨i, hi, hc, -⟩
  · have hc' : w.config.sizeClass data.length = -1 := hc
    rw [hc', toSizeT_neg_one, exec_appendBlock_invalid k data (by omega)]
    simp [World.insertEnding, Ending.outcome, hc', Outcome.andThen]
  · have hc' : w.config.sizeClass data.length = (i : Int) := hc
    have hi' : i < w.blockTypeCount := hi
    have hnonneg : ¬((i : Int) < 0) := by omega
    rw [hc', toSizeT_natCast (by omega)]
    by_cases hl : data.length ≤ w.blockSizeArray i
    · rw [exec_appendBlock k hi' (hr.opened i hi') hl (hf.admits i .ex)]
      simp [World.insertEnding, Ending.outcome, hc', hnonneg, hl, Outcome.andThen]
    · rw [exec_appendBlock_abort k data hi' (fun hand => hl hand.2)]
      simp [World.insertEnding, Ending.outcome, hc', hnonneg, hl, Outcome.andThen]

/-- `update_block` under the index lock. -/
lemma exec_updateLocked (hr : Ready w) (hf : FileFree h) (k : Key) (data : List UInt8) :
    exec (handle f) (updateLocked k data) h w = (w.updateEnding f k data).outcome id h := by
  unfold World.updateEnding
  cases hfault : f.findRecord with
  | some e => simp [updateLocked, hfault, findRecord_of_fault, e.2.2, Ending.outcome]
  | none =>
    cases hk : w.index k with
    | some iv =>
      have hb := hr.indexed k iv hk
      by_cases hl : data.length ≤ w.blockSizeArray iv.blockId
      · by_cases hw : (w.pwrite (f.pwrite .record iv.blockId) iv.blockId iv.offset data).1 =
            some data.length
        · have hmod := exec_modifyBlock (f := f) k hb (hr.opened _ hb) hl (hf.admits _ .ex) hw
          by_cases hins : f.insertRecord = 0 <;>
            simp [updateLocked, hfault, findRecord_of_some hk, exec_bind, hmod, hl, hw, hins,
              Outcome.andThen, Ending.outcome, World.modifyEnding]
        · have hmod := exec_modifyBlock_abort (f := f) k hb (hr.opened _ hb) hl (hf.admits _ .ex) hw
          simp [updateLocked, hfault, findRecord_of_some hk, exec_bind, hmod, hl, hw,
            Outcome.andThen, Ending.outcome, World.modifyEnding]
      · have hdel := exec_doDeleteBlock (f := f) k hb (hf.admits _ .ex)
        by_cases hret : f.delRecord = 0
        · have hins := exec_insert (f := f) (hr.deleted f iv k) hf k data
            (w.config.sizeClass data.length) (by simp [World.config]) (-3)
          simp only [hl, hret, ne_eq, not_true_eq_false, if_false, Option.isSome_none,
            Bool.false_eq_true]
          rw [← hins]
          simp [updateLocked, hfault, findRecord_of_some hk, exec_bind, hdel, hl, hret,
            Outcome.andThen, Config.sizeClass]
        · simp [updateLocked, hfault, findRecord_of_some hk, exec_bind, hdel, hl, hret,
            Outcome.andThen, Ending.outcome]
    | none =>
      by_cases hcls : w.config.sizeClass data.length < 0
      · have hcls' : findBlockFile w.config (toSizeT (calcBlockSize data.length)) < 0 := hcls
        simp [updateLocked, hfault, findRecord_of_none hk, hcls', World.insertEnding, hcls,
          Ending.outcome]
      · have hins := exec_insert (f := f) hr hf k data (w.config.sizeClass data.length) rfl (-4)
        have hcls' : ¬findBlockFile w.config (toSizeT (calcBlockSize data.length)) < 0 := hcls
        have heq : w.insertEnding f k data 0 = w.insertEnding f k data (-4) := by
          simp [World.insertEnding, hcls]
        simp only [heq, Option.isSome_none, Bool.false_eq_true, if_false]
        rw [← hins]
        simp [updateLocked, hfault, findRecord_of_none hk, exec_bind, hcls', Config.sizeClass]

/-- `update_block` when the index lock can be taken. -/
lemma exec_updateBlock (hr : Ready w) (hf : FileFree h) (key data : List UInt8)
    (hadm : Admits h StoreLock.index .ex) :
    exec (handle f) (updateBlock key data) h w =
      (w.updateEnding f (fixedKey key) data).outcome (fun r => { ret := r }) h := by
  simp only [updateBlock, acquire_bind, exec_lock, if_pos hadm, exec_bind,
    exec_updateLocked hr (hf.cons .ex)]
  unfold Ending.outcome
  cases (w.updateEnding f (fixedKey key) data).ret with
  | none => rfl
  | some r => simp [Outcome.andThen]

/-- `delete_block` when the index lock can be taken. -/
lemma exec_deleteBlock (hr : Ready w) (hf : FileFree h) (key : List UInt8)
    (hadm : Admits h StoreLock.index .ex) :
    exec (handle f) (deleteBlock key) h w =
      (w.deleteEnding f (fixedKey key)).outcome (fun r => { ret := r }) h := by
  unfold World.deleteEnding
  cases hfault : f.findRecord with
  | some e =>
    simp [deleteBlock, deleteLocked, hadm, hfault, findRecord_of_fault, e.2.2, Ending.outcome]
  | none =>
    cases hk : w.index (fixedKey key) with
    | some iv =>
      have hdel := exec_doDeleteBlock (f := f) (fixedKey key) (hr.indexed _ iv hk)
        ((hf.cons .ex).admits _ .ex)
      by_cases hret : f.delRecord = 0 <;>
        simp [deleteBlock, deleteLocked, hadm, hfault, findRecord_of_some hk, exec_bind, hdel,
          hret, Outcome.andThen, Ending.outcome]
    | none =>
      simp [deleteBlock, deleteLocked, hadm, hfault, findRecord_of_none hk, Ending.outcome]

/-- `find_block` when the index lock can be taken and memory is left. -/
lemma exec_findBlock (hf : FileFree h) (key : List UInt8) (hadm : Admits h StoreLock.index .sh)
    (hmem : f.slabAlloc = true) :
    exec (handle f) (findBlock key) h w = .returned (w.findReply f (fixedKey key)) h w := by
  unfold World.findReply
  cases hfault : f.findRecord with
  | some e => simp [findBlock, hadm, hfault, findRecord_of_fault]
  | none =>
    cases hk : w.index (fixedKey key) with
    | some iv =>
      have hfile := (hf.cons .sh).admits iv.blockId .sh
      have herase : ((StoreLock.file iv.blockId, LockMode.sh) :: (StoreLock.index, LockMode.sh) ::
          h).erase (StoreLock.index, LockMode.sh) = (StoreLock.file iv.blockId, LockMode.sh) :: h := by
        rw [List.erase_cons_tail (by simp), List.erase_cons_head]
      simp [findBlock, hadm, hfault, findRecord_of_some hk, hmem, hfile, herase]
    | none => simp [findBlock, hadm, hfault, findRecord_of_none hk]

end Outcomes

/-! ## Calls -/

/-- No lock is held but the index lock, and that in shared mode. -/
def OnlyLeaked (h : Held store) : Prop :=
  ∀ x ∈ h, x = (StoreLock.index, LockMode.sh)

lemma OnlyLeaked.fileFree {h : Held store} (hh : OnlyLeaked h) : FileFree h := by
  intro b m hmem
  simpa using hh _ hmem

lemma OnlyLeaked.admits_sh {h : Held store} (hh : OnlyLeaked h) :
    Admits h StoreLock.index .sh := by
  intro hmem
  simpa using hh _ hmem

section Calls

variable {f : Faults} {w : World} {h : Held store}

/-- `find_block` changes nothing but, without memory, the locks. -/
lemma exec_findBlock_cases (hh : OnlyLeaked h) (key : List UInt8) :
    ∃ r h', exec (handle f) (findBlock key) h w = .returned r h' w ∧ OnlyLeaked h' := by
  cases hmem : f.slabAlloc with
  | true => exact ⟨_, h, exec_findBlock hh.fileFree key hh.admits_sh hmem, hh⟩
  | false =>
    cases hfind : w.findRecord f.findRecord (fixedKey key) with
    | error e => exact ⟨{ ret := e }, h, by simp [findBlock, hh.admits_sh, hfind], hh⟩
    | ok iv =>
      refine ⟨{ ret := -1, valueLen := iv.dataSize }, (StoreLock.index, .sh) :: h, ?_, ?_⟩
      · simp [findBlock, hh.admits_sh, hfind, hmem]
      · intro x hx
        rcases List.mem_cons.1 hx with rfl | hx
        · rfl
        · exact hh x hx

/-- A part of a call that ends with the locks it started with. -/
lemma Ending.outcome_spec {α : Type} (e : Ending) (mk : Int → α) (h : Held store) :
    (e.outcome mk h).world = e.world ∧ ∀ h', (e.outcome mk h).held? = some h' → h' = h := by
  unfold Ending.outcome
  cases e.ret with
  | none => exact ⟨rfl, by simp [Outcome.held?]⟩
  | some r => exact ⟨rfl, by simp [Outcome.held?, eq_comm]⟩

/-- A call that changes the store waits forever if a leaked index lock is in its way. -/
lemma call_blocked {c : Call} {p : Prog store Reply} (hprog : c.prog = lock (I := store) .index .ex p)
    (hadm : ¬Admits h StoreLock.index .ex) :
    exec (handle f) c.prog h w = .blocked w ∧ requests (handle f) c.prog h w = [] := by
  rw [hprog]
  simp [hadm]

/-- Which locks a call leaves. -/
lemma call_held (hr : Ready w) (hh : OnlyLeaked h) (f : Faults) (c : Call) {h' : Held store}
    (hheld : (exec (handle f) c.prog h w).held? = some h') : OnlyLeaked h' := by
  cases c with
  | find key =>
    obtain ⟨r, h₁, hexec, hh₁⟩ := exec_findBlock_cases (f := f) (w := w) hh key
    rw [Call.prog, hexec] at hheld
    obtain rfl : h₁ = h' := by simpa [Outcome.held?] using hheld
    exact hh₁
  | update key data =>
    by_cases hadm : Admits h StoreLock.index .ex
    · rw [Call.prog, exec_updateBlock hr hh.fileFree key data hadm] at hheld
      exact (Ending.outcome_spec _ _ _).2 h' hheld ▸ hh
    · rw [(call_blocked (f := f) (w := w) (c := .update key data) rfl hadm).1] at hheld
      simp [Outcome.held?] at hheld
  | delete key =>
    by_cases hadm : Admits h StoreLock.index .ex
    · rw [Call.prog, exec_deleteBlock hr hh.fileFree key hadm] at hheld
      exact (Ending.outcome_spec _ _ _).2 h' hheld ▸ hh
    · rw [(call_blocked (f := f) (w := w) (c := .delete key) rfl hadm).1] at hheld
      simp [Outcome.held?] at hheld

/-- The world that a call leaves. -/
lemma call_world_cases (hr : Ready w) (hh : OnlyLeaked h) (f : Faults) (c : Call) :
    (exec (handle f) c.prog h w).world = w ∨
    (∃ key data, c = .update key data ∧
      (exec (handle f) c.prog h w).world = (w.updateEnding f (fixedKey key) data).world) ∨
    (∃ key, c = .delete key ∧
      (exec (handle f) c.prog h w).world = (w.deleteEnding f (fixedKey key)).world) := by
  cases c with
  | find key =>
    obtain ⟨r, h', hexec, -⟩ := exec_findBlock_cases (f := f) (w := w) hh key
    rw [Call.prog, hexec]
    exact Or.inl rfl
  | update key data =>
    by_cases hadm : Admits h StoreLock.index .ex
    · rw [Call.prog, exec_updateBlock hr hh.fileFree key data hadm, (Ending.outcome_spec _ _ _).1]
      exact Or.inr (Or.inl ⟨key, data, rfl, rfl⟩)
    · rw [(call_blocked (f := f) (w := w) (c := .update key data) rfl hadm).1]
      exact Or.inl rfl
  | delete key =>
    by_cases hadm : Admits h StoreLock.index .ex
    · rw [Call.prog, exec_deleteBlock hr hh.fileFree key hadm, (Ending.outcome_spec _ _ _).1]
      exact Or.inr (Or.inr ⟨key, rfl, rfl⟩)
    · rw [(call_blocked (f := f) (w := w) (c := .delete key) rfl hadm).1]
      exact Or.inl rfl

end Calls

/-- The block file chosen for a size is one of the table. -/
lemma World.sizeClass_lt (w : World) {n : ℕ} (h : ¬w.config.sizeClass n < 0) :
    (w.config.sizeClass n).toNat < w.blockTypeCount := by
  rcases findBlockFile_cases w.config (toSizeT (calcBlockSize n)) with hc | ⟨i, hi, hc, -⟩
  · exact absurd (show w.config.sizeClass n < 0 by rw [Config.sizeClass, hc]; decide) h
  · have hc' : w.config.sizeClass n = (i : Int) := hc
    rw [hc', Int.toNat_natCast]
    exact hi

/-- A property of open stores that the parts of the operations keep, whatever the answers `f` of the
system are.  Every call then keeps it. -/
structure Kept (f : Faults) (P : World → Prop) : Prop where
  /-- The property is one of open stores. -/
  ready : ∀ {w}, P w → Ready w
  /-- `append_block` keeps it. -/
  appended : ∀ {w b data} (k : Key), P w → b < w.blockTypeCount →
    data.length ≤ w.blockSizeArray b → P (w.appended f b k data)
  /-- `modify_block` keeps it. -/
  modified : ∀ {w k iv data}, P w → w.index k = some iv →
    data.length ≤ w.blockSizeArray iv.blockId → P (w.modified f iv k data)
  /-- A `modify_block` that stops at its assertion keeps it. -/
  stopped : ∀ {w k iv data}, P w → w.index k = some iv →
    data.length ≤ w.blockSizeArray iv.blockId → P (w.syncRecord f iv.blockId data iv.offset)
  /-- `do_delete_block` keeps it. -/
  deleted : ∀ {w k iv}, P w → w.index k = some iv → P (w.deleted f iv k)

namespace Kept

variable {f : Faults} {P : World → Prop} {w : World}

lemma insertEnding (hP : Kept f P) (hw : P w) (k : Key) (data : List UInt8) (fail : Int) :
    P (w.insertEnding f k data fail).world := by
  unfold World.insertEnding
  split
  · exact hw
  · rename_i hcls
    split
    · rename_i hl
      exact hP.appended k hw (w.sizeClass_lt hcls) hl
    · exact hw

/-- `update_block` keeps the property. -/
lemma updateEnding (hP : Kept f P) (hw : P w) (k : Key) (data : List UInt8) :
    P (w.updateEnding f k data).world := by
  unfold World.updateEnding
  split
  · exact hw
  · cases hk : w.index k with
    | some iv =>
      simp only
      split
      · rename_i hl
        unfold World.modifyEnding
        split
        · exact hP.modified hw hk hl
        · exact hP.stopped hw hk hl
      · split
        · exact hP.deleted hw hk
        · exact hP.insertEnding (hP.deleted hw hk) k data _
    | none => exact hP.insertEnding hw k data _

/-- `delete_block` keeps the property. -/
lemma deleteEnding (hP : Kept f P) (hw : P w) (k : Key) : P (w.deleteEnding f k).world := by
  unfold World.deleteEnding
  split
  · exact hw
  · cases hk : w.index k with
    | some iv => exact hP.deleted hw hk
    | none => exact hw

/-- The table of block sizes is kept too. -/
lemma config (hP : Kept f P) (cfg : Config) : Kept f fun w => P w ∧ w.config = cfg where
  ready := fun hw => hP.ready hw.1
  appended := fun k hw hb hl => ⟨hP.appended k hw.1 hb hl, by simpa using hw.2⟩
  modified := fun hw hk hl => ⟨hP.modified hw.1 hk hl, by simpa using hw.2⟩
  stopped := fun hw hk hl => ⟨hP.stopped hw.1 hk hl, by simpa using hw.2⟩
  deleted := fun hw hk => ⟨hP.deleted hw.1 hk, by simpa using hw.2⟩

/-- Every call keeps the property. -/
lemma call (hP : Kept f P) (hw : P w) {h : Held store} (hh : OnlyLeaked h) (c : Call) :
    P (exec (handle f) c.prog h w).world := by
  rcases call_world_cases (hP.ready hw) hh f c with hsame | ⟨key, data, -, hupd⟩ | ⟨key, -, hdel⟩
  · rwa [hsame]
  · rw [hupd]
    exact hP.updateEnding hw _ _
  · rw [hdel]
    exact hP.deleteEnding hw _

end Kept

end Linglongta
