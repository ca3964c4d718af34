import Linglongta.Storage.Outcomes
import Linglongta.Storage.Sessions
import Linglongta.Rwlock

/-!
# Locks are balanced

After a call the locks that the thread holds should be those it held before.  `find_block` takes the
index lock and the lock of a block file and releases them in the order in which it took them; it has
an exit, for the case that there is no memory for the record, that releases nothing.
`locks_balanced_iff` says that this is the only one, whatever the requests of a call are answered.
-/

namespace Linglongta

open Prog

/-- The counters of a lock of which the thread is the only user. -/
def rwlockOf (h : Held store) (l : StoreLock) : Rwlock where
  tobeWriteQueueLen := 0
  writeQueueLen := h.count (l, .ex)
  readQueueLen := h.count (l, .sh)

/-- If the call returns, the counters of every lock are as before. -/
def Balanced {W : Type} (H : Handler store W) (c : Call) (h : Held store) (w : W) : Prop :=
  ∀ r h' w', exec H c.prog h w = .returned r h' w' → ∀ l, rwlockOf h' l = rwlockOf h l

/-- A record is found, but there is no memory for it. -/
def Starved {W : Type} (H : Handler store W) (key : List UInt8) (w : W) : Prop :=
  ∃ iv, (H w (.findRecord (fixedKey key))).1 = .ok iv ∧
    (H (H w (.findRecord (fixedKey key))).2 (.slabAlloc iv.dataSize)).1 = false

/-! ## The parts of a call -/

section Parts

variable {h : Held store}

/-- The part returns with the locks with which it started. -/
abbrev KeepsLocks {α : Type} (p : Prog store α) (h : Held store) : Prop :=
  Returns (fun _ h' => h' = h) p h

/-- A part that keeps the locks may be followed by anything. -/
lemma KeepsLocks.bind {α β : Type} {Q : β → Held store → Prop} {p : Prog store α}
    {f : α → Prog store β} (hp : KeepsLocks p h) (hf : ∀ a, Returns Q (f a) h) :
    Returns Q (p >>= f) h := by
  rw [returns_bind (I := store)]
  refine hp.mono ?_
  rintro a h' rfl
  exact hf a

lemma keepsLocks_syncDataFile (kind : WriteKind) (b : ℕ) (data : List UInt8) (off : ℕ) :
    KeepsLocks (syncDataFile kind b data off) h := by
  simp [KeepsLocks, syncDataFile]

lemma keepsLocks_syncDataFileHeader (b : ℕ) : KeepsLocks (syncDataFileHeader b) h := by
  simp only [KeepsLocks, syncDataFileHeader, readFileHandler_bind, returns_call]
  intro fh
  apply (keepsLocks_syncDataFile _ _ _ _).bind
  simp

/-- `append_block` releases the lock of the block file before it writes the index. -/
lemma keepsLocks_appendBlock (b : ℕ) (k : Key) (data : List UInt8) :
    KeepsLocks (appendBlock b k data) h := by
  simp only [KeepsLocks, appendBlock, readConfig_bind, readFileHandler_bind, setFileHandler_bind,
    acquire_bind, returns_call, returns_ite, returns_assert_bind, returns_lock]
  refine fun cfg => ⟨fun _ => rfl, fun _ fh _ _ fh' _ => ?_⟩
  apply (keepsLocks_syncDataFileHeader b).bind
  intro _
  apply (keepsLocks_syncDataFile _ _ _ _).bind
  simp

/-- `modify_block` releases the lock of the block file before it writes the index. -/
lemma keepsLocks_modifyBlock (iv : IndexValue) (k : Key) (data : List UInt8) :
    KeepsLocks (modifyBlock iv k data) h := by
  simp only [KeepsLocks, modifyBlock, readConfig_bind, readFileHandler_bind, acquire_bind,
    returns_call, returns_ite, returns_assert_bind, returns_lock]
  refine fun cfg => ⟨fun _ => rfl, fun _ fh _ _ => ?_⟩
  apply (keepsLocks_syncDataFile _ _ _ _).bind
  simp

/-- `do_delete_block` releases the lock of the block file on both branches. -/
lemma keepsLocks_doDeleteBlock (iv : IndexValue) (k : Key) :
    KeepsLocks (doDeleteBlock iv k) h := by
  simp only [KeepsLocks, doDeleteBlock, logAppend_bind, delRecord_bind, readFileHandler_bind,
    setFileHandler_bind, acquire_bind, release_bind, returns_call, returns_ite, returns_lock,
    returns_unlock, List.erase_cons_head]
  refine fun _ ret => ⟨fun _ => rfl, fun _ fh => ⟨fun _ => rfl, fun _ _ => ?_⟩⟩
  apply (keepsLocks_syncDataFileHeader _).bind
  intro _ fh'
  apply (keepsLocks_syncDataFile _ _ _ _).bind
  simp

lemma keepsLocks_updateLocked (k : Key) (data : List UInt8) :
    KeepsLocks (updateLocked k data) h := by
  simp only [KeepsLocks, updateLocked, findRecord_bind, readConfig_bind, returns_call]
  intro found cfg
  cases found with
  | ok iv =>
    simp only [returns_ite]
    constructor
    · intro _
      apply (keepsLocks_modifyBlock _ _ _).bind
      simp
    · intro _
      apply (keepsLocks_doDeleteBlock _ _).bind
      intro retno
      simp only [returns_ite]
      refine ⟨fun _ => rfl, fun _ => ?_⟩
      apply (keepsLocks_appendBlock _ _ _).bind
      simp
  | error e =>
    simp only [returns_ite]
    refine ⟨fun _ => ⟨fun _ => rfl, fun _ => ?_⟩, fun _ => rfl⟩
    apply (keepsLocks_appendBlock _ _ _).bind
    simp

lemma keepsLocks_deleteLocked (k : Key) : KeepsLocks (deleteLocked k) h := by
  simp only [KeepsLocks, deleteLocked, findRecord_bind, returns_call]
  intro found
  cases found with
  | ok iv =>
    apply (keepsLocks_doDeleteBlock _ _).bind
    simp
  | error e => rfl

/-- `update_block` releases the index lock on every path. -/
lemma keepsLocks_updateBlock (key data : List UInt8) : KeepsLocks (updateBlock key data) h := by
  simp only [KeepsLocks, updateBlock, acquire_bind, returns_lock]
  apply (keepsLocks_updateLocked _ _).bind
  simp

/-- `delete_block` releases the index lock on every path. -/
lemma keepsLocks_deleteBlock (key : List UInt8) : KeepsLocks (deleteBlock key) h := by
  simp only [KeepsLocks, deleteBlock, acquire_bind, returns_lock]
  apply (keepsLocks_deleteLocked _).bind
  simp

end Parts

/-! ## Calls -/

section Calls

variable {W : Type} {H : Handler store W} {h : Held store} {w : W}

/-- `find_block` without memory keeps the index lock. -/
lemma exec_findBlock_starved {key : List UInt8} (hadm : Admits h StoreLock.index .sh)
    (hs : Starved H key w) :
    ∃ r w', exec H (findBlock key) h w = .returned r ((StoreLock.index, .sh) :: h) w' := by
  obtain ⟨iv, hfind, hmem⟩ := hs
  refine ⟨{ ret := -1, valueLen := iv.dataSize },
    (H (H w (.findRecord (fixedKey key))).2 (.slabAlloc iv.dataSize)).2, ?_⟩
  simp only [findBlock, acquire_bind, findRecord_bind, exec_lock, hadm, if_true]
  rw [exec_call (I := store), hfind]
  simp only [slabAlloc_bind]
  rw [exec_call (I := store), hmem]
  rfl

/-- `find_block` with memory, or without a record, returns with the locks it started with. -/
lemma findBlock_held {key : List UInt8} (hs : ¬Starved H key w) {r : Reply} {h' : Held store}
    {w' : W} (hexec : exec H (findBlock key) h w = .returned r h' w') : h' = h := by
  simp only [findBlock, acquire_bind, findRecord_bind, exec_lock] at hexec
  split at hexec
  · rw [exec_call (I := store)] at hexec
    cases hfind : (H w (.findRecord (fixedKey key))).1 with
    | error e =>
      rw [hfind] at hexec
      have hkeep : Returns (I := store) (fun _ h' => h' = h)
          (release (I := store) .index .sh >>= fun _ => pure { ret := e } : Prog store Reply)
          ((StoreLock.index, .sh) :: h) := by simp
      exact hkeep.returned hexec
    | ok iv =>
      rw [hfind] at hexec
      simp only [slabAlloc_bind] at hexec
      rw [exec_call (I := store)] at hexec
      have hmem : (H (H w (.findRecord (fixedKey key))).2 (.slabAlloc iv.dataSize)).1 ≠ false :=
        fun hmem => hs ⟨iv, hfind, hmem⟩
      rw [if_neg hmem] at hexec
      refine Returns.returned (I := store) (Q := fun _ h' => h' = h) ?_ hexec
      simp
  · simp at hexec

/-- The leaked lock shows in the counter of the readers. -/
lemma rwlockOf_cons_ne : rwlockOf ((StoreLock.index, .sh) :: h) .index ≠ rwlockOf h .index := by
  intro heq
  have hread := congrArg Rwlock.readQueueLen heq
  simp [rwlockOf] at hread

end Calls

/-- Locks are balanced.  Whatever the requests of a call are answered, if it returns then the
counters of the index lock and of the locks of all block files are what they were, unless it is a
`find_block` that gets the index lock and finds a record but no memory for it. -/
theorem locks_balanced_iff {W : Type} (H : Handler store W) (c : Call) (h : Held store) (w : W) :
    Balanced H c h w ↔
      ¬∃ key, c = .find key ∧ Admits h StoreLock.index .sh ∧ Starved H key w := by
  constructor
  · rintro hb ⟨key, rfl, hadm, hs⟩
    obtain ⟨r, w', hexec⟩ := exec_findBlock_starved hadm hs
    exact rwlockOf_cons_ne (hb r _ w' hexec .index)
  · intro hno r h' w' hexec l
    have hsame : h' = h := by
      cases c with
      | update key data => exact (keepsLocks_updateBlock key data).returned hexec
      | delete key => exact (keepsLocks_deleteBlock key).returned hexec
      | find key =>
        by_cases hadm : Admits h StoreLock.index .sh
        · exact findBlock_held (fun hs => hno ⟨key, rfl, hadm, hs⟩) hexec
        · simp [Call.prog, findBlock, hadm] at hexec
    rw [hsame]

/-- A record is stored in a new store and searched for without memory.  The index lock stays locked,
and the next `update_block` waits forever. -/
theorem find_block_leaks_index_lock :
    ∃ w₁ w₂, openStorage {} 1024 World.empty = ⟨0, some ⟨true, true, true⟩, w₁⟩ ∧
      exec (handle noFaults) (Call.update [1] [2]).prog [] w₁ = .returned { ret := 0 } [] w₂ ∧
      exec (handle { slabAlloc := false }) (Call.find [1]).prog [] w₂ =
        .returned { ret := -1, valueLen := 1 } [(StoreLock.index, .sh)] w₂ ∧
      ¬Balanced (handle { slabAlloc := false }) (.find [1]) [] w₂ ∧
      exec (handle noFaults) (Call.update [1] [3]).prog [(StoreLock.index, .sh)] w₂ =
        .blocked w₂ := by
  obtain ⟨w, hopen, hl, hcfg, hindex, -⟩ := exists_small_store
  have hupdate := small_update hl hcfg hindex [1]
  have hk : (w.appended noFaults 0 (fixedKey [1]) [2]).index (fixedKey [1]) =
      some (w.appendedValue 0 [2]) := by
    simp [noFaults]
  have hfind : exec (handle { slabAlloc := false }) (Call.find [1]).prog []
      (w.appended noFaults 0 (fixedKey [1]) [2]) =
        .returned { ret := -1, valueLen := 1 } [(StoreLock.index, .sh)]
          (w.appended noFaults 0 (fixedKey [1]) [2]) := by
    simp [Call.prog, findBlock, Admits, findRecord_of_some hk, World.appendedValue]
  refine ⟨w, _, hopen, hupdate, hfind, fun hb => ?_, ?_⟩
  · exact rwlockOf_cons_ne (hb _ _ _ hfind .index)
  · exact (call_blocked (c := .update [1] [3]) rfl (by simp [Admits])).1

end Linglongta
