import Linglongta.Foundations.Concurrency
import Linglongta.Storage.Records

/-!
# The locking discipline of the store

`update_block` and `delete_block` change the store only while they hold the index lock exclusively,
and they write records only while they also hold the lock of the block file exclusively.  After
`do_delete_block` has released that lock it still writes the header and the list of free slots,
which lie in front of all records.

`StoreReq.Guarded` states this for a request, and `Disciplined` for every action.  The programs keep
to it whatever the answers to their requests are, apart from what never changes while the store is
open: the table of block sizes and the descriptors (`keepsDiscipline_updateLocked`,
`keepsDiscipline_deleteLocked`).
-/

namespace Linglongta

open Prog

/-- What never changes while the store is open. -/
structure Fixed (cfg : Config) (fds : ℕ → Option Fd) (w : World) : Prop where
  /-- The table of block sizes. -/
  config : w.config = cfg
  /-- The descriptors. -/
  fds : ∀ b, (w.fileHandler b).fd = fds b

/-- What is known of the answer to a request when everything works. -/
def Answered (cfg : Config) (fds : ℕ → Option Fd) : (r : StoreReq) → r.Resp → Prop
  | .config, x => x = cfg
  | .fileHandler b, x => x.fd = fds b
  | .slabAlloc _, x => x = true
  | .setFileHandler _ _, _ => True
  | .findRecord _, _ => True
  | .insertRecord _ _, _ => True
  | .delRecord _, _ => True
  | .pread _ _ _, _ => True
  | .pwrite _ _ _ _, _ => True
  | .logAppend _, _ => True

/-- A request that changes the store is made with the locks that it needs. -/
def StoreReq.Guarded (cfg : Config) (fds : ℕ → Option Fd) (h : Held store) : StoreReq → Prop
  | .config => True
  | .fileHandler _ => True
  | .slabAlloc _ => True
  | .findRecord _ => True
  | .pread _ _ _ => True
  | .setFileHandler b fh => (StoreLock.index, LockMode.ex) ∈ h ∧ fh.fd = fds b
  | .insertRecord _ _ => (StoreLock.index, LockMode.ex) ∈ h
  | .delRecord _ => (StoreLock.index, LockMode.ex) ∈ h
  | .logAppend _ => (StoreLock.index, LockMode.ex) ∈ h
  | .pwrite kind b off data => (StoreLock.index, LockMode.ex) ∈ h ∧ b < cfg.blockTypeCount ∧
      (kind = .record → (StoreLock.file b, LockMode.ex) ∈ h) ∧
      (kind ≠ .record → off + data.length ≤ dataSectionPos)

/-- The locks are taken in this order. -/
def StoreLock.rank : StoreLock → ℕ
  | index => 0
  | file _ => 1

/-- The discipline between taking and releasing the index lock. -/
def Disciplined (cfg : Config) (fds : ℕ → Option Fd) : Action store → Held store → Prop
  | .call r, h => r.Guarded cfg fds h
  | .lock l _, h => ∀ x ∈ h, x.1.rank < l.rank
  | .unlock l m, h => l ≠ .index ∧ (l, m) ∈ h
  | .abort, _ => True

/-! ## What a request can change -/

section Requests

variable {cfg : Config} {fds : ℕ → Option Fd} {w : World} {h : Held store} {r : StoreReq}

/-- The requests are answered as they should. -/
lemma Fixed.answered (hw : Fixed cfg fds w) (r : StoreReq) :
    Answered cfg fds r (handle noFaults w r).1 := by
  cases r with
  | config => exact hw.config
  | fileHandler b => exact hw.fds b
  | slabAlloc size => rfl
  | setFileHandler b fh => trivial
  | findRecord k => trivial
  | insertRecord k iv => trivial
  | delRecord k => trivial
  | pread b off len => trivial
  | pwrite kind b off data => trivial
  | logAppend ili => trivial

/-- A guarded request leaves alone what never changes. -/
lemma Fixed.handle (hw : Fixed cfg fds w) (hg : r.Guarded cfg fds h) :
    Fixed cfg fds (handle noFaults w r).2 := by
  cases r with
  | config => exact hw
  | fileHandler b => exact hw
  | slabAlloc size => exact hw
  | setFileHandler b fh =>
    refine ⟨hw.config, fun b' => ?_⟩
    by_cases hb : b' = b
    · simp [Linglongta.handle, World.setFileHandler, hb, hg.2]
    · simpa [Linglongta.handle, World.setFileHandler, hb] using hw.fds b'
  | findRecord k => exact hw
  | insertRecord k iv => exact ⟨hw.config, hw.fds⟩
  | delRecord k => exact ⟨hw.config, hw.fds⟩
  | pread b off len => exact hw
  | pwrite kind b off data =>
    refine ⟨?_, fun b' => ?_⟩
    · simpa [Linglongta.handle, World.config] using hw.config
    · simpa [Linglongta.handle] using hw.fds b'
  | logAppend ili => exact ⟨hw.config, hw.fds⟩

/-- The descriptors of different block files are different. -/
def Distinct (cfg : Config) (fds : ℕ → Option Fd) : Prop :=
  ∀ b < cfg.blockTypeCount, ∀ c < cfg.blockTypeCount, b ≠ c → fds b ≠ fds c

/-- A guarded request leaves the records of a block file alone, unless its lock is held
exclusively. -/
lemma StoreReq.Guarded.pread (hg : r.Guarded cfg fds h) (hw : Fixed cfg fds w)
    (hfds : Distinct cfg fds) {b off : ℕ} {d : List UInt8}
    (hfile : (StoreLock.file b, LockMode.ex) ∉ h) (hb : b < cfg.blockTypeCount)
    (hoff : dataSectionPos ≤ off) (hread : w.pread .complete b off d.length = some d) :
    (Linglongta.handle noFaults w r).2.pread .complete b off d.length = some d := by
  cases r with
  | config => exact hread
  | fileHandler b' => exact hread
  | slabAlloc size => exact hread
  | findRecord k => exact hread
  | pread b' off' len => exact hread
  | setFileHandler b' fh =>
    have hsame : ∀ c, ((Linglongta.handle noFaults w (.setFileHandler b' fh)).2.fileHandler c).fd =
        (w.fileHandler c).fd := by
      intro c
      rw [(hw.handle hg).fds c, hw.fds c]
    rw [pread_congr hsame rfl]
    exact hread
  | insertRecord k iv => exact hread
  | delRecord k => exact hread
  | logAppend ili => exact hread
  | pwrite kind b' off' data =>
    obtain ⟨-, hb', hrecord, hfront⟩ := hg
    refine pread_pwrite_frame _ hread ?_
    by_cases hne : b = b'
    · have hkind : kind ≠ .record := by
        rintro rfl
        exact hfile (hne ▸ hrecord rfl)
      exact Or.inr (Or.inr ((hfront hkind).trans hoff))
    · left
      rw [hw.fds, hw.fds]
      exact hfds b hb b' hb' hne

end Requests

/-! ## The parts of a call -/

section Parts

variable {cfg : Config} {fds : ℕ → Option Fd} {h : Held store}

/-- The part keeps to the discipline and returns with the locks with which it started. -/
abbrev KeepsDiscipline {α : Type} (cfg : Config) (fds : ℕ → Option Fd) (p : Prog store α)
    (h : Held store) : Prop :=
  Always (Answered cfg fds) (Disciplined cfg fds) (fun _ h' => h' = h) p h

/-- A part that keeps to the discipline may be followed by anything. -/
lemma KeepsDiscipline.bind {α β : Type} {Q : β → Held store → Prop} {p : Prog store α}
    {f : α → Prog store β} (hp : KeepsDiscipline cfg fds p h)
    (hf : ∀ a, Always (Answered cfg fds) (Disciplined cfg fds) Q (f a) h) :
    Always (Answered cfg fds) (Disciplined cfg fds) Q (p >>= f) h := by
  rw [always_bind (I := store)]
  refine hp.mono ?_
  rintro a h' rfl
  exact hf a

/-- An assertion may fail. -/
lemma disciplined_assert_bind {β : Type} {Q : β → Held store → Prop} {c : Prop} [Decidable c]
    (f : Unit → Prog store β) :
    Always (Answered cfg fds) (Disciplined cfg fds) Q (assert c >>= f) h ↔
      (c → Always (Answered cfg fds) (Disciplined cfg fds) Q (f ()) h) :=
  always_assert_bind (fun _ => trivial) f

/-- The index lock is held, and no lock of a block file. -/
structure OnlyIndex (h : Held store) : Prop where
  /-- The index lock is held exclusively. -/
  index : (StoreLock.index, LockMode.ex) ∈ h
  /-- Every lock that is held is the index lock. -/
  only : ∀ x ∈ h, x.1 = StoreLock.index

lemma OnlyIndex.lock_file (hh : OnlyIndex h) (b : ℕ) (m : LockMode) :
    Disciplined cfg fds (.lock (.file b) m) h := by
  intro x hx
  rw [hh.only x hx]
  exact Nat.zero_lt_one

lemma keepsDiscipline_syncDataFile (kind : WriteKind) (b : ℕ) (data : List UInt8) (off : ℕ)
    (hg : b < cfg.blockTypeCount → (StoreReq.pwrite kind b off data).Guarded cfg fds h) :
    KeepsDiscipline cfg fds (syncDataFile kind b data off) h := by
  simp only [KeepsDiscipline, syncDataFile, readConfig_bind, pwriteFile_bind, always_call]
  refine ⟨trivial, fun cfg' hcfg => ?_⟩
  obtain rfl : cfg' = cfg := hcfg
  rw [disciplined_assert_bind]
  exact fun hb => ⟨hg hb, fun _ _ => rfl⟩

lemma keepsDiscipline_syncDataFileHeader (b : ℕ) (hindex : (StoreLock.index, LockMode.ex) ∈ h) :
    KeepsDiscipline cfg fds (syncDataFileHeader b) h := by
  simp only [KeepsDiscipline, syncDataFileHeader, readFileHandler_bind, always_call]
  refine ⟨trivial, fun fh _ => ?_⟩
  apply KeepsDiscipline.bind
  · apply keepsDiscipline_syncDataFile
    intro hb
    refine ⟨hindex, hb, by simp, fun _ => ?_⟩
    simp only [BlockFile.headerImage, List.length_append, Bytes.length_toLE]
    decide
  · simp

/-- `append_block` writes the record while it holds the lock of the block file. -/
lemma keepsDiscipline_appendBlock (hh : OnlyIndex h) (b : ℕ) (k : Key) (data : List UInt8) :
    KeepsDiscipline cfg fds (appendBlock b k data) h := by
  have hindex : (StoreLock.index, LockMode.ex) ∈ (StoreLock.file b, LockMode.ex) :: h :=
    List.mem_cons_of_mem _ hh.index
  simp only [KeepsDiscipline, appendBlock, readConfig_bind, readFileHandler_bind, setFileHandler_bind,
    acquire_bind, always_call, always_ite, disciplined_assert_bind, always_lock]
  refine ⟨trivial, fun cfg' hcfg => ⟨fun _ => rfl, fun _ => ⟨trivial, fun fh _ _ _ => ?_⟩⟩⟩
  refine ⟨hh.lock_file b .ex, trivial, fun fh hfd => ⟨⟨hindex, ?_⟩, fun _ _ => ?_⟩⟩
  · rw [fd_takeSlot]
    exact hfd
  apply (keepsDiscipline_syncDataFileHeader b hindex).bind
  intro _
  apply KeepsDiscipline.bind
  · apply keepsDiscipline_syncDataFile
    exact fun hb => ⟨hindex, hb, fun _ => List.mem_cons_self .., fun hne => absurd rfl hne⟩
  · intro _
    simp only [release_bind, logAppend_bind, insertRecord_bind, always_unlock, always_call,
      List.erase_cons_head]
    exact ⟨⟨by simp, List.mem_cons_self ..⟩, hh.index, fun _ _ => ⟨hh.index, fun _ _ => rfl⟩⟩

/-- `modify_block` writes the record while it holds the lock of the block file. -/
lemma keepsDiscipline_modifyBlock (hh : OnlyIndex h) (iv : IndexValue) (k : Key)
    (data : List UInt8) : KeepsDiscipline cfg fds (modifyBlock iv k data) h := by
  have hindex : (StoreLock.index, LockMode.ex) ∈ (StoreLock.file iv.blockId, LockMode.ex) :: h :=
    List.mem_cons_of_mem _ hh.index
  simp only [KeepsDiscipline, modifyBlock, readConfig_bind, readFileHandler_bind, acquire_bind,
    always_call, always_ite, disciplined_assert_bind, always_lock]
  refine ⟨trivial, fun cfg' hcfg => ⟨fun _ => rfl, fun _ => ⟨trivial, fun fh _ _ _ => ?_⟩⟩⟩
  refine ⟨hh.lock_file iv.blockId .ex, ?_⟩
  apply KeepsDiscipline.bind
  · apply keepsDiscipline_syncDataFile
    exact fun hb => ⟨hindex, hb, fun _ => List.mem_cons_self .., fun hne => absurd rfl hne⟩
  · intro retno
    simp only [disciplined_assert_bind, release_bind, logAppend_bind, insertRecord_bind,
      always_unlock, always_call, List.erase_cons_head]
    exact fun _ => ⟨⟨by simp, List.mem_cons_self ..⟩, hh.index, fun _ _ => ⟨hh.index, fun _ _ => rfl⟩⟩

/-- `do_delete_block` frees the slot while it holds the lock of the block file, and afterwards
writes only in front of the records. -/
lemma keepsDiscipline_doDeleteBlock (hh : OnlyIndex h) (iv : IndexValue) (k : Key) :
    KeepsDiscipline cfg fds (doDeleteBlock iv k) h := by
  have hindex : (StoreLock.index, LockMode.ex) ∈ (StoreLock.file iv.blockId, LockMode.ex) :: h :=
    List.mem_cons_of_mem _ hh.index
  have hunlock : Disciplined cfg fds (.unlock (.file iv.blockId) .ex)
      ((StoreLock.file iv.blockId, LockMode.ex) :: h) := ⟨by simp, List.mem_cons_self ..⟩
  simp only [KeepsDiscipline, doDeleteBlock, logAppend_bind, delRecord_bind, readFileHandler_bind,
    setFileHandler_bind, acquire_bind, release_bind, always_call, always_ite, always_lock,
    always_unlock, List.erase_cons_head]
  refine ⟨hh.index, fun _ _ => ⟨hh.index, fun ret _ => ⟨fun _ => rfl, fun _ => ?_⟩⟩⟩
  refine ⟨hh.lock_file iv.blockId .ex, trivial, fun fh hfd => ⟨fun _ => ⟨hunlock, rfl⟩, fun hroom => ?_⟩⟩
  refine ⟨⟨hindex, hfd⟩, fun _ _ => ⟨hunlock, ?_⟩⟩
  apply (keepsDiscipline_syncDataFileHeader _ hh.index).bind
  intro _
  refine ⟨trivial, fun fh' _ => ?_⟩
  apply KeepsDiscipline.bind
  · apply keepsDiscipline_syncDataFile
    refine fun hb => ⟨hh.index, hb, by simp, fun _ => ?_⟩
    rw [Bytes.length_toLE]
    unfold dataSectionPos
    omega
  · simp

/-- `update_block` between taking and releasing the index lock. -/
lemma keepsDiscipline_updateLocked (hh : OnlyIndex h) (k : Key) (data : List UInt8) :
    KeepsDiscipline cfg fds (updateLocked k data) h := by
  simp only [KeepsDiscipline, updateLocked, findRecord_bind, readConfig_bind, always_call]
  refine ⟨trivial, fun found _ => ⟨trivial, fun cfg' _ => ?_⟩⟩
  cases found with
  | ok iv =>
    simp only [always_ite]
    constructor
    · intro _
      apply (keepsDiscipline_modifyBlock hh _ _ _).bind
      simp
    · intro _
      apply (keepsDiscipline_doDeleteBlock hh _ _).bind
      intro retno
      simp only [always_ite]
      refine ⟨fun _ => rfl, fun _ => ?_⟩
      apply (keepsDiscipline_appendBlock hh _ _ _).bind
      simp
  | error e =>
    simp only [always_ite]
    refine ⟨fun _ => ⟨fun _ => rfl, fun _ => ?_⟩, fun _ => rfl⟩
    apply (keepsDiscipline_appendBlock hh _ _ _).bind
    simp

/-- `delete_block` between taking and releasing the index lock. -/
lemma keepsDiscipline_deleteLocked (hh : OnlyIndex h) (k : Key) :
    KeepsDiscipline cfg fds (deleteLocked k) h := by
  simp only [KeepsDiscipline, deleteLocked, findRecord_bind, always_call]
  refine ⟨trivial, fun found _ => ?_⟩
  cases found with
  | ok iv =>
    apply (keepsDiscipline_doDeleteBlock hh _ _).bind
    simp
  | error e => rfl

end Parts

end Linglongta
