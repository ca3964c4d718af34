import Linglongta.Storage.Sessions

/-!
# What the return code of `update_block` is worth

Two promises of a return code, and when `update_block` keeps them.

A return code of `0` should mean that the value is stored.  `append_block` ignores what the write of
its data and its `insert_record` report, and `update_block` returns `0` when no block file can hold
the data of a new key.  `acksStored_iff` says exactly when a `0` can be trusted.

Any other return code should mean that the store is as it was.  A record that has outgrown its block
is deleted before the new block file is looked for, and it is lost if there is none.
`keepsOnFailure_iff` says exactly when a failure can be trusted.
-/

namespace Linglongta

open Prog

/-! ## Reading back an appended record -/

/-- The number of bytes of a record that its `pwrite` transfers. -/
def transferred (f : Faults) (b off : ℕ) (data : List UInt8) : ℕ :=
  if offMax < off + data.length then 0 else ((f.pwrite .record b).bytes data).length

/-- The record that `append_block` would place in the block file can be read back: its `pwrite` is
complete, or the bytes that it does not transfer are in the slot already when it is called. -/
def ReadsBack (f : Faults) (w : World) (b : ℕ) (data : List UInt8) : Prop :=
  (w.fileHandler b).takeSlot.1 ≤ offMax ∧
  ∃ file, w.file b = some file ∧
    (file.pwrite 0 ((f.pwrite .header b).bytes (w.fileHandler b).takeSlot.2.headerImage)).pread
        ((w.fileHandler b).takeSlot.1 + transferred f b (w.fileHandler b).takeSlot.1 data)
        (data.length - transferred f b (w.fileHandler b).takeSlot.1 data) =
      data.drop (transferred f b (w.fileHandler b).takeSlot.1 data)

/-- The bytes that are transferred are the first ones. -/
lemma bytes_eq_take (t : Transfer) (data : List UInt8) :
    t.bytes data = data.take (t.bytes data).length := by
  cases t with
  | complete => simp
  | short n => simp [Transfer.bytes, List.take_eq_take_iff]
  | failed => simp [Transfer.bytes]

section ReadsBack

variable {f : Faults} {w : World} {b : ℕ} {data : List UInt8}

/-- The block file after `append_block` has placed a record. -/
lemma file_placed {file : ByteFile} (hfile : w.file b = some file) :
    (w.placed f b data).file b =
      some ((file.pwrite 0 ((f.pwrite .header b).bytes
        (w.fileHandler b).takeSlot.2.headerImage)).pwrite (w.fileHandler b).takeSlot.1
          (data.take (transferred f b (w.fileHandler b).takeSlot.1 data))) := by
  have hfile₁ : (w.setFileHandler b (w.fileHandler b).takeSlot.2).file b = some file := by
    simpa [World.file] using hfile
  have hfile₂ : ((w.setFileHandler b (w.fileHandler b).takeSlot.2).syncHeader f b).file b =
      some (file.pwrite 0 ((f.pwrite .header b).bytes
        (w.fileHandler b).takeSlot.2.headerImage)) := by
    have hlen : 0 + (w.fileHandler b).takeSlot.2.headerImage.length ≤ offMax := by
      simp [BlockFile.headerImage, offMax]
    simpa [World.syncHeader] using (file_pwrite (f.pwrite .header b) hfile₁ hlen).2
  unfold World.placed World.syncRecord transferred
  by_cases hoff : offMax < (w.fileHandler b).takeSlot.1 + data.length
  · rw [pwrite_of_refused _ (Or.inr hoff), if_pos hoff, hfile₂]
    simp
  · rw [(file_pwrite _ hfile₂ (Nat.not_lt.1 hoff)).2, if_neg hoff, ← bytes_eq_take]

/-- When the record that `append_block` has placed can be read. -/
lemma pread_placed_iff (hu : Usable w) (hb : b < w.blockTypeCount) :
    (w.placed f b data).pread .complete b (w.fileHandler b).takeSlot.1 data.length = some data ↔
      ReadsBack f w b data := by
  obtain ⟨file, hfile, -⟩ := hu.file hb
  have hn : transferred f b (w.fileHandler b).takeSlot.1 data ≤ data.length := by
    unfold transferred
    split
    · exact Nat.zero_le _
    · exact length_bytes_le _ _
  unfold World.pread ReadsBack
  rw [file_placed hfile]
  by_cases hoff : offMax < (w.fileHandler b).takeSlot.1
  · simp [hoff]
  · simp only [if_neg hoff, reduceCtorEq, if_false, bytes_complete, Option.some.injEq,
      Nat.not_lt.1 hoff, true_and, hfile, exists_eq_left']
    exact ByteFile.pread_pwrite_take_iff _ _ hn

/-- A record that is written completely can be read back. -/
lemma readsBack_of_complete (hu : Usable w) (hb : b < w.blockTypeCount)
    (hwrite : f.pwrite .record b = .complete)
    (hoff : (w.fileHandler b).takeSlot.1 + data.length ≤ offMax) : ReadsBack f w b data := by
  obtain ⟨file, hfile, -⟩ := hu.file hb
  have hall : transferred f b (w.fileHandler b).takeSlot.1 data = data.length := by
    unfold transferred
    rw [if_neg (Nat.not_lt.2 hoff), hwrite, bytes_complete]
  refine ⟨by omega, file, hfile, ?_⟩
  rw [hall, Nat.sub_self, List.drop_length]
  exact ByteFile.pread_zero _ _

end ReadsBack

/-! ## Success -/

/-- If `update_block` returns `0`, then a `find_block` of the same key right after it, for which
everything works, returns the data. -/
def AcksStored (f : Faults) (key data : List UInt8) (h : Held store) (w : World) : Prop :=
  ∀ r h' w', exec (handle f) (updateBlock key data) h w = .returned r h' w' → r.ret = 0 →
    exec (handle noFaults) (findBlock key) h' w' = .returned (valueReply (some data)) h' w'

/-- The update appends a record to a block file: the key is new, or its record has outgrown its
block and is deleted, and there is a block file for the data. -/
def Appends (f : Faults) (w : World) (k : Key) (data : List UInt8) : Prop :=
  f.findRecord = none ∧
  (w.index k = none ∨
    ∃ iv, w.index k = some iv ∧ w.blockSizeArray iv.blockId < data.length ∧ f.delRecord = 0) ∧
  0 ≤ w.config.sizeClass data.length ∧
  data.length ≤ w.blockSizeArray (w.config.sizeClass data.length).toNat

/-- The condition under which a `0` of `update_block` can be trusted: it is not an update of a new
key with data that no block file can hold, and if it appends a record, then the index takes the
entry and the record is written, or is in its slot already. -/
def TrustedAck (f : Faults) (w : World) (k : Key) (data : List UInt8) : Prop :=
  ¬(f.findRecord = none ∧ w.index k = none ∧ w.config.sizeClass data.length < 0) ∧
  (Appends f w k data →
    f.insertRecord = 0 ∧ ReadsBack f w (w.config.sizeClass data.length).toNat data)

section Success

variable {f : Faults} {w : World} {h : Held store}

/-- What `find_block` returns right after an update that returned. -/
lemma acksStored_ending_iff (hu : Usable w) (hh : OnlyLeaked h) (key data : List UInt8)
    (hadm : Admits h StoreLock.index .ex) :
    AcksStored f key data h w ↔
      ((w.updateEnding f (fixedKey key) data).ret = some 0 →
        (w.updateEnding f (fixedKey key) data).world.findReply noFaults (fixedKey key) =
          valueReply (some data)) := by
  have hfind : ∀ w', exec (handle noFaults) (findBlock key) h w' =
      .returned (w'.findReply noFaults (fixedKey key)) h w' :=
    fun w' => exec_findBlock hh.fileFree key hh.admits_sh rfl
  unfold AcksStored
  rw [exec_updateBlock hu.ready hh.fileFree key data hadm]
  unfold Ending.outcome
  constructor
  · intro hack hret
    have := hack { ret := 0 } h (w.updateEnding f (fixedKey key) data).world (by rw [hret]) rfl
    rw [hfind] at this
    simpa using this
  · intro hack r h' w' hexec hret
    cases hcode : (w.updateEnding f (fixedKey key) data).ret with
    | none => simp [hcode] at hexec
    | some code =>
      rw [hcode] at hexec
      simp only [Outcome.returned.injEq] at hexec
      obtain ⟨rfl, rfl, rfl⟩ := hexec
      rw [hfind, hack (by rw [hcode]; exact congrArg some hret)]

/-- The reply of `find_block` says whether the data is stored. -/
lemma findReply_eq_valueReply {k : Key} {data : List UInt8}
    (h : w.findReply noFaults k = valueReply (some data)) :
    ∃ iv, w.index k = some iv ∧ iv.dataSize = data.length ∧
      w.pread .complete iv.blockId iv.offset data.length = some data := by
  unfold World.findReply at h
  cases hk : w.index k with
  | none => simp [noFaults, hk, valueReply] at h
  | some iv =>
    simp only [noFaults, hk, valueReply, Reply.mk.injEq, Option.some.injEq] at h
    obtain ⟨hret, hptr, hlen⟩ := h
    refine ⟨iv, rfl, hlen, ?_⟩
    rw [hlen] at hret hptr
    cases hread : w.pread .complete iv.blockId iv.offset data.length with
    | none => simp [hread] at hret
    | some d =>
      rw [hread] at hptr
      simpa using hptr

/-- When the record of an `append_block` is found. -/
lemma findReply_appended_iff (hu : Usable w) {k : Key} {b : ℕ} (data : List UInt8)
    (hk : w.index k = none) (hb : b < w.blockTypeCount) :
    (w.appended f b k data).findReply noFaults k = valueReply (some data) ↔
      f.insertRecord = 0 ∧ ReadsBack f w b data := by
  have hpread : (w.appended f b k data).pread = (w.placed f b data).pread :=
    pread_congr (by simp) (by simp)
  constructor
  · intro hfind
    obtain ⟨iv, hiv, -, hread⟩ := findReply_eq_valueReply hfind
    have hput : f.insertRecord = 0 := by
      by_contra hput
      simp [hput, hk] at hiv
    obtain rfl : w.appendedValue b data = iv := by
      simpa [hput] using hiv
    rw [hpread] at hread
    exact ⟨hput, (pread_placed_iff hu hb).1 hread⟩
  · rintro ⟨hput, hback⟩
    exact findReply_of_stored (stored_appended k hput ((pread_placed_iff hu hb).2 hback))

/-- `do_delete_block` leaves the other block files alone. -/
lemma deleted_other (hu : Usable w) {k : Key} {iv : IndexValue} (hk : w.index k = some iv)
    {b : ℕ} (hb : b < w.blockTypeCount) (hne : b ≠ iv.blockId) :
    (w.deleted f iv k).fileHandler b = w.fileHandler b ∧
      (w.deleted f iv k).file b = w.file b := by
  have hfd := hu.fd_ne hb (hu.indexed k iv hk) hne
  have hhandler : (w.deleted f iv k).fileHandler b = w.fileHandler b := by
    rw [World.fileHandler_deleted]
    split
    · rw [Function.update_of_ne hne]
    · rfl
  refine ⟨hhandler, ?_⟩
  have hun : (w.unindexed f iv k).file b = w.file b := by
    simp [World.file]
  by_cases hdel : f.delRecord = 0
  · rw [World.deleted_of_success f w k iv hdel]
    unfold World.freed
    split
    · exact hun
    · have hfd' : ((((w.unindexed f iv k).setFileHandler iv.blockId
          (((w.unindexed f iv k).fileHandler iv.blockId).putSlot iv.offset))).fileHandler b).fd ≠
          ((((w.unindexed f iv k).setFileHandler iv.blockId
          (((w.unindexed f iv k).fileHandler iv.blockId).putSlot iv.offset))).fileHandler
            iv.blockId).fd := by
        simpa [Function.update_of_ne hne, BlockFile.putSlot] using hfd
      unfold World.syncSlot World.syncHeader
      rw [file_pwrite_of_ne _ (by simpa using hfd'), file_pwrite_of_ne _ hfd', ← hun]
      simp [World.file, Function.update_of_ne hne]
  · rw [World.deleted_of_fault f w k iv hdel]
    exact hun

/-- When a return code of `0` can be trusted. -/
lemma trustedAck_iff (hu : Usable w) (hh : OnlyLeaked h) (key data : List UInt8)
    (hadm : Admits h StoreLock.index .ex) :
    AcksStored f key data h w ↔ TrustedAck f w (fixedKey key) data := by
  rw [acksStored_ending_iff hu hh key data hadm]
  generalize fixedKey key = k
  unfold TrustedAck Appends World.updateEnding
  cases hfault : f.findRecord with
  | some e => simp
  | none =>
    cases hk : w.index k with
    | none =>
      unfold World.insertEnding
      by_cases hcls : w.config.sizeClass data.length < 0
      · have hfind : w.findReply noFaults k ≠ valueReply (some data) := by
          simp [World.findReply, noFaults, hk, valueReply]
        simp [hcls, hfind]
      · have hcls' : 0 ≤ w.config.sizeClass data.length := by omega
        by_cases hl : data.length ≤ w.blockSizeArray (w.config.sizeClass data.length).toNat
        · have happ := findReply_appended_iff (f := f) hu data hk (w.sizeClass_lt hcls)
          simp [hcls, hcls', hl, happ]
        · simp [hcls, hl]
    | some iv =>
      by_cases hl : data.length ≤ w.blockSizeArray iv.blockId
      · have hnot : ¬w.blockSizeArray iv.blockId < data.length := by omega
        unfold World.modifyEnding
        simp only [hl, Option.isSome_none, Bool.false_eq_true, if_false, if_true, reduceCtorEq,
          false_and, and_false, not_false_eq_true, Option.some.injEq, exists_eq_left', hnot,
          false_or, true_and, IsEmpty.forall_iff, iff_true]
        split
        · rename_i hw
          intro hret
          have hput : f.insertRecord = 0 := by
            by_contra hput
            simp [hput] at hret
          exact findReply_of_stored (stored_modified k hput hw)
        · simp
      · have hlt : w.blockSizeArray iv.blockId < data.length := by omega
        by_cases hdel : f.delRecord = 0
        · unfold World.insertEnding
          by_cases hcls : w.config.sizeClass data.length < 0
          · have hcls' : ¬0 ≤ w.config.sizeClass data.length := by omega
            simp [hl, hdel, hcls, hcls']
          · have hcls' : 0 ≤ w.config.sizeClass data.length := by omega
            by_cases hl' : data.length ≤ w.blockSizeArray (w.config.sizeClass data.length).toNat
            · have hb := w.sizeClass_lt hcls
              have hne : (w.config.sizeClass data.length).toNat ≠ iv.blockId := by
                intro heq
                rw [heq] at hl'
                omega
              have happ := findReply_appended_iff (f := f) (hu.deleted f iv k) (k := k)
                (b := (w.config.sizeClass data.length).toNat) data (by simp [hdel])
                (by simpa using hb)
              obtain ⟨hhandler, hfile⟩ := deleted_other (f := f) hu hk hb hne
              have hback : ReadsBack f (w.deleted f iv k) (w.config.sizeClass data.length).toNat
                  data ↔ ReadsBack f w (w.config.sizeClass data.length).toNat data := by
                simp only [ReadsBack, hhandler, hfile]
              simp [hl, hlt, hdel, hcls, hcls', hl', happ, hback]
            · simp [hl, hdel, hcls, hl']
        · simp [hl, hdel]

end Success

/-- When a return code of `0` can be trusted, in every store that is open: exactly if the update
waits forever for the index lock or meets the condition `TrustedAck`. -/
theorem acksStored_iff {n : ℕ} {h : Held store} {w : World} (hl : Lived n (.opened (some h)) w)
    (f : Faults) (key data : List UInt8) :
    AcksStored f key data h w ↔
      ¬Admits h StoreLock.index .ex ∨ TrustedAck f w (fixedKey key) data := by
  by_cases hadm : Admits h StoreLock.index .ex
  · simpa [hadm] using trustedAck_iff hl.usable hl.onlyLeaked key data hadm
  · have hblocked := (call_blocked (f := f) (w := w) (c := .update key data) rfl hadm).1
    have hack : AcksStored f key data h w := by
      intro r h' w' hexec
      rw [show updateBlock key data = (Call.update key data).prog from rfl, hblocked] at hexec
      simp at hexec
    simp [hadm, hack]

/-- No block file of a store with block files up to 1024 bytes holds 2000 bytes. -/
lemma sizeClass_two_thousand : (tableOf 1024).sizeClass 2000 < 0 := by decide

theorem acksStored_one_byte :
    ∃ bsp w, openStorage {} 1024 World.empty = ⟨0, bsp, w⟩ ∧ AcksStored noFaults [1] [2] [] w := by
  obtain ⟨w, hopen, hl, hcfg, -, hentry, -⟩ := exists_small_store
  have hcls : w.config.sizeClass [(2 : UInt8)].length = 0 := hcfg ▸ sizeClass_one
  have hb : 0 < w.blockTypeCount := by
    have hcount : w.blockTypeCount = (tableOf 1024).blockTypeCount :=
      congrArg Config.blockTypeCount hcfg
    rw [hcount]
    decide
  refine ⟨_, w, hopen, (acksStored_iff hl _ _ _).2 (Or.inr ⟨?_, fun _ => ?_⟩)⟩
  · rintro ⟨-, -, hneg⟩
    rw [hcls] at hneg
    exact absurd hneg (by decide)
  · rw [hcls]
    refine ⟨rfl, readsBack_of_complete hl.usable hb rfl ?_⟩
    rw [show ((0 : Int).toNat) = 0 from rfl, hentry]
    decide

theorem acksStored_too_large :
    ∃ bsp w, openStorage {} 1024 World.empty = ⟨0, bsp, w⟩ ∧
      ¬AcksStored noFaults [1] (List.replicate 2000 0) [] w := by
  obtain ⟨w, hopen, hl, hcfg, hindex, -⟩ := exists_small_store
  refine ⟨_, w, hopen, ?_⟩
  rw [trustedAck_iff hl.usable hl.onlyLeaked _ _ (by simp [Admits])]
  rintro ⟨hfits, -⟩
  refine hfits ⟨rfl, by rw [hindex], ?_⟩
  rw [hcfg, List.length_replicate]
  exact sizeClass_two_thousand

/-! ## Failure -/

/-- If `update_block` returns another code than `0`, with everything working, then `find_block`
returns for every key what it returned before. -/
def KeepsOnFailure (key data : List UInt8) (h : Held store) (w : World) : Prop :=
  ∀ r h' w', exec (handle noFaults) (updateBlock key data) h w = .returned r h' w' → r.ret ≠ 0 →
    ∀ key' q, exec (handle noFaults) (findBlock key') h w = .returned q h w →
      exec (handle noFaults) (findBlock key') h' w' = .returned q h' w'

/-- The key has a record, the data does not fit the block of the record, and no block file of the
table can hold it. -/
def Strands (w : World) (k : Key) (data : List UInt8) : Prop :=
  ∃ iv, w.index k = some iv ∧ w.blockSizeArray iv.blockId < data.length ∧
    w.config.sizeClass data.length < 0

section Failure

variable {w : World} {h : Held store}

/-- How an update ends that finds no block file for the data of a record that it has deleted. -/
lemma updateEnding_of_strands {k : Key} {data : List UInt8} {iv : IndexValue}
    (hk : w.index k = some iv) (hlt : w.blockSizeArray iv.blockId < data.length)
    (hcls : w.config.sizeClass data.length < 0) :
    w.updateEnding noFaults k data = ⟨some (-3), w.deleted noFaults iv k⟩ := by
  have hl : ¬data.length ≤ w.blockSizeArray iv.blockId := by omega
  unfold World.updateEnding World.insertEnding
  simp [hk, hl, hcls, noFaults]

/-- With everything working, this is the only failure. -/
lemma strands_of_failure {k : Key} {data : List UInt8} {code : Int}
    (hret : (w.updateEnding noFaults k data).ret = some code) (hcode : code ≠ 0) :
    Strands w k data := by
  unfold World.updateEnding World.insertEnding World.modifyEnding at hret
  cases hk : w.index k with
  | none =>
    simp only [hk, noFaults, Option.isSome_none, Bool.false_eq_true, if_false] at hret
    split at hret
    · exact absurd (Option.some.inj hret).symm hcode
    · split at hret
      · exact absurd (Option.some.inj hret).symm hcode
      · exact absurd hret (by simp)
  | some iv =>
    simp only [hk, noFaults, Option.isSome_none, Bool.false_eq_true, if_false, ne_eq,
      not_true_eq_false, World.config_deleted] at hret
    split at hret
    · split at hret
      · exact absurd (Option.some.inj hret).symm hcode
      · exact absurd hret (by simp)
    · rename_i hl
      split at hret
      · rename_i hcls
        exact ⟨iv, hk, by omega, hcls⟩
      · split at hret
        · exact absurd (Option.some.inj hret).symm hcode
        · exact absurd hret (by simp)

/-- `find_block` tells a key with a record from a key without one. -/
lemma findReply_ne_of_deleted {k : Key} {iv : IndexValue} (hk : w.index k = some iv) :
    (w.deleted noFaults iv k).findReply noFaults k ≠ w.findReply noFaults k := by
  have hnone : (w.deleted noFaults iv k).index k = none := stored_deleted k iv rfl
  unfold World.findReply
  rw [hnone, hk]
  intro heq
  exact absurd (congrArg Reply.valuePtr heq) (by simp [noFaults])

/-- When a failure can be trusted. -/
lemma keepsOnFailure_iff_not_strands (hu : Usable w) (hh : OnlyLeaked h) (key data : List UInt8)
    (hadm : Admits h StoreLock.index .ex) :
    KeepsOnFailure key data h w ↔ ¬Strands w (fixedKey key) data := by
  have hupdate := exec_updateBlock (f := noFaults) hu.ready hh.fileFree key data hadm
  have hfind : ∀ key' w', exec (handle noFaults) (findBlock key') h w' =
      .returned (w'.findReply noFaults (fixedKey key')) h w' :=
    fun key' w' => exec_findBlock hh.fileFree key' hh.admits_sh rfl
  constructor
  · rintro hkeep ⟨iv, hk, hlt, hcls⟩
    rw [updateEnding_of_strands hk hlt hcls] at hupdate
    have hlost := hkeep _ _ _ hupdate (by simp) key _ (hfind key w)
    rw [hfind] at hlost
    simp only [Outcome.returned.injEq, and_true] at hlost
    exact findReply_ne_of_deleted hk hlost
  · intro hstr r h' w' hexec hret
    rw [hupdate] at hexec
    unfold Ending.outcome at hexec
    cases hcode : (w.updateEnding noFaults (fixedKey key) data).ret with
    | none => simp [hcode] at hexec
    | some code =>
      rw [hcode] at hexec
      simp only [Outcome.returned.injEq] at hexec
      obtain ⟨rfl, -, -⟩ := hexec
      exact absurd (strands_of_failure hcode hret) hstr

end Failure

/-- When a failure can be trusted, in every store that is open: exactly if the update waits forever
for the index lock, or does not ask to replace a record by data that fits neither its block nor any
block file. -/
theorem keepsOnFailure_iff {n : ℕ} {h : Held store} {w : World}
    (hl : Lived n (.opened (some h)) w) (key data : List UInt8) :
    KeepsOnFailure key data h w ↔
      ¬Admits h StoreLock.index .ex ∨ ¬Strands w (fixedKey key) data := by
  by_cases hadm : Admits h StoreLock.index .ex
  · simpa [hadm] using keepsOnFailure_iff_not_strands hl.usable hl.onlyLeaked key data hadm
  · have hblocked := (call_blocked (f := noFaults) (w := w) (c := .update key data) rfl hadm).1
    have hkeep : KeepsOnFailure key data h w := by
      intro r h' w' hexec
      rw [show updateBlock key data = (Call.update key data).prog from rfl, hblocked] at hexec
      simp at hexec
    simp [hadm, hkeep]

theorem keepsOnFailure_new_key :
    ∃ bsp w, openStorage {} 1024 World.empty = ⟨0, bsp, w⟩ ∧
      KeepsOnFailure [1] (List.replicate 2000 0) [] w := by
  obtain ⟨w, hopen, hl, -, hindex, -⟩ := exists_small_store
  refine ⟨_, w, hopen, (keepsOnFailure_iff hl _ _).2 (Or.inr ?_)⟩
  rintro ⟨iv, hk, -⟩
  simp [hindex] at hk

theorem keepsOnFailure_outgrown :
    ∃ bsp w w', openStorage {} 1024 World.empty = ⟨0, bsp, w⟩ ∧
      exec (handle noFaults) (updateBlock [1] [2]) [] w = .returned { ret := 0 } [] w' ∧
      ¬KeepsOnFailure [1] (List.replicate 2000 0) [] w' := by
  obtain ⟨w, hopen, hl, hcfg, hindex, -⟩ := exists_small_store
  have hsize := small_blockSize hcfg
  refine ⟨_, w, _, hopen, small_update hl hcfg hindex [1], ?_⟩
  have hu : Usable (w.appended noFaults 0 (fixedKey [1]) [2]) := by
    refine hl.usable.appended noFaults ?_ _ _
    have := w.sizeClass_lt (n := 1) (by rw [hcfg, sizeClass_one]; decide)
    rwa [hcfg, sizeClass_one] at this
  rw [keepsOnFailure_iff_not_strands hu hl.onlyLeaked _ _ (by simp [Admits]), not_not]
  refine ⟨w.appendedValue 0 [2], by simp [noFaults], ?_, ?_⟩
  · rw [World.blockSizeArray_appended, List.length_replicate]
    exact hsize.trans_lt (by decide)
  · rw [World.config_appended, hcfg, List.length_replicate]
    exact sizeClass_two_thousand

end Linglongta
