import Linglongta.IndexLog.Tail

/-!
# The journal when writes fail

A `Writer` is a logger in append mode with its file and, as a ghost, the items that it has accepted:
those for which `index_logger_append` returned `RET_SUCCESS`.  Every call comes with the outcome of
the `write` that it may make.

While every `write` is complete, the items accepted are those of the file and those that are pending
(`Writer.Inv`), so a flush that succeeds leaves all of them in the file (`accepted_items_flushed`).
A `write` that fails loses the items of its buffer: the buffers have been switched before, and the
next switch empties the buffer that was not written (`accepted_item_lost`).
-/

namespace Linglongta

/-- A call of a logger in append mode. -/
inductive WriteCall
  /-- `index_logger_append`. -/
  | append (ili : IndexLogItem)
  /-- `index_logger_flush`. -/
  | flush

/-- The items that a call hands over. -/
def WriteCall.items : WriteCall → List IndexLogItem
  | append ili => [ili]
  | flush => []

/-- Whether a call writes to the file. -/
def WriteCall.Writes (il : IndexLogger) : WriteCall → Prop
  | append _ => logBufSize < (il.workingBuffer.count + 1) * indexLogItemSize
  | flush => il.workingBuffer.count ≠ 0

/-- A logger in append mode, its file and the items it has accepted. -/
structure Writer where
  /-- The logger. -/
  logger : IndexLogger
  /-- The journal file. -/
  file : List UInt8
  /-- The items accepted so far. -/
  accepted : List IndexLogItem

namespace Writer

/-- The logger made by `index_logger_create`. -/
def create : Writer where
  logger := indexLoggerCreate
  file := magicHeader
  accepted := []

/-- What a call returns and leaves behind, for the outcome of its `write`. -/
def call (w : Writer) (out : Option ℕ) : WriteCall → LogResult
  | .append ili => indexLoggerAppend out w.logger w.file ili
  | .flush => indexLoggerFlush out w.logger w.file

/-- The writer after a call. -/
def step (w : Writer) (out : Option ℕ) (c : WriteCall) : Writer where
  logger := (w.call out c).logger
  file := (w.call out c).file
  accepted := if (w.call out c).ret = 0 then w.accepted ++ c.items else w.accepted

/-- The writer after some calls. -/
def run : Writer → List (WriteCall × Option ℕ) → Writer
  | w, [] => w
  | w, (c, out) :: calls => (w.step out c).run calls

/-- The `write` of the call, if there is one, is complete. -/
def Completes (w : Writer) (out : Option ℕ) (c : WriteCall) : Prop :=
  c.Writes w.logger →
    ∃ k, out = some k ∧ w.logger.workingBuffer.count * indexLogItemSize + logBufHeaderSize ≤ k

/-- Every `write` of the calls is complete. -/
def Complete : Writer → List (WriteCall × Option ℕ) → Prop
  | _, [] => True
  | w, (c, out) :: calls => w.Completes out c ∧ (w.step out c).Complete calls

/-- The items accepted are those of the file and those that are pending. -/
structure Inv (w : Writer) (blocks : List (List IndexLogItem)) (pending : List IndexLogItem) :
    Prop where
  /-- What the file holds. -/
  file : w.file = journalBytes blocks
  /-- The blocks are those of a logger. -/
  fits : ∀ b ∈ blocks, BlockFits b
  /-- What is pending. -/
  holds : Holds w.logger pending
  /-- What was accepted. -/
  accepted : w.accepted = blocks.flatten ++ pending

end Writer

/-! ## Complete writes -/

/-- A `write` of at most as many bytes as the kernel takes is complete. -/
lemma writeFile_of_le {k : ℕ} {bytes : List UInt8} (hk : bytes.length ≤ k) (file : List UInt8) :
    writeFile (some k) file bytes = (some bytes.length, file ++ bytes) := by
  simp [writeFile, hk, List.take_of_length_le hk]

/-- What is written of a buffer, with its header. -/
lemma Holds.length_image {il : IndexLogger} {pending : List IndexLogItem} (hh : Holds il pending)
    (crc : UInt32) : ({ il.workingBuffer with crc32sum := crc } : LogBuf).image.length =
      il.workingBuffer.count * indexLogItemSize + logBufHeaderSize := by
  have hbytes : (il.workingBuffer.bufPtr.take (il.workingBuffer.count * indexLogItemSize)).length =
      il.workingBuffer.count * indexLogItemSize := by
    rw [hh.count_eq, hh.bytes_eq, length_encodeItems]
  simp only [LogBuf.image, List.length_append, Bytes.length_toLE, hbytes, logBufHeaderSize]
  omega

/-- All complete writes are alike. -/
lemma sync_of_complete {il : IndexLogger} {pending : List IndexLogItem} (hh : Holds il pending)
    (file : List UInt8) {k : ℕ}
    (hk : il.workingBuffer.count * indexLogItemSize + logBufHeaderSize ≤ k) :
    syncIndexLog (some k) (switchBuffer il) file =
      syncIndexLog completeWrite (switchBuffer il) file := by
  have hfits : il.workingBuffer.count * indexLogItemSize + logBufHeaderSize ≤
      logBufSize + logBufHeaderSize := by
    rw [hh.count_eq]
    exact Nat.add_le_add_right hh.fits _
  simp only [syncIndexLog, storingBuffer_switchBuffer, completeWrite]
  rw [writeFile_of_le (by rw [hh.length_image]; exact hk),
    writeFile_of_le (by rw [hh.length_image]; exact hfits)]

/-- Only a complete `write` succeeds. -/
lemma le_of_sync_ret {il : IndexLogger} {file : List UInt8} {out : Option ℕ}
    (hret : (syncIndexLog out (switchBuffer il) file).ret = 0) :
    ∃ k, out = some k ∧ il.workingBuffer.count * indexLogItemSize + logBufHeaderSize ≤ k := by
  simp only [syncIndexLog, storingBuffer_switchBuffer, writeFile] at hret
  split at hret
  · rename_i hwrite
    obtain ⟨k, rfl, hmin⟩ := Option.map_eq_some_iff.1 hwrite
    exact ⟨k, rfl, hmin ▸ min_le_left _ _⟩
  · cases hret

namespace Writer

variable {w : Writer} {out : Option ℕ} {c : WriteCall} {blocks : List (List IndexLogItem)}
variable {pending : List IndexLogItem}

/-- All calls with a complete `write` are alike. -/
lemma call_of_completes (hh : Holds w.logger pending) (hc : w.Completes out c) :
    w.call out c = w.call completeWrite c := by
  cases c with
  | append ili =>
    by_cases hfull : logBufSize < (w.logger.workingBuffer.count + 1) * indexLogItemSize
    · obtain ⟨k, rfl, hk⟩ := hc hfull
      simp only [call, indexLoggerAppend, if_pos hfull, sync_of_complete hh w.file hk]
    · simp only [call, indexLoggerAppend, if_neg hfull]
  | flush =>
    by_cases hzero : w.logger.workingBuffer.count = 0
    · simp only [call, indexLoggerFlush, if_pos hzero]
    · obtain ⟨k, rfl, hk⟩ := hc hzero
      simp only [call, indexLoggerFlush, if_neg hzero, sync_of_complete hh w.file hk]

/-- A flush that succeeds has made a complete `write`, if any. -/
lemma completes_of_flush (hret : (w.call out .flush).ret = 0) : w.Completes out .flush := by
  intro hne
  simp only [call, indexLoggerFlush, if_neg hne] at hret
  exact le_of_sync_ret hret

/-- A call with a complete `write` succeeds, and keeps the invariant. -/
lemma Inv.step (hi : w.Inv blocks pending) (hc : w.Completes out c) :
    ∃ more pending', (w.step out c).Inv (blocks ++ more) pending' ∧
      (w.step out c).accepted = w.accepted ++ c.items ∧ (c = .flush → pending' = []) := by
  have hfits : ∀ {more : List (List IndexLogItem)}, (∀ b ∈ more, BlockFits b) →
      ∀ b ∈ blocks ++ more, BlockFits b := by
    intro more hmore b hb
    rcases List.mem_append.1 hb with hold | hnew
    · exact hi.fits b hold
    · exact hmore b hnew
  cases c with
  | append ili =>
    have hcall : w.call out (.append ili) = indexLoggerAppend completeWrite w.logger w.file ili :=
      call_of_completes hi.holds hc
    obtain ⟨more, pending', hret, hfile, hholds, hflat, hmore⟩ := holds_append hi.holds w.file ili
    have hacc : (w.step out (.append ili)).accepted = w.accepted ++ [ili] := by
      simp only [Writer.step, hcall, hret, if_true, WriteCall.items]
    refine ⟨more, pending', ⟨?_, hfits hmore, ?_, ?_⟩, hacc, by simp⟩
    · simp only [Writer.step, hcall, hfile]
      rw [hi.file]
      simp [journalBytes]
    · simpa only [Writer.step, hcall] using hholds
    · rw [hacc, hi.accepted, List.flatten_append, List.append_assoc, List.append_assoc, hflat]
  | flush =>
    have hcall : w.call out .flush = indexLoggerFlush completeWrite w.logger w.file :=
      call_of_completes hi.holds hc
    obtain ⟨more, hret, hfile, hholds, hflat, hmore⟩ := holds_flush hi.holds w.file
    have hacc : (w.step out .flush).accepted = w.accepted ++ [] := by
      simp only [Writer.step, hcall, hret, if_true, WriteCall.items]
    refine ⟨more, [], ⟨?_, hfits hmore, ?_, ?_⟩, hacc, fun _ => rfl⟩
    · simp only [Writer.step, hcall, hfile]
      rw [hi.file]
      simp [journalBytes]
    · simpa only [Writer.step, hcall] using hholds
    · rw [hacc, hi.accepted, List.flatten_append, hflat]

/-- Calls with complete writes keep the invariant. -/
lemma Inv.run {calls : List (WriteCall × Option ℕ)} (hi : w.Inv blocks pending)
    (hc : w.Complete calls) : ∃ blocks' pending', (w.run calls).Inv blocks' pending' := by
  induction calls generalizing w blocks pending with
  | nil => exact ⟨blocks, pending, hi⟩
  | cons call calls ih =>
    obtain ⟨more, pending', hi', -⟩ := hi.step hc.1
    exact ih hi' hc.2

/-- The outcome `completeWrite` is complete for every call. -/
lemma Inv.completes (hi : w.Inv blocks pending) (c : WriteCall) : w.Completes completeWrite c := by
  intro _
  refine ⟨_, rfl, ?_⟩
  rw [hi.holds.count_eq]
  exact Nat.add_le_add_right hi.holds.fits _

/-- All items are accepted when every `write` is complete.  Those that are pending were handed over
last, and after the last flush. -/
lemma Inv.run_completeWrite (calls : List WriteCall) (hi : w.Inv blocks pending) :
    ∃ blocks' pending', (w.run (calls.map fun c => (c, completeWrite))).Inv blocks' pending' ∧
      blocks'.flatten ++ pending' = w.accepted ++ calls.flatMap WriteCall.items ∧
      pending' <:+ pending ++ calls.flatMap WriteCall.items ∧
      ∀ before after, calls = before ++ .flush :: after →
        pending' <:+ after.flatMap WriteCall.items := by
  induction calls generalizing w blocks pending with
  | nil =>
    refine ⟨blocks, pending, hi, by simpa using hi.accepted.symm, by simp, fun before after h => ?_⟩
    exact absurd h (by simp)
  | cons c calls ih =>
    obtain ⟨more, pending₁, hi₁, hacc, hflush⟩ := hi.step (hi.completes c)
    obtain ⟨blocks', pending', hi', hflat, hlast, hflushed⟩ := ih hi₁
    have hsplit : more.flatten ++ pending₁ = pending ++ c.items := by
      have hstep := hi₁.accepted.symm.trans hacc
      rw [hi.accepted, List.flatten_append, List.append_assoc, List.append_assoc] at hstep
      exact List.append_cancel_left hstep
    refine ⟨blocks', pending', hi', ?_, ?_, ?_⟩
    · rw [hflat, hacc, List.flatMap_cons, List.append_assoc]
    · rw [List.flatMap_cons, ← List.append_assoc, ← hsplit, List.append_assoc]
      exact hlast.trans (List.suffix_append more.flatten _)
    · intro before after heq
      cases before with
      | nil =>
        obtain ⟨hc, rfl⟩ := List.cons.inj heq
        rwa [hflush hc] at hlast
      | cons c' before =>
        obtain ⟨-, heq'⟩ := List.cons.inj heq
        exact hflushed before after heq'

/-- A new logger has the invariant. -/
lemma inv_create : create.Inv [] [] :=
  ⟨by simp [create, journalBytes], by simp, holds_create, rfl⟩

end Writer

/-- Nothing that was accepted is lost while writes are complete.  In every state that calls with
complete writes lead to, a flush that returns `RET_SUCCESS` leaves a file from which
`index_logger_fetch` reads exactly the items accepted so far, in order, and then nothing. -/
theorem accepted_items_flushed (calls : List (WriteCall × Option ℕ))
    (hc : Writer.create.Complete calls) (out : Option ℕ)
    (hret : ((Writer.create.run calls).call out .flush).ret = 0) (m : ℕ) :
    fetchMany ((Writer.create.run calls).call out .flush).file m indexLoggerOpen =
      ((Writer.create.run calls).accepted.take m).map some ++
        List.replicate (m - (Writer.create.run calls).accepted.length) none := by
  obtain ⟨blocks, pending, hi⟩ := Writer.inv_create.run hc
  obtain ⟨more, pending', hi', hacc, hnil⟩ := hi.step (Writer.completes_of_flush hret)
  obtain rfl := hnil rfl
  have hflat : (Writer.create.run calls).accepted = (blocks ++ more).flatten := by
    have := hi'.accepted
    rw [hacc] at this
    simpa [WriteCall.items] using this
  have hfile : ((Writer.create.run calls).call out .flush).file = journalBytes (blocks ++ more) :=
    hi'.file
  rw [hfile, hflat, fetchMany_of_tailing m (Tailing.opened _) hi'.fits]
  rfl

theorem accepted_items_flushed_one :
    ((Writer.create.run [(.append Session.sampleItem, none)]).call completeWrite .flush).ret = 0 ∧
      fetchMany ((Writer.create.run [(.append Session.sampleItem, none)]).call completeWrite
        .flush).file 2 indexLoggerOpen = [some Session.sampleItem, none] := by
  have hret : ((Writer.create.run [(.append Session.sampleItem, none)]).call completeWrite
      .flush).ret = 0 := by decide +kernel
  refine ⟨hret, ?_⟩
  have hc : Writer.create.Complete [(.append Session.sampleItem, none)] :=
    ⟨fun hfull => absurd hfull (by unfold WriteCall.Writes; decide), trivial⟩
  rw [accepted_items_flushed _ hc _ hret 2]
  rfl

/-- An item is accepted and the flush fails; the next flush succeeds, but the item is gone. -/
theorem accepted_item_lost :
    ¬∀ (calls : List (WriteCall × Option ℕ)) (out : Option ℕ),
      ((Writer.create.run calls).call out .flush).ret = 0 → ∀ m,
        fetchMany ((Writer.create.run calls).call out .flush).file m indexLoggerOpen =
          ((Writer.create.run calls).accepted.take m).map some ++
            List.replicate (m - (Writer.create.run calls).accepted.length) none := by
  intro h
  have hlost := h [(.append Session.sampleItem, none), (.flush, none)] completeWrite
    (by decide +kernel) 1
  revert hlost
  decide +kernel

end Linglongta
