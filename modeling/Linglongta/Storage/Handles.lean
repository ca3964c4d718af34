import Linglongta.Storage.Sessions

/-!
# Handles

The table of block files is global, while every `open_storage` makes a handle of its own.  A process
opens and closes any number of handles, whatever the system answers; `HandleOk` is what a handle
needs for the operations.

Three things go wrong.  `open_storage` sets `inited_global_vars` before it sets up the table, so
after a failure the next call takes the table as it is; `open_index_file` does not report that it
has no journal or no lock; and `close_storage` closes the files of all handles.
`open_handles_usable` says that a process that avoids these has usable handles only.
-/

namespace Linglongta

/-- The table is set up and its files are open. -/
structure TableOpen (w : World) : Prop where
  /-- There is a block file. -/
  types : 1 ≤ w.blockTypeCount
  /-- The descriptors are positive. -/
  opened : ∀ b < w.blockTypeCount, (w.fileHandler b).fdPositive = true

/-- A handle that can be used. -/
structure HandleOk (w : World) (bsp : Handle) : Prop where
  /-- `indexdb` is set. -/
  indexdb : bsp.indexdb = true
  /-- `index_lock` is set. -/
  indexLock : bsp.indexLock = true
  /-- `index_logger` is set. -/
  indexLogger : bsp.indexLogger = true
  /-- The data files are open. -/
  table : TableOpen w

/-- A process, with the handles for which `open_storage` returned `0` and that have not been given
to `close_storage`. -/
structure Process where
  /-- The global variables and the files. -/
  world : World
  /-- The open handles. -/
  handles : List Handle

/-- What a process may call. -/
inductive HandleEvent
  /-- `open_storage`. -/
  | openStorage (o : OpenFaults) (largest : ℕ)
  /-- `close_storage`, of one of the handles. -/
  | closeStorage (c : CloseFaults) (i : ℕ)

namespace Process

/-- One call.  Closing a handle that is not there is not possible. -/
def step (s : Process) : HandleEvent → Option Process
  | .openStorage o largest =>
    let r := openStorage o largest s.world
    some ⟨r.world, if r.ret = 0 then s.handles ++ r.bsp.toList else s.handles⟩
  | .closeStorage c i =>
    match s.handles[i]? with
    | some bsp => some ⟨(closeStorage c bsp s.world).2, s.handles.eraseIdx i⟩
    | none => none

/-- The calls that do not reach the defects: an `open_storage` that gets as far as the index finds
no half-made table and makes a lock and a journal, and a `close_storage` closes the only handle. -/
def Careful (s : Process) : HandleEvent → Prop
  | .openStorage o _ =>
    o.slabCalloc = true → o.directory = true → o.openBdb = true →
      (s.world.inited = true → TableOpen s.world) ∧ o.rwlockNew = true ∧ o.indexLoggerCreate = true
  | .closeStorage _ _ => s.handles.length ≤ 1

/-- What careful calls lead to, from a process that has not opened anything. -/
inductive CarefulRun (w₀ : World) : Process → Prop
  /-- Nothing has been called. -/
  | start : CarefulRun w₀ ⟨w₀, []⟩
  /-- One more call. -/
  | step {s s' : Process} (hr : CarefulRun w₀ s) (e : HandleEvent) (hc : s.Careful e)
      (hstep : s.step e = some s') : CarefulRun w₀ s'

/-- What holds of the process: if there is a handle then the table is set up, and the handles have
their parts. -/
structure Inv (s : Process) : Prop where
  /-- The flag is set. -/
  inited : s.handles ≠ [] → s.world.inited = true
  /-- Every handle can be used. -/
  ok : ∀ bsp ∈ s.handles, HandleOk s.world bsp

end Process

/-! ## Opening -/

section Open

variable {o : OpenFaults} {w : World}

/-- The world `w'` comes from `w` by opening data files, those of the table entries in `bs`. -/
structure Opens (bs : List ℕ) (w w' : World) : Prop where
  /-- The flag is left alone. -/
  inited : w'.inited = w.inited
  /-- The number of block files is left alone. -/
  types : w'.blockTypeCount = w.blockTypeCount
  /-- The descriptors are positive. -/
  opened : ∀ b ∈ bs, (w'.fileHandler b).fdPositive = true
  /-- The other table entries are left alone. -/
  other : ∀ b, b ∉ bs → w'.fileHandler b = w.fileHandler b

/-- Setting a table entry with a positive descriptor. -/
lemma opens_setFileHandler {b : ℕ} {fh : BlockFile} (hfh : fh.fdPositive = true) :
    Opens [b] w (w.setFileHandler b fh) := by
  refine ⟨rfl, rfl, fun b' hb' => ?_, fun b' hb' => ?_⟩
  · obtain rfl := List.mem_singleton.1 hb'
    simpa using hfh
  · rw [World.fileHandler_setFileHandler, Function.update_of_ne fun heq => hb' (by simp [heq])]

lemma loadDataFile_opens {b : ℕ} {file : ByteFile} (h : (loadDataFile o b file w).1 = 0) :
    Opens [b] w (loadDataFile o b file w).2 := by
  unfold loadDataFile at h ⊢
  cases hopen : o.openFile b with
  | false => simp [hopen] at h
  | true =>
    simp only [hopen, Bool.true_eq_false, if_false] at h ⊢
    cases hn : (o.readHeader b).count (min dataSectionPos file.size) with
    | none => simp [hn] at h
    | some n => exact opens_setFileHandler rfl

lemma createDataFile_opens {b : ℕ} (h : (createDataFile o b w).1 = 0) :
    Opens [b] w (createDataFile o b w).2 := by
  unfold createDataFile at h ⊢
  cases hopen : o.openFile b with
  | false => simp [hopen] at h
  | true =>
    simp only [Bool.true_eq_false, if_false]
    obtain ⟨-, -, hopened, hother⟩ := opens_setFileHandler (w := w) (b := b)
      (show (BlockFile.new (w.blockSizeArray b)).fdPositive = true from rfl)
    exact ⟨rfl, rfl, hopened, hother⟩

lemma openDataFile_opens {b : ℕ} (h : (openDataFile o b w).1 = 0) :
    Opens [b] w (openDataFile o b w).2 := by
  unfold openDataFile at h ⊢
  cases hfile : w.disk (.data (w.blockSizeArray b)) with
  | none =>
    rw [hfile] at h
    exact createDataFile_opens h
  | some file =>
    rw [hfile] at h
    cases hacc : o.access b with
    | true =>
      simp only [hacc, if_true] at h ⊢
      exact loadDataFile_opens h
    | false =>
      simp only [hacc, Bool.false_eq_true, if_false] at h ⊢
      exact createDataFile_opens h

/-- Opening all data files of a list. -/
lemma openDataFiles_opens (bs : List ℕ) (h : (openDataFiles o bs w).1 = 0) :
    Opens bs w (openDataFiles o bs w).2 := by
  induction bs generalizing w with
  | nil => exact ⟨rfl, rfl, by simp, fun _ _ => rfl⟩
  | cons b bs ih =>
    rw [openDataFiles] at h ⊢
    by_cases hret : (openDataFile o b w).1 = 0
    · rw [if_neg (not_not.2 hret)] at h ⊢
      have hb := openDataFile_opens hret
      have hbs := ih h
      refine ⟨hbs.inited.trans hb.inited, hbs.types.trans hb.types, fun b' hb' => ?_, ?_⟩
      · by_cases hmem : b' ∈ bs
        · exact hbs.opened b' hmem
        · rw [hbs.other b' hmem]
          exact hb.opened b' (by simpa [hmem] using hb')
      · intro b' hb'
        rw [hbs.other b' fun hmem => hb' (List.mem_cons_of_mem _ hmem)]
        exact hb.other b' fun hmem => hb' (by simp [List.mem_singleton.1 hmem])
    · rw [if_pos hret] at h
      simp at h

/-- The table has a block file. -/
lemma one_le_tableOf (largest : ℕ) : 1 ≤ (tableOf largest).blockTypeCount := by
  obtain ⟨-, -, htable⟩ := tableOf_spec largest
  refine (htable 0).2 ⟨by decide, ?_⟩
  unfold effectiveSize
  split
  · decide
  · omega

/-- If the global variables could be set up, the table is open. -/
lemma openGlobals_opened {largest : ℕ} (hinit : w.inited = false)
    (h : (openGlobals o largest w).1 = 0) :
    (openGlobals o largest w).2.inited = true ∧ TableOpen (openGlobals o largest w).2 := by
  unfold openGlobals at h ⊢
  rw [hinit] at h ⊢
  simp only [Bool.false_eq_true, if_false] at h ⊢
  by_cases hret : (initStorage largest { w with inited := true }).1 = 0
  · rw [if_neg (not_not.2 hret)] at h ⊢
    simp only at h ⊢
    split at h
    · exact absurd h (by decide)
    · rename_i hdata
      have hopens := openDataFiles_opens _ (not_not.1 hdata)
      refine ⟨hopens.inited, ?_, ?_⟩
      · rw [hopens.types]
        exact one_le_tableOf largest
      · intro b hb
        rw [hopens.types] at hb
        exact hopens.opened b (List.mem_range.2 hb)
  · rw [if_pos hret] at h
    simp at h

/-- What a careful `open_storage` does: either it makes a handle that can be used, or it makes none
and leaves a table that was open alone. -/
lemma openStorage_careful (largest : ℕ)
    (hc : o.slabCalloc = true → o.directory = true → o.openBdb = true →
      (w.inited = true → TableOpen w) ∧ o.rwlockNew = true ∧ o.indexLoggerCreate = true) :
    ((openStorage o largest w).ret = 0 ∧ (openStorage o largest w).world.inited = true ∧
      (openStorage o largest w).bsp = some ⟨true, true, true⟩ ∧
      TableOpen (openStorage o largest w).world) ∨
    ((openStorage o largest w).ret ≠ 0 ∧
      (w.inited = true → (openStorage o largest w).world = w)) := by
  have hkeep : w.inited = true → openGlobals o largest w = (0, w) := by
    intro hinit
    unfold openGlobals
    rw [if_pos hinit]
  unfold openStorage
  cases hmem : o.slabCalloc with
  | false => exact Or.inr ⟨by simp, fun _ => rfl⟩
  | true =>
    cases hdir : o.directory with
    | false => exact Or.inr ⟨by simp, fun _ => rfl⟩
    | true =>
      simp only [Bool.true_eq_false, if_false]
      by_cases hg : (openGlobals o largest w).1 = 0
      · rw [if_neg (not_not.2 hg)]
        unfold openIndexFile
        cases hbdb : o.openBdb with
        | false =>
          right
          simp only [if_true]
          exact ⟨by decide, fun hinit => by rw [hkeep hinit]⟩
        | true =>
          obtain ⟨htable, hlock, hlog⟩ := hc hmem hdir hbdb
          have hopened : (openGlobals o largest w).2.inited = true ∧
              TableOpen (openGlobals o largest w).2 := by
            cases hinit : w.inited with
            | true =>
              rw [hkeep hinit]
              exact ⟨hinit, htable hinit⟩
            | false => exact openGlobals_opened hinit hg
          left
          simp only [hlog, hlock, Bool.true_eq_false, if_false]
          exact ⟨trivial, hopened.1, trivial, hopened.2.types, hopened.2.opened⟩
      · rw [if_pos hg]
        exact Or.inr ⟨hg, fun hinit => absurd (by rw [hkeep hinit]) hg⟩

end Open

/-! ## Every run -/

namespace Process

variable {w₀ : World} {s s' : Process}

/-- A careful call keeps the handles usable. -/
lemma Inv.step (hi : Inv s) {e : HandleEvent} (hc : s.Careful e) (hstep : s.step e = some s') :
    Inv s' := by
  cases e with
  | openStorage o largest =>
    obtain rfl := Option.some.inj hstep
    rcases openStorage_careful largest hc with ⟨hret, hinit, hbsp, htable⟩ | ⟨hret, hkeep⟩
    · refine ⟨fun _ => hinit, fun bsp hmem => ?_⟩
      simp only [hret, if_true, hbsp, Option.toList_some, List.mem_append,
        List.mem_singleton] at hmem
      rcases hmem with hmem | rfl
      · have hold := hi.ok bsp hmem
        exact ⟨hold.indexdb, hold.indexLock, hold.indexLogger, htable⟩
      · exact ⟨rfl, rfl, rfl, htable⟩
    · simp only [hret, if_false]
      refine ⟨fun hne => ?_, fun bsp hmem => ?_⟩
      · rw [hkeep (hi.inited hne)]
        exact hi.inited hne
      · rw [hkeep (hi.inited (List.ne_nil_of_mem hmem))]
        exact hi.ok bsp hmem
  | closeStorage c i =>
    simp only [Process.step] at hstep
    cases hget : s.handles[i]? with
    | none => simp [hget] at hstep
    | some bsp =>
      rw [hget] at hstep
      obtain rfl := Option.some.inj hstep
      -- the handle was the only one
      have hi' : i < s.handles.length := (List.getElem?_eq_some_iff.1 hget).1
      have hlen : (s.handles.eraseIdx i).length = 0 := by
        rw [List.length_eraseIdx_of_lt hi']
        have hone : s.handles.length ≤ 1 := hc
        omega
      have hnil : s.handles.eraseIdx i = [] := List.eq_nil_of_length_eq_zero hlen
      exact ⟨fun hne => absurd hnil hne, fun bsp hmem => by simp [hnil] at hmem⟩

/-- A careful run keeps the handles usable. -/
lemma CarefulRun.inv (hr : CarefulRun w₀ s) : Inv s := by
  induction hr with
  | start => exact ⟨fun hne => absurd rfl hne, fun bsp hmem => absurd hmem (List.not_mem_nil)⟩
  | step _ e hc hstep ih => exact ih.step hc hstep

end Process

/-- Open handles are usable.  In every state that a process reaches by any sequence of
`open_storage` and `close_storage` calls, with any number of handles and whatever the system
answers, every open handle can be used, as long as no `open_storage` gets as far as the index with a
half-made table or without a lock or a journal, and no handle is closed while there are others. -/
theorem open_handles_usable {w₀ : World} {s : Process} (hr : s.CarefulRun w₀) {bsp : Handle}
    (hmem : bsp ∈ s.handles) : HandleOk s.world bsp :=
  hr.inv.ok bsp hmem

theorem open_handles_usable_two_handles :
    ∃ s : Process, s.CarefulRun World.empty ∧ s.handles = [⟨true, true, true⟩, ⟨true, true, true⟩] ∧
      HandleOk s.world ⟨true, true, true⟩ := by
  obtain ⟨w, hopen, hinit, -⟩ := openStorage_spec 1024 (w := World.empty) rfl
    (fun n file hfile => by simp [World.empty] at hfile) (by decide)
  have hstep₁ : Process.step ⟨World.empty, []⟩ (.openStorage {} 1024) =
      some ⟨w, [⟨true, true, true⟩]⟩ := by
    simp [Process.step, hopen]
  have hrun₁ : Process.CarefulRun World.empty ⟨w, [⟨true, true, true⟩]⟩ := by
    refine .step .start (.openStorage {} 1024) (fun _ _ _ => ⟨fun h => ?_, rfl, rfl⟩) hstep₁
    exact absurd h (by decide)
  have htable : TableOpen w := (open_handles_usable hrun₁ List.mem_cons_self).table
  have hstep₂ : Process.step ⟨w, [⟨true, true, true⟩]⟩ (.openStorage {} 1024) =
      some ⟨{ w with logger := indexLoggerCreate, journal := magicHeader },
        [⟨true, true, true⟩, ⟨true, true, true⟩]⟩ := by
    simp [Process.step, openStorage_inited hinit]
  have hrun₂ := hrun₁.step (.openStorage {} 1024) (fun _ _ _ => ⟨fun _ => htable, rfl, rfl⟩) hstep₂
  exact ⟨_, hrun₂, rfl, open_handles_usable hrun₂ List.mem_cons_self⟩

/-- After a failed `open_storage`, the next one returns `0` with a handle whose data files are not
open. -/
theorem reopen_after_failure_unusable :
    ∃ s s' : Process, Process.step ⟨World.empty, []⟩ (.openStorage {} (2 ^ 27)) = some s ∧
      s.step (.openStorage {} (2 ^ 27)) = some s' ∧ s'.handles = [⟨true, true, true⟩] ∧
      ¬ HandleOk s'.world ⟨true, true, true⟩ := by
  have hlimit : beginningSize * 2 ^ maxBlockCnt ≤ effectiveSize (2 ^ 27) := by decide
  have hfail := openStorage_too_large (w := World.empty) rfl hlimit
  have hstep : Process.step ⟨World.empty, []⟩ (.openStorage {} (2 ^ 27)) =
      some ⟨(initStorage (2 ^ 27) { World.empty with inited := true }).2, []⟩ := by
    simp only [Process.step, hfail]
    rfl
  have hreopen := openStorage_inited
    (w := (initStorage (2 ^ 27) { World.empty with inited := true }).2) rfl (2 ^ 27)
  refine ⟨_, _, hstep, rfl, ?_, fun hok => ?_⟩
  · simp only [hreopen]
    rfl
  · have hopened := hok.table.opened 0 hok.table.types
    simp only [hreopen] at hopened
    exact absurd hopened (by decide)

end Linglongta
