import Linglongta.Storage.DataFiles

/-!
# Sessions

`Lived` is everything that can happen to a store from the start of a process in an empty directory:
it is opened, used by any calls under any answers of the system, closed, and opened again with the
same or a larger table of block files.  Every store that is open in it is usable (`Lived.usable`).
-/

namespace Linglongta

open Prog

/-- Whether the store is open. -/
inductive Phase
  /-- It is not open. -/
  | closed
  /-- It is open and these locks are held; none if the process has been stopped. -/
  | opened (h : Option (Held store))

/-- What can happen to a store.  The number is the largest size with which it has been opened. -/
inductive Lived : ℕ → Phase → World → Prop
  /-- The process has just been started. -/
  | start {w : World} (hb : Blank w) : Lived 0 .closed w
  /-- The store is opened. -/
  | openStore {n largest : ℕ} {w w' : World} {bsp : Option Handle} (hl : Lived n .closed w)
      (hsize : n ≤ effectiveSize largest) (hopen : openStorage {} largest w = ⟨0, bsp, w'⟩) :
      Lived (effectiveSize largest) (.opened (some [])) w'
  /-- A call is made. -/
  | call {n : ℕ} {h : Held store} {w : World} (hl : Lived n (.opened (some h)) w) (f : Faults)
      (c : Call) :
      Lived n (.opened (exec (handle f) c.prog h w).held?) (exec (handle f) c.prog h w).world
  /-- The store is closed. -/
  | closeStore {n : ℕ} {h : Held store} {w : World} (hl : Lived n (.opened (some h)) w)
      (c : CloseFaults) (bsp : Handle) : Lived n .closed (closeStorage c bsp w).2

/-! ## Closing -/

section Close

variable {c : CloseFaults} {w : World}

/-- A property that one round of the loop of `close_storage` keeps is kept by the loop, and the loop
reaches its end. -/
lemma closeDataFiles_spec {P : World → Prop} (bs : List ℕ) (hnodup : bs.Nodup)
    (hpos : ∀ b ∈ bs, (w.fileHandler b).fdPositive = true)
    (hstep : ∀ w, ∀ b ∈ bs, (w.fileHandler b).fdPositive = true → P w →
      P (w.syncHeader { pwrite := fun _ => c.pwrite } b |>.setFileHandler b
        { w.fileHandler b with fd := none }))
    (hw : P w) : (closeDataFiles c bs w).1 = true ∧ P (closeDataFiles c bs w).2 := by
  induction bs generalizing w with
  | nil => exact ⟨rfl, hw⟩
  | cons b bs ih =>
    obtain ⟨hnot, hnodup'⟩ := List.nodup_cons.1 hnodup
    rw [closeDataFiles, if_pos (hpos b (by simp))]
    refine ih hnodup' ?_ (fun w b' hb' => hstep w b' (by simp [hb'])) ?_
    · intro b' hb'
      have hne : b' ≠ b := fun heq => hnot (heq ▸ hb')
      rw [World.fileHandler_setFileHandler, Function.update_of_ne hne, World.fileHandler_pwrite]
      exact hpos b' (by simp [hb'])
    · rw [World.fileHandler_pwrite]
      exact hstep w b (by simp) (hpos b (by simp)) hw

/-- What `close_storage` leaves. -/
lemma closeStorage_spec {P : World → Prop} (bsp : Handle) (hu : Usable w)
    (hstep : ∀ w', ∀ b < w.blockTypeCount, (w'.fileHandler b).fdPositive = true → P w' →
      P (w'.syncHeader { pwrite := fun _ => c.pwrite } b |>.setFileHandler b
        { w'.fileHandler b with fd := none }))
    (hw : P w) : (c.closeBdb = 0 → (closeStorage c bsp w).1 = 0) ∧
      ∃ w', P w' ∧ (closeStorage c bsp w).2.inited = false ∧
        (closeStorage c bsp w).2.disk = w'.disk ∧ (closeStorage c bsp w).2.index = w'.index := by
  have hpos : ∀ b ∈ List.range w.blockTypeCount, (w.fileHandler b).fdPositive = true :=
    fun b hb => hu.ready.opened b (List.mem_range.1 hb)
  obtain ⟨hend, hP⟩ := closeDataFiles_spec (P := P) (c := c) (List.range w.blockTypeCount)
    List.nodup_range hpos (fun w' b hb => hstep w' b (List.mem_range.1 hb)) hw
  refine ⟨?_, _, hP, ?_⟩
  · intro hbdb
    unfold closeStorage
    simp only [hu.inited, hend, if_true, Bool.true_eq_false, if_false, hbdb, ne_eq,
      not_true_eq_false, and_false]
    split
    · rfl
    · rfl
  · unfold closeStorage
    simp only [hu.inited, hend, if_true, Bool.true_eq_false, if_false]
    split
    · exact ⟨rfl, rfl, rfl⟩
    · split
      · exact ⟨rfl, rfl, rfl⟩
      · exact ⟨rfl, rfl, rfl⟩

end Close

/-! ## Opening -/

/-- The block files of the table for a largest size. -/
def InTable (n b : ℕ) : Prop :=
  b < maxBlockCnt ∧ beginningSize * 2 ^ b ≤ n

/-- A larger table has the block files of a smaller one. -/
lemma InTable.mono {m n b : ℕ} (hb : InTable m b) (hmn : m ≤ n) : InTable n b :=
  ⟨hb.1, hb.2.trans hmn⟩

/-- A store that is not open, but was opened with a largest size of `n`. -/
structure Closed (n : ℕ) (w : World) : Prop where
  /-- The global variables are not set up. -/
  inited : w.inited = false
  /-- The data files have whole headers. -/
  whole : HeadersWhole w.disk
  /-- Every index entry names a file of the table. -/
  indexed : ∀ k iv, w.index k = some iv → InTable n iv.blockId

/-- A store that is open, with a largest size of `n`. -/
structure Opened (n : ℕ) (w : World) : Prop where
  /-- It can be used. -/
  usable : Usable w
  /-- Its table. -/
  table : ∀ b, b < w.blockTypeCount ↔ InTable n b

/-- Opening a closed store with the same or a larger table. -/
lemma Closed.opened {n largest : ℕ} {w w' : World} {bsp : Option Handle} (hc : Closed n w)
    (hsize : n ≤ effectiveSize largest) (hopen : openStorage {} largest w = ⟨0, bsp, w'⟩) :
    Opened (effectiveSize largest) w' := by
  have hlimit := effectiveSize_of_open hc.inited (congrArg OpenResult.ret hopen)
  obtain ⟨w'', hopen', hinit, hcfg, hindex, -, -, hentry, hother⟩ :=
    openStorage_spec largest hc.inited hc.whole hlimit
  obtain rfl : w' = w'' := congrArg OpenResult.world (hopen.symm.trans hopen')
  have hcount : w'.blockTypeCount = (tableOf largest).blockTypeCount :=
    congrArg Config.blockTypeCount hcfg
  have hsizes : w'.blockSizeArray = (tableOf largest).blockSizeArray :=
    congrArg Config.blockSizeArray hcfg
  obtain ⟨htypes, hsize', htable⟩ := tableOf_spec largest
  refine ⟨⟨hinit, hcount ▸ htypes, ?_, ?_, ?_, ?_, ?_⟩, ?_⟩
  · rw [hcount, hsizes]
    exact hsize'
  · intro b hb
    rw [(hentry b (hcount ▸ hb)).1, hsizes]
    unfold loadedEntry
    split
    · rfl
    · rfl
  · intro k iv hk
    rw [hindex] at hk
    rw [hcount, htable]
    exact (hc.indexed k iv hk).mono hsize
  · intro b hb
    rw [hsizes, (hentry b (hcount ▸ hb)).2]
    simp
  · intro m file hfile
    by_cases hm : ∃ b < (tableOf largest).blockTypeCount, m = (tableOf largest).blockSizeArray b
    · obtain ⟨b, hb, rfl⟩ := hm
      obtain rfl : loadedFile w.disk ((tableOf largest).blockSizeArray b) = file := by
        simpa [(hentry b hb).2] using hfile
      unfold loadedFile
      cases hd : w.disk (.data ((tableOf largest).blockSizeArray b)) with
      | some file' => exact hc.whole _ file' hd
      | none => exact dataSectionPos_le_newFile _
    · refine hc.whole m file ?_
      rw [← hother (.data m)]
      · exact hfile
      · intro b hb heq
        exact hm ⟨b, hb, by simpa using heq⟩
  · intro b
    rw [hcount, htable]
    exact Iff.rfl

/-- Closing an open store. -/
lemma Opened.closed {n : ℕ} {w : World} (ho : Opened n w) (c : CloseFaults) (bsp : Handle) :
    Closed n (closeStorage c bsp w).2 := by
  have hindexed : ∀ k iv, w.index k = some iv → InTable n iv.blockId :=
    fun k iv hk => (ho.table _).1 (ho.usable.indexed k iv hk)
  obtain ⟨-, w', ⟨hwhole, hindex⟩, hinit, hdisk, hindex'⟩ := closeStorage_spec (c := c)
    (P := fun w' => HeadersWhole w'.disk ∧ w'.index = w.index) bsp ho.usable
    (fun w' b _ _ hw' => ⟨hw'.1.pwrite _ _ _ _, by simpa using hw'.2⟩) ⟨ho.usable.whole, rfl⟩
  refine ⟨hinit, hdisk ▸ hwhole, ?_⟩
  rw [hindex', hindex]
  exact hindexed

/-- A call. -/
lemma Opened.call {n : ℕ} {w : World} (ho : Opened n w) {h : Held store} (hh : OnlyLeaked h)
    (f : Faults) (c : Call) : Opened n (exec (handle f) c.prog h w).world := by
  obtain ⟨hu, hcfg⟩ := ((Usable.kept f).config w.config).call ⟨ho.usable, rfl⟩ hh c
  refine ⟨hu, fun b => ?_⟩
  have hcount : (exec (handle f) c.prog h w).world.blockTypeCount = w.blockTypeCount :=
    congrArg Config.blockTypeCount hcfg
  rw [hcount]
  exact ho.table b

/-! ## Every session -/

/-- What holds in each phase of the life of a store. -/
def Phase.Ok (n : ℕ) (w : World) : Phase → Prop
  | closed => Closed n w
  | opened h => Opened n w ∧ ∀ h', h = some h' → OnlyLeaked h'

/-- Whatever happens to a store. -/
lemma Lived.ok {n : ℕ} {p : Phase} {w : World} (hl : Lived n p w) : p.Ok n w := by
  induction hl with
  | start hb =>
    exact ⟨hb.closed, fun m file hfile => by simp [hb.noFile m] at hfile,
      fun k iv hk => by simp [hb.noEntry k] at hk⟩
  | openStore hl hsize hopen ih =>
    refine ⟨Closed.opened ih hsize hopen, ?_⟩
    rintro h' ⟨⟩
    intro x hx
    simp at hx
  | call hl f c ih =>
    have hh := ih.2 _ rfl
    exact ⟨ih.1.call hh f c, fun h' => call_held ih.1.usable.ready hh f c⟩
  | closeStore hl c bsp ih => exact ih.1.closed c bsp

/-- Every open store can be used. -/
lemma Lived.usable {n : ℕ} {h : Option (Held store)} {w : World} (hl : Lived n (.opened h) w) :
    Usable w :=
  hl.ok.1.usable

/-- The locks that are left in an open store. -/
lemma Lived.onlyLeaked {n : ℕ} {h : Held store} {w : World} (hl : Lived n (.opened (some h)) w) :
    OnlyLeaked h :=
  hl.ok.2 h rfl

/-! ## A small store -/

/-- A store with block files up to 1024 bytes, just created. -/
lemma exists_small_store :
    ∃ w, openStorage {} 1024 World.empty = ⟨0, some ⟨true, true, true⟩, w⟩ ∧
      Lived 1024 (.opened (some [])) w ∧ w.config = tableOf 1024 ∧ (w.index = fun _ => none) ∧
      w.fileHandler 0 = BlockFile.new 128 ∧ w.file 0 = some (newFile 128) := by
  obtain ⟨w, hopen, -, hcfg, hindex, -, -, hfiles, -⟩ := openStorage_spec 1024 (w := World.empty)
    rfl (fun n file hfile => by simp [World.empty] at hfile) (by decide)
  obtain ⟨hentry, hfile⟩ := hfiles 0 (by decide)
  have hsize : (tableOf 1024).blockSizeArray 0 = 128 := by decide
  rw [hsize] at hentry hfile
  refine ⟨w, hopen, (Lived.start blank_empty).openStore (Nat.zero_le _) hopen, hcfg, hindex, hentry,
    ?_⟩
  rw [World.file, hentry]
  exact hfile

/-- The size class of a record of one byte in that store. -/
lemma sizeClass_one : (tableOf 1024).sizeClass 1 = 0 := by decide

section SmallStore

variable {w : World}

lemma small_blockSize (hcfg : w.config = tableOf 1024) : w.blockSizeArray 0 = 128 := by
  have hsizes : w.blockSizeArray = (tableOf 1024).blockSizeArray :=
    congrArg Config.blockSizeArray hcfg
  rw [hsizes]
  decide

/-- The first update of that store. -/
lemma small_update (hl : Lived 1024 (.opened (some [])) w) (hcfg : w.config = tableOf 1024)
    (hindex : w.index = fun _ => none) (key : List UInt8) :
    exec (handle noFaults) (updateBlock key [2]) [] w =
      .returned { ret := 0 } [] (w.appended noFaults 0 (fixedKey key) [2]) := by
  have hcls : w.config.sizeClass [(2 : UInt8)].length = 0 := hcfg ▸ sizeClass_one
  have hend : w.updateEnding noFaults (fixedKey key) [2] =
      ⟨some 0, w.appended noFaults 0 (fixedKey key) [2]⟩ := by
    unfold World.updateEnding World.insertEnding
    rw [hcls]
    simp [noFaults, hindex, small_blockSize hcfg]
  rw [exec_updateBlock hl.usable.ready hl.onlyLeaked.fileFree key [2] (by simp [Admits]), hend]
  rfl

/-- The record that it writes lies at the beginning of the file. -/
lemma small_update_range (hl : Lived 1024 (.opened (some [])) w) (hcfg : w.config = tableOf 1024)
    (hindex : w.index = fun _ => none) (hentry : w.fileHandler 0 = BlockFile.new 128)
    (key : List UInt8) :
    ∀ r ∈ recordWrites (requests (handle noFaults) (updateBlock key [2]) [] w),
      r.2.1 + r.2.2.length ≤ offMax := by
  have hcls : w.config.sizeClass [(2 : UInt8)].length = 0 := hcfg ▸ sizeClass_one
  have hwrites : w.updateWrites noFaults (fixedKey key) [2] =
      [(0, (BlockFile.new 128).takeSlot.1, [2])] := by
    unfold World.updateWrites World.insertWrites
    rw [hcls]
    simp [noFaults, hindex, small_blockSize hcfg, hentry]
  rw [recordWrites_updateBlock hl.usable.ready hl.onlyLeaked.fileFree key [2] (by simp [Admits]),
    hwrites]
  intro r hr
  obtain rfl := List.mem_singleton.1 hr
  decide

end SmallStore

end Linglongta
