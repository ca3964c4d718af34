import Linglongta.Storage.CrashSafety

/-!
# The headers on disk mirror the memory

The three counters of a table entry and the entries of its list of free slots are written at
different places: `append_block` writes the counters only, and zeroes the popped entry in memory
only; `do_delete_block` writes the counters and the one entry that it pushes.  As long as all
writes to the data files are complete, this is enough.

`Unbroken` is the part of the life of a store in which they are complete and every call returns.
All its open stores are sound (`Unbroken.whole`), so the header of every file can be decoded to the
table entry, and `open_storage` makes the same table again (`Sound.restored`).
-/

namespace Linglongta

open Prog

/-! ## Unbroken runs -/

/-- How an open store `w` is left: the process exits, or `close_storage` is called first. -/
inductive Leaves (w : World) : World → Prop
  /-- The process exits and another one is started. -/
  | exit {w' : World} (hr : Rests w w') : Leaves w w'
  /-- The store is closed, and the writes of the headers are complete. -/
  | close {c : CloseFaults} (hc : ∀ b, c.pwrite b = .complete) (bsp : Handle) :
      Leaves w (closeStorage c bsp w).2

/-- What can happen to a store when all writes to the data files are complete and every call
returns.  The number is the largest size with which it has been opened. -/
inductive Unbroken : ℕ → Phase → World → Prop
  /-- The process has just been started in an empty directory. -/
  | start {w : World} (hb : Blank w) : Unbroken 0 .closed w
  /-- The store is opened: its files are loaded, and those that are missing are created. -/
  | openStore {n largest : ℕ} {w w' : World} {bsp : Option Handle} (hl : Unbroken n .closed w)
      (hsize : n ≤ effectiveSize largest) (hopen : openStorage {} largest w = ⟨0, bsp, w'⟩) :
      Unbroken (effectiveSize largest) (.opened (some [])) w'
  /-- A call returns.  Only its writes have to be complete: the index and the journal may fail. -/
  | call {n : ℕ} {h h' : Held store} {w w' : World} (hl : Unbroken n (.opened (some h)) w)
      {f : Faults} (hf : f.Writes) {c : Call}
      (hrange : ∀ r ∈ recordWrites (requests (handle f) c.prog h w),
        r.2.1 + r.2.2.length ≤ offMax)
      {r : Reply} (hexec : exec (handle f) c.prog h w = .returned r h' w') :
      Unbroken n (.opened (some h')) w'
  /-- The store is left. -/
  | leave {n : ℕ} {h : Held store} {w w' : World} (hl : Unbroken n (.opened (some h)) w)
      (hw : Leaves w w') : Unbroken n .closed w'

/-! ## The table that is loaded -/

/-- The table of `w'` is that of `w`, with new files behind it if it has grown. -/
structure SameTable (w w' : World) : Prop where
  /-- The table has not become smaller. -/
  count : w.blockTypeCount ≤ w'.blockTypeCount
  /-- The old entries. -/
  old : ∀ b < w.blockTypeCount, SameEntry (w.fileHandler b) (w'.fileHandler b)
  /-- The new entries. -/
  new : ∀ b, w.blockTypeCount ≤ b → b < w'.blockTypeCount →
    w'.fileHandler b = BlockFile.new (w'.blockSizeArray b)

section Restored

variable {w₁ w w' : World}

/-- The header of every file is decoded to its table entry. -/
lemma Sound.decoded (hs : Sound w) {b : ℕ} (hb : b < w.blockTypeCount) :
    ∃ file, w.file b = some file ∧ w.disk (.data (w.blockSizeArray b)) = some file ∧
      SameEntry (w.fileHandler b)
        (BlockFile.ofFile (.data (w.blockSizeArray b)) file dataSectionPos) := by
  obtain ⟨file, hfile, hh⟩ := hs.mirrored b hb
  have hfd := hs.usable.opened b hb
  refine ⟨file, hfile, ?_, hh.sameEntry (hs.slots.room b hb) hfd⟩
  rw [World.file, hfd] at hfile
  exact hfile

/-- A sound store that is opened again has the same table. -/
lemma Reopened.sameTable (hr : Reopened w₁ w') (hs : Sound w₁) : SameTable w₁ w' := by
  refine ⟨hr.count, ?_, fun b hge hb => (hr.new b hge hb).1⟩
  intro b hb
  obtain ⟨file, -, hdisk, hsame⟩ := hs.decoded hb
  rw [(hr.old b hb).1, loadedEntry, hdisk]
  exact hsame

/-- What is left of a sound store belongs to a sound store with the same table entries. -/
lemma Leaves.rests (hw : Leaves w w') (hs : Sound w) :
    ∃ w₁, Sound w₁ ∧ w₁.config = w.config ∧ w₁.fileHandler = w.fileHandler ∧ Rests w₁ w' := by
  cases hw with
  | exit hr => exact ⟨w, hs, rfl, rfl, hr⟩
  | close hc bsp =>
    exact (close_rests bsp hs.usable (fun w b hs hb => hs.syncHeader (fun _ => hc) hb) hs).2

/-- A sound store can be opened again with the same or a larger table, and has the same table
entries then. -/
lemma Sound.restored (hs : Sound w) {n largest : ℕ}
    (htable : ∀ b, b < w.blockTypeCount ↔ InTable n b) (hw : Leaves w w')
    (hsize : n ≤ effectiveSize largest)
    (hlimit : effectiveSize largest < beginningSize * 2 ^ maxBlockCnt) :
    ∃ w'', openStorage {} largest w' = ⟨0, some ⟨true, true, true⟩, w''⟩ ∧ SameTable w w'' ∧
      (effectiveSize largest = n → w''.blockTypeCount = w.blockTypeCount) := by
  obtain ⟨w₁, hs₁, hcfg, hentry, hrest⟩ := hw.rests hs
  have hcount : w₁.blockTypeCount = w.blockTypeCount := congrArg Config.blockTypeCount hcfg
  have hgrow : ∀ b < w₁.blockTypeCount, InTable (effectiveSize largest) b :=
    fun b hb => ((htable b).1 (hcount ▸ hb)).mono hsize
  have hc := hrest.closed hs₁.usable hgrow
  obtain ⟨w'', hopen, -⟩ := openStorage_spec largest hc.inited hc.whole hlimit
  have hsame := (hrest.reopened hs₁.usable hs₁.tight hgrow hopen).sameTable hs₁
  refine ⟨w'', hopen, ⟨hcount ▸ hsame.count, ?_, ?_⟩, ?_⟩
  · intro b hb
    rw [← hentry]
    exact hsame.old b (hcount ▸ hb)
  · intro b hge hb
    exact hsame.new b (hcount ▸ hge) hb
  · intro heq
    have htable' := (hc.opened le_rfl hopen).table
    rw [heq] at htable'
    have hiff : ∀ b, b < w''.blockTypeCount ↔ b < w.blockTypeCount :=
      fun b => (htable' b).trans (htable b).symm
    exact Nat.le_antisymm (Nat.not_lt.1 fun hlt => lt_irrefl _ ((hiff _).1 hlt))
      (Nat.not_lt.1 fun hlt => lt_irrefl _ ((hiff _).2 hlt))

end Restored

/-! ## Every unbroken run -/

/-- What holds in each phase of an unbroken run. -/
def Phase.Whole (n : ℕ) (w : World) : Phase → Prop
  | closed => ∃ w₁, Sound w₁ ∧ (∀ b < w₁.blockTypeCount, InTable n b) ∧ Rests w₁ w
  | opened h => Sound w ∧ (∀ b, b < w.blockTypeCount ↔ InTable n b) ∧
      ∀ h', h = some h' → OnlyLeaked h'

/-- Whatever happens in an unbroken run. -/
lemma Unbroken.whole {n : ℕ} {p : Phase} {w : World} (hl : Unbroken n p w) : p.Whole n w := by
  induction hl with
  | start hb => exact ⟨_, hb.sound, fun b hb' => absurd hb' (Nat.not_lt_zero b), hb.rests⟩
  | openStore hl hsize hopen ih =>
    obtain ⟨w₁, hs, htable, hrest⟩ := ih
    have hgrow := fun b hb => (htable b hb).mono hsize
    have hc := hrest.closed hs.usable hgrow
    refine ⟨(hrest.reopened hs.usable hs.tight hgrow hopen).sound hs,
      (hc.opened le_rfl hopen).table, ?_⟩
    rintro h' ⟨⟩
    exact fun x hx => absurd hx List.not_mem_nil
  | @call n h h' w w' hl f hf c hrange r hexec ih =>
    obtain ⟨hs, htable, hleaked⟩ := ih
    have hh := hleaked h rfl
    obtain ⟨hs', hcfg⟩ := hs.call_of_writes hf hh hrange hexec
    have hcount : w'.blockTypeCount = w.blockTypeCount := congrArg Config.blockTypeCount hcfg
    refine ⟨hs', fun b => ?_, ?_⟩
    · rw [hcount]
      exact htable b
    · rintro h' ⟨⟩
      refine call_held hs.usable.ready hh f c ?_
      rw [hexec]
      rfl
  | @leave n h w w' hl hw ih =>
    obtain ⟨hs, htable, -⟩ := ih
    obtain ⟨w₁, hs₁, hcfg, -, hrest⟩ := hw.rests hs
    have hcount : w₁.blockTypeCount = w.blockTypeCount := congrArg Config.blockTypeCount hcfg
    exact ⟨w₁, hs₁, fun b hb => (htable b).1 (hcount ▸ hb), hrest⟩

end Linglongta
