import Linglongta.IndexLog.Format
import Linglongta.Storage.Sessions

/-!
# Replaying the journal

Every operation of the store that changes the index puts an item into the journal of the session.
`replay` folds the items of a journal over the contents of an index; `journal_replays` says that the
journal of a session, flushed and read back, leads from the index at the opening of the store to the
index as it is.

The writes to the data files may fail.  The invariant `Journaled` is about what the index and the
journal are given, and it is `Kept` by every call that does not lose an index operation or a journal
block.
-/

namespace Linglongta

open Prog

/-- What the index holds: under each key the image of an index value. -/
abbrev Contents : Type := Key → Option (Blob indexValueSize)

/-- The contents of the index of a world. -/
def World.contents (w : World) : Contents :=
  fun k => (w.index k).map IndexValue.image

/-- The effect of one journal item. -/
def IndexLogItem.apply (m : Contents) (ili : IndexLogItem) : Contents :=
  match ili.type with
  | .append => Function.update m ili.indexKey (some ili.indexValue)
  | .modify => Function.update m ili.indexKey (some ili.indexValue)
  | .del => Function.update m ili.indexKey none
  | .unknownOp => m
  | .other _ _ => m

/-- The effect of a list of journal items, in order. -/
def replay (m : Contents) (items : List IndexLogItem) : Contents :=
  items.foldl IndexLogItem.apply m

/-- Fetching until `NULL`, with at most so many calls. -/
def fetchAll (file : List UInt8) : ℕ → LogReader → Option (List IndexLogItem)
  | 0, _ => none
  | n + 1, rd =>
    match indexLoggerFetch true file rd with
    | (none, _) => some []
    | (some ili, rd') => (fetchAll file n rd').map (ili :: ·)

/-- Fetching until `NULL` returns the items to come. -/
lemma fetchAll_of_tailing {file : List UInt8} (n : ℕ) {rd : LogReader} {cur : List IndexLogItem}
    {blocks : List (List IndexLogItem)} (ht : Tailing rd file cur blocks)
    (hfits : ∀ b ∈ blocks, BlockFits b) (hn : (cur ++ blocks.flatten).length < n) :
    fetchAll file n rd = some (cur ++ blocks.flatten) := by
  induction n generalizing rd cur blocks with
  | zero => omega
  | succ n ih =>
    obtain ⟨ili, rd', cur', blocks', hfetch, ht', hfits', hsplit, hnone⟩ := fetch_spec ht hfits
    rw [fetchAll, hfetch]
    cases ili with
    | none => rw [hnone rfl]
    | some x =>
      have hlen := congrArg List.length hsplit
      simp only [Option.toList_some, List.length_append, List.length_singleton] at hlen
      simp only [List.length_append] at hn
      simp only
      rw [ih ht' hfits' (by simp only [List.length_append]; omega), hsplit]
      rfl

/-! ## The journal of a session -/

/-- No index operation fails and no journal block is lost. -/
structure IndexWrites (f : Faults) : Prop where
  /-- `insert_record` succeeds. -/
  insertRecord : f.insertRecord = 0
  /-- `del_record` succeeds. -/
  delRecord : f.delRecord = 0
  /-- The `write` of a journal block is complete. -/
  journal : ∀ op, f.journal op = completeWrite

/-- The items in the journal and in its buffer lead from the contents `m` to those of the index. -/
def Journaled (m : Contents) (w : World) : Prop :=
  ∃ blocks pending, w.journal = journalBytes blocks ∧ Holds w.logger pending ∧
    (∀ b ∈ blocks, BlockFits b) ∧ replay m (blocks.flatten ++ pending) = w.contents

/-- The items in the journal and in its buffer. -/
def JournalHolds (items : List IndexLogItem) (w : World) : Prop :=
  ∃ blocks pending, w.journal = journalBytes blocks ∧ Holds w.logger pending ∧
    (∀ b ∈ blocks, BlockFits b) ∧ blocks.flatten ++ pending = items

/-- The world `w'` comes from `w` by putting the item into the journal and doing what it says. -/
structure LogsItem (w : World) (ili : IndexLogItem) (w' : World) : Prop where
  /-- The logger. -/
  logger : w'.logger = (w.logAppend completeWrite ili).2.logger
  /-- The journal. -/
  journal : w'.journal = (w.logAppend completeWrite ili).2.journal
  /-- The index. -/
  contents : w'.contents = ili.apply w.contents

section Journaled

variable {m : Contents} {w : World}

lemma journaled_iff :
    Journaled m w ↔ ∃ items, JournalHolds items w ∧ replay m items = w.contents := by
  constructor
  · rintro ⟨blocks, pending, hfile, hholds, hfits, hreplay⟩
    exact ⟨_, ⟨blocks, pending, hfile, hholds, hfits, rfl⟩, hreplay⟩
  · rintro ⟨items, ⟨blocks, pending, hfile, hholds, hfits, rfl⟩, hreplay⟩
    exact ⟨blocks, pending, hfile, hholds, hfits, hreplay⟩

/-- An item goes to the journal. -/
lemma JournalHolds.log {items : List IndexLogItem} (hj : JournalHolds items w)
    {ili : IndexLogItem} {w' : World} (hlog : LogsItem w ili w') :
    JournalHolds (items ++ [ili]) w' := by
  obtain ⟨blocks, pending, hfile, hholds, hfits, rfl⟩ := hj
  obtain ⟨more, pending', -, hfile', hholds', hsplit, hfits'⟩ := holds_append hholds w.journal ili
  refine ⟨blocks ++ more, pending', ?_, ?_, ?_, ?_⟩
  · rw [hlog.journal, World.logAppend, hfile', hfile]
    simp [journalBytes]
  · rw [hlog.logger]
    exact hholds'
  · intro b hb
    rcases List.mem_append.1 hb with h | h
    · exact hfits b h
    · exact hfits' b h
  · rw [List.flatten_append, List.append_assoc, hsplit, List.append_assoc]

/-- A flushed journal reads back what it holds. -/
lemma JournalHolds.fetchAll {items : List IndexLogItem} (hj : JournalHolds items w) :
    ∃ fuel, ∀ n ≥ fuel, fetchAll (indexLoggerClose completeWrite w.logger w.journal) n
      indexLoggerOpen = some items := by
  obtain ⟨blocks, pending, hfile, hholds, hfits, rfl⟩ := hj
  obtain ⟨more, -, hfile', -, hsplit, hfits'⟩ := holds_flush hholds w.journal
  have hall : indexLoggerClose completeWrite w.logger w.journal = journalBytes (blocks ++ more) := by
    rw [indexLoggerClose, hfile', hfile]
    simp [journalBytes]
  have hfits'' : ∀ b ∈ blocks ++ more, BlockFits b := by
    intro b hb
    rcases List.mem_append.1 hb with h | h
    · exact hfits b h
    · exact hfits' b h
  have hitems : (blocks ++ more).flatten = blocks.flatten ++ pending := by
    rw [List.flatten_append, hsplit]
  refine ⟨(blocks ++ more).flatten.length + 1, fun n hn => ?_⟩
  rw [hall, ← hitems]
  exact fetchAll_of_tailing n (Tailing.opened _) hfits'' (by simpa using hn)

/-- Only the index, the logger and the journal matter. -/
lemma Journaled.congr {w' : World} (hj : Journaled m w) (hindex : w'.index = w.index)
    (hlogger : w'.logger = w.logger) (hjournal : w'.journal = w.journal) : Journaled m w' := by
  unfold Journaled World.contents
  rw [hindex, hlogger, hjournal]
  exact hj

/-- An item goes to the journal, and its effect to the index. -/
lemma Journaled.log (hj : Journaled m w) {ili : IndexLogItem} {w' : World}
    (hlog : LogsItem w ili w') : Journaled m w' := by
  obtain ⟨items, hj, hreplay⟩ := journaled_iff.1 hj
  refine journaled_iff.2 ⟨items ++ [ili], hj.log hlog, ?_⟩
  rw [replay, List.foldl_append, hlog.contents, ← hreplay]
  rfl

/-- The contents of the index after an entry has been set. -/
lemma contents_update {index : Key → Option IndexValue} (k : Key) (v : Option IndexValue)
    {w' : World} (hindex : w'.index = Function.update index k v) :
    w'.contents = Function.update (fun k => (index k).map IndexValue.image) k
      (v.map IndexValue.image) := by
  funext k'
  unfold World.contents
  rw [hindex]
  by_cases hk : k' = k
  · subst hk
    simp
  · simp [Function.update_of_ne hk]

variable {f : Faults}

/-- `append_block` puts an item into the journal. -/
lemma logsItem_appended (hf : IndexWrites f) (b : ℕ) (k : Key) (data : List UInt8) :
    LogsItem w ⟨.append, k, (w.appendedValue b data).image⟩ (w.appended f b k data) := by
  refine ⟨?_, ?_, contents_update k (some (w.appendedValue b data)) ?_⟩
  · simp [World.appended, World.placed, World.logAppend, hf.journal]
  · simp [World.appended, World.placed, World.logAppend, hf.journal]
  · simp [hf.insertRecord]

/-- `modify_block` puts an item into the journal. -/
lemma logsItem_modified (hf : IndexWrites f) (iv : IndexValue) (k : Key) (data : List UInt8) :
    LogsItem w ⟨.modify, k, (World.modifiedValue iv data).image⟩ (w.modified f iv k data) := by
  refine ⟨?_, ?_, contents_update k (some (World.modifiedValue iv data)) ?_⟩
  · simp [World.modified, World.logAppend, hf.journal]
  · simp [World.modified, World.logAppend, hf.journal]
  · simp [hf.insertRecord]

/-- `do_delete_block` puts an item into the journal. -/
lemma logsItem_deleted (hf : IndexWrites f) (iv : IndexValue) (k : Key) :
    LogsItem w ⟨.del, k, iv.image⟩ (w.deleted f iv k) := by
  rw [World.deleted_of_success f w k iv hf.delRecord]
  refine ⟨?_, ?_, contents_update k none ?_⟩
  · simp [World.unindexed, World.logAppend, hf.journal]
  · simp [World.unindexed, World.logAppend, hf.journal]
  · simp [hf.delRecord]

/-- A call that loses no index operation and no journal block. -/
lemma kept_journaled (m : Contents) (hf : IndexWrites f) :
    Kept f fun w => Usable w ∧ Journaled m w where
  ready := fun hw => hw.1.ready
  appended := fun k hw hb hl => ⟨(Usable.kept f).appended k hw.1 hb hl,
    hw.2.log (logsItem_appended hf _ _ _)⟩
  modified := fun hw hk hl => ⟨(Usable.kept f).modified hw.1 hk hl,
    hw.2.log (logsItem_modified hf _ _ _)⟩
  stopped := fun hw hk hl => ⟨(Usable.kept f).stopped hw.1 hk hl, hw.2.congr (by simp) (by simp)
    (by simp)⟩
  deleted := fun hw hk => ⟨(Usable.kept f).deleted hw.1 hk, hw.2.log (logsItem_deleted hf _ _)⟩

/-- `index_logger_flush` on the logger of the store. -/
def World.flushJournal (w : World) : World :=
  let r := indexLoggerFlush completeWrite w.logger w.journal
  { w with logger := r.logger, journal := r.file }

/-- A flush empties the buffer and leaves the index alone. -/
lemma Journaled.flush (hj : Journaled m w) :
    ∃ blocks, w.flushJournal.journal = journalBytes blocks ∧ Holds w.flushJournal.logger [] ∧
      (∀ b ∈ blocks, BlockFits b) ∧ replay m blocks.flatten = w.flushJournal.contents := by
  obtain ⟨blocks, pending, hfile, hholds, hfits, hreplay⟩ := hj
  obtain ⟨more, -, hfile', hholds', hsplit, hfits'⟩ := holds_flush hholds w.journal
  refine ⟨blocks ++ more, ?_, hholds', ?_, ?_⟩
  · show (indexLoggerFlush completeWrite w.logger w.journal).file = _
    rw [hfile', hfile]
    simp [journalBytes]
  · intro b hb
    rcases List.mem_append.1 hb with h | h
    · exact hfits b h
    · exact hfits' b h
  · rw [List.flatten_append, hsplit]
    exact hreplay

end Journaled

/-! ## Every session -/

/-- What calls and flushes lead to, from the opening of the store on.  Index operations and journal
writes succeed. -/
inductive Logged (w₀ : World) : Option (Held store) → World → Prop
  /-- Nothing has been called. -/
  | start : Logged w₀ (some []) w₀
  /-- One more call. -/
  | call {h : Held store} {w : World} (hr : Logged w₀ (some h) w) (f : Faults)
      (hf : IndexWrites f) (c : Call) :
      Logged w₀ (exec (handle f) c.prog h w).held? (exec (handle f) c.prog h w).world
  /-- A flush of the journal. -/
  | flush {h : Held store} {w : World} (hr : Logged w₀ (some h) w) :
      Logged w₀ (some h) w.flushJournal

/-- The invariant of a session. -/
lemma Logged.journaled {w₀ w : World} {h : Option (Held store)} (hu : Usable w₀)
    (hj : Journaled w₀.contents w₀) (hr : Logged w₀ h w) :
    (Usable w ∧ Journaled w₀.contents w) ∧ ∀ h', h = some h' → OnlyLeaked h' := by
  induction hr with
  | start => exact ⟨⟨hu, hj⟩, by rintro h' ⟨⟩; intro x hx; simp at hx⟩
  | call hr f hf c ih =>
    obtain ⟨hw, hh⟩ := ih
    have hh := hh _ rfl
    exact ⟨(kept_journaled _ hf).call hw hh c, fun h' => call_held hw.1.ready hh f c⟩
  | flush hr ih =>
    obtain ⟨⟨hu, hj⟩, hh⟩ := ih
    refine ⟨⟨⟨hu.inited, hu.types, hu.sizes, hu.opened, hu.indexed, hu.present, hu.whole⟩, ?_⟩, hh⟩
    obtain ⟨blocks, hfile, hholds, hfits, hreplay⟩ := hj.flush
    exact ⟨blocks, [], hfile, hholds, hfits, by simpa using hreplay⟩

/-- The journal replays to the index.  At every point of every session, after a flush: fetching from
the journal file ends, and folding what it returns over the contents that the index had when the
store was opened gives the contents that it has. -/
theorem journal_replays {n largest : ℕ} {w₀ w₁ w : World} {bsp : Option Handle}
    (hl : Lived n .closed w₀) (hsize : n ≤ effectiveSize largest)
    (hopen : openStorage {} largest w₀ = ⟨0, bsp, w₁⟩) {h : Held store}
    (hr : Logged w₁ (some h) w) :
    ∃ items, (∃ fuel, ∀ n ≥ fuel,
        fetchAll w.flushJournal.journal n indexLoggerOpen = some items) ∧
      replay w₁.contents items = w.flushJournal.contents := by
  have hc : Closed n w₀ := hl.ok
  have hlimit := effectiveSize_of_open hc.inited (congrArg OpenResult.ret hopen)
  obtain ⟨w', hopen', -, -, -, hlogger, hjournal, -⟩ :=
    openStorage_spec largest hc.inited hc.whole hlimit
  obtain rfl : w₁ = w' := congrArg OpenResult.world (hopen.symm.trans hopen')
  have hstart : Journaled w₁.contents w₁ :=
    ⟨[], [], by rw [hjournal]; rfl, hlogger ▸ holds_create, by simp, rfl⟩
  obtain ⟨⟨-, hj⟩, -⟩ := hr.journaled (hc.opened hsize hopen).usable hstart
  obtain ⟨blocks, hfile, -, hfits, hreplay⟩ := hj.flush
  refine ⟨blocks.flatten, ⟨blocks.flatten.length + 1, fun n hn => ?_⟩, hreplay⟩
  rw [hfile]
  exact fetchAll_of_tailing n (Tailing.opened blocks) hfits (by simpa using hn)

theorem journal_replays_one_update :
    ∃ bsp w w' items, openStorage {} 1024 World.empty = ⟨0, bsp, w⟩ ∧
      exec (handle noFaults) (updateBlock [1] [2]) [] w = .returned { ret := 0 } [] w' ∧
      (∃ fuel, ∀ n ≥ fuel, fetchAll w'.flushJournal.journal n indexLoggerOpen = some items) ∧
      replay w.contents items = w'.flushJournal.contents := by
  obtain ⟨w, hopen, hl, hcfg, hindex, -⟩ := exists_small_store
  have hupdate := small_update hl hcfg hindex [1]
  have hstart : Logged w (some []) w := .start
  have hstep := hstart.call noFaults ⟨rfl, rfl, fun _ => rfl⟩ (.update [1] [2])
  rw [Call.prog, hupdate] at hstep
  obtain ⟨items, hfetch, hreplay⟩ := journal_replays (.start blank_empty) (Nat.zero_le _) hopen hstep
  exact ⟨_, w, _, items, hopen, hupdate, hfetch, hreplay⟩

end Linglongta
