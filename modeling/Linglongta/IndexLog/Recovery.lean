import Linglongta.Foundations.CString
import Linglongta.Foundations.CutLog
import Linglongta.IndexLog.Replay
import Linglongta.IndexLog.Torn

/-!
# What the journal shows after a crash

The items of a session wait in a buffer of the logger until the buffer is full or `sync_storage`
flushes it, and a crash may leave any prefix of the journal file.  `journal_survives_crash` says what
can be rebuilt from such a prefix: the index as it was after the first calls of the session.  The one
exception is an `update_block` that moves a record to a larger block file: it logs two items, and if
the cut is between them the key is missing.

If the whole file is there, because only the process has died, then nothing from before the last
`sync_storage` is lost, and no more than the 186 changes that fill a buffer.
-/

namespace Linglongta

open Prog CString CutLog

/-! ## Flushing the store -/

/-- The loop of `sync_storage` over the data files. -/
def syncHeaders (f : Faults) : List ℕ → World → World
  | [], w => w
  | b :: bs, w => syncHeaders f bs (exec (handle f) (syncDataFileHeader b) [] w).world

/-- `sync_storage`; none for its `abort`.  The index file, which `sync_bdb` flushes, is the index. -/
def syncStorage (f : Faults) (out : Option ℕ) (object : List UInt8) (w : World) : Option World :=
  let r := indexLoggerFlush out w.logger w.journal
  let flushed := { w with logger := r.logger, journal := r.file }
  if strcaseEq object (ascii ['i', 'n', 'd', 'e', 'x']) then some flushed
  else if strcaseEq object (ascii ['a', 'l', 'l']) then
    some (syncHeaders f (List.range w.blockTypeCount) flushed)
  else none

/-- The header of a data file is written. -/
lemma exec_syncDataFileHeader (f : Faults) {b : ℕ} {w : World} (hb : b < w.blockTypeCount) :
    (exec (handle f) (syncDataFileHeader b) [] w).world = w.syncHeader f b := by
  simp [syncDataFileHeader, syncDataFile, assert, hb, Outcome.world]

/-- Writing headers changes files only. -/
lemma syncHeaders_spec (f : Faults) (bs : List ℕ) {w : World} (hu : Usable w)
    (hbs : ∀ b ∈ bs, b < w.blockTypeCount) :
    Usable (syncHeaders f bs w) ∧ (syncHeaders f bs w).index = w.index ∧
      (syncHeaders f bs w).logger = w.logger ∧ (syncHeaders f bs w).journal = w.journal := by
  induction bs generalizing w with
  | nil => exact ⟨hu, rfl, rfl, rfl⟩
  | cons b bs ih =>
    rw [syncHeaders, exec_syncDataFileHeader f (hbs b (by simp))]
    obtain ⟨hu', hindex, hlogger, hjournal⟩ := ih (hu.pwrite (f.pwrite .header b) b 0 _)
      fun b' hb' => by simpa using hbs b' (List.mem_cons_of_mem b hb')
    exact ⟨hu', by simpa using hindex, by simpa using hlogger, by simpa using hjournal⟩

/-- A store that has been flushed. -/
lemma syncStorage_spec {f : Faults} {out : Option ℕ} {object : List UInt8} {w w' : World}
    (hu : Usable w) (hsync : syncStorage f out object w = some w') :
    Usable w' ∧ w'.contents = w.contents ∧
      w'.logger = (indexLoggerFlush out w.logger w.journal).logger ∧
      w'.journal = (indexLoggerFlush out w.logger w.journal).file := by
  unfold syncStorage at hsync
  have hflushed : Usable { w with
      logger := (indexLoggerFlush out w.logger w.journal).logger
      journal := (indexLoggerFlush out w.logger w.journal).file } :=
    ⟨hu.inited, hu.types, hu.sizes, hu.opened, hu.indexed, hu.present, hu.whole⟩
  simp only at hsync
  split_ifs at hsync
  · cases hsync
    exact ⟨hflushed, rfl, rfl, rfl⟩
  · cases hsync
    obtain ⟨hu', hindex, hlogger, hjournal⟩ := syncHeaders_spec f (List.range w.blockTypeCount)
      hflushed fun b hb => List.mem_range.1 hb
    refine ⟨hu', ?_, hlogger, hjournal⟩
    unfold World.contents
    rw [hindex]

/-! ## Stages of a session -/

/-- What happens to an open store. -/
inductive SessionStep
  /-- A call of its interface. -/
  | call (c : Call)
  /-- A `sync_storage`. -/
  | sync (object : List UInt8)

/-- A step and the store before and after it. -/
structure Stage where
  /-- The step. -/
  step : SessionStep
  /-- The store before it. -/
  before : World
  /-- The store after it. -/
  after : World

/-- The stages of a session that was opened as `w₁`, with the locks that are held in the end; none if
the process has been stopped.  Data files may fail, index operations and journal writes do not. -/
inductive Staged (w₁ : World) : List Stage → Option (Held store) → World → Prop
  /-- Nothing has happened. -/
  | start : Staged w₁ [] (some []) w₁
  /-- One more call. -/
  | call {tr : List Stage} {h : Held store} {w : World} (hs : Staged w₁ tr (some h) w) (f : Faults)
      (hf : IndexWrites f) (c : Call) :
      Staged w₁ (tr ++ [⟨.call c, w, (exec (handle f) c.prog h w).world⟩])
        (exec (handle f) c.prog h w).held? (exec (handle f) c.prog h w).world
  /-- A `sync_storage`. -/
  | sync {tr : List Stage} {h : Held store} {w w' : World} (hs : Staged w₁ tr (some h) w)
      (f : Faults) (object : List UInt8) (hsync : syncStorage f completeWrite object w = some w') :
      Staged w₁ (tr ++ [⟨.sync object, w, w'⟩]) (some h) w'

/-- The items that a stage logs say what it does to the index: there are none, there is one, or a
record moves to another block file and there are two. -/
inductive Stage.Logs (e : Stage) : List IndexLogItem → Prop
  /-- The index stays as it is. -/
  | same (hsame : e.after.contents = e.before.contents) : Logs e []
  /-- One entry changes. -/
  | one {ili : IndexLogItem} (hone : e.after.contents = ili.apply e.before.contents) : Logs e [ili]
  /-- A record moves. -/
  | moved {key data : List UInt8} {iv : IndexValue} {ili : IndexLogItem}
      (hstep : e.step = .call (.update key data))
      (hindex : e.before.index (fixedKey key) = some iv)
      (hmoved : e.after.contents =
        ili.apply (IndexLogItem.apply e.before.contents ⟨.del, fixedKey key, iv.image⟩)) :
      Logs e [⟨.del, fixedKey key, iv.image⟩, ili]

namespace Stage

variable {e : Stage} {new : List IndexLogItem}

/-- The items of a stage lead from the index before it to the index after it. -/
lemma Logs.replay (hlogs : e.Logs new) : replay e.before.contents new = e.after.contents := by
  cases hlogs with
  | same hsame => exact hsame.symm
  | one hone => exact hone.symm
  | moved hstep hindex hmoved => exact hmoved.symm

/-- A stage that changes the index logs something. -/
lemma Logs.ne_nil (hlogs : e.Logs new) (hne : e.after.contents ≠ e.before.contents) : new ≠ [] := by
  rintro rfl
  cases hlogs with
  | same hsame => exact hne hsame

/-- Of the items of a stage a part may be left: nothing, or the first half of a move. -/
lemma Logs.replay_part (hlogs : e.Logs new) {part : List IndexLogItem} (hpart : part <+: new)
    (hne : part ≠ new) :
    Linglongta.replay e.before.contents part = e.before.contents ∨
      ∃ key data, e.step = .call (.update key data) ∧ e.before.index (fixedKey key) ≠ none ∧
        Linglongta.replay e.before.contents part =
          Function.update e.before.contents (fixedKey key) none := by
  cases part with
  | nil => exact Or.inl rfl
  | cons x part =>
    cases hlogs with
    | same hsame => cases List.prefix_nil.1 hpart
    | one hone =>
      obtain ⟨rfl, hrest⟩ := List.cons_prefix_cons.1 hpart
      exact absurd (congrArg _ (List.prefix_nil.1 hrest)) hne
    | @moved key data iv ili hstep hindex hmoved =>
      obtain ⟨rfl, hrest⟩ := List.cons_prefix_cons.1 hpart
      rcases List.prefix_cons_iff.1 hrest with rfl | ⟨part', rfl, hnil⟩
      · exact Or.inr ⟨key, data, hstep, by simp [hindex], rfl⟩
      · exact absurd (by rw [List.prefix_nil.1 hnil]) hne

end Stage

/-! ## The journal of the stages -/

/-- The file of the journal holds the blocks, and its buffer the items behind them. -/
structure JournalOf (w : World) (blocks : List (List IndexLogItem)) (pending : List IndexLogItem) :
    Prop where
  /-- The file. -/
  file : w.journal = journalBytes blocks
  /-- The buffer. -/
  holds : Holds w.logger pending
  /-- The blocks are as the logger writes them. -/
  fits : ∀ b ∈ blocks, BlockFits b

section JournalOf

variable {w w' w'' : World} {blocks : List (List IndexLogItem)} {pending : List IndexLogItem}

/-- From `w` to `w'` the items `new` go to the journal, behind what it holds. -/
def JournalGrows (w w' : World) (new : List IndexLogItem) : Prop :=
  ∀ blocks pending, JournalOf w blocks pending → ∃ more pending',
    JournalOf w' (blocks ++ more) pending' ∧ more.flatten ++ pending' = pending ++ new

lemma journalGrows_nil (hlogger : w'.logger = w.logger) (hjournal : w'.journal = w.journal) :
    JournalGrows w w' [] := fun blocks pending hj =>
  ⟨[], pending, ⟨by rw [hjournal, hj.file, List.append_nil], hlogger ▸ hj.holds,
    by simpa using hj.fits⟩, by simp⟩

lemma JournalGrows.trans {new new' : List IndexLogItem} (h : JournalGrows w w' new)
    (h' : JournalGrows w' w'' new') : JournalGrows w w'' (new ++ new') := by
  intro blocks pending hj
  obtain ⟨more, pending₁, hj₁, hsplit₁⟩ := h blocks pending hj
  obtain ⟨more', pending₂, hj₂, hsplit₂⟩ := h' _ _ hj₁
  refine ⟨more ++ more', pending₂, by rwa [← List.append_assoc], ?_⟩
  rw [List.flatten_append, List.append_assoc, hsplit₂, ← List.append_assoc, hsplit₁,
    List.append_assoc]

/-- One item. -/
lemma LogsItem.journalGrows {ili : IndexLogItem} (hlog : LogsItem w ili w') :
    JournalGrows w w' [ili] := by
  intro blocks pending hj
  obtain ⟨more, pending', -, hfile, hholds, hsplit, hfits⟩ := holds_append hj.holds w.journal ili
  refine ⟨more, pending', ⟨?_, hlog.logger ▸ hholds, fun b hb => ?_⟩, hsplit⟩
  · rw [hlog.journal, World.logAppend, hfile, hj.file]
    simp [journalBytes]
  · exact (List.mem_append.1 hb).elim (hj.fits b) (hfits b)

/-- A flush leaves nothing in the buffer. -/
lemma JournalOf.flushed (hj : JournalOf w blocks pending)
    (hlogger : w'.logger = (indexLoggerFlush completeWrite w.logger w.journal).logger)
    (hjournal : w'.journal = (indexLoggerFlush completeWrite w.logger w.journal).file) :
    ∃ more, JournalOf w' (blocks ++ more) [] ∧ more.flatten = pending := by
  obtain ⟨more, -, hfile, hholds, hsplit, hfits⟩ := holds_flush hj.holds w.journal
  refine ⟨more, ⟨?_, hlogger ▸ hholds, fun b hb => ?_⟩, hsplit⟩
  · rw [hjournal, hfile, hj.file]
    simp [journalBytes]
  · exact (List.mem_append.1 hb).elim (hj.fits b) (hfits b)

end JournalOf

section Calls

variable {f : Faults} {w : World}

/-- What the end of a step has logged, for a step that begins at `w`. -/
def StepLogged (step : SessionStep) (w w' : World) : Prop :=
  ∃ new, Stage.Logs ⟨step, w, w'⟩ new ∧ JournalGrows w w' new

lemma logged_same (step : SessionStep) (w : World) : StepLogged step w w :=
  ⟨[], .same rfl, journalGrows_nil rfl rfl⟩

lemma LogsItem.step {w' : World} {ili : IndexLogItem} (hlog : LogsItem w ili w')
    (step : SessionStep) : StepLogged step w w' :=
  ⟨[ili], .one hlog.contents, hlog.journalGrows⟩

/-- `update_block` for a key that has no entry. -/
lemma logged_insertEnding (hf : IndexWrites f) (step : SessionStep) (k : Key) (data : List UInt8)
    (fail : Int) : StepLogged step w (w.insertEnding f k data fail).world := by
  unfold World.insertEnding
  split
  · exact logged_same step w
  · split
    · exact (logsItem_appended hf _ k data).step step
    · exact logged_same step w

/-- `update_block`. -/
lemma logged_updateEnding (hf : IndexWrites f) (key data : List UInt8) :
    StepLogged (.call (.update key data)) w (w.updateEnding f (fixedKey key) data).world := by
  unfold World.updateEnding
  split
  · exact logged_same _ w
  · cases hk : w.index (fixedKey key) with
    | none => exact logged_insertEnding hf _ _ data 0
    | some iv =>
      simp only
      split
      · unfold World.modifyEnding
        split
        · exact (logsItem_modified hf iv _ data).step _
        · exact ⟨[], .same (congrArg (fun i k => (i k).map IndexValue.image) (World.index_pwrite ..)),
            journalGrows_nil (by simp) (by simp)⟩
      · have hdel := logsItem_deleted (w := w) hf iv (fixedKey key)
        rw [if_neg (by simp [hf.delRecord])]
        unfold World.insertEnding
        split
        · exact hdel.step _
        · split
          · have happ := logsItem_appended (w := w.deleted f iv (fixedKey key)) hf
              ((w.deleted f iv (fixedKey key)).config.sizeClass data.length).toNat (fixedKey key)
              data
            refine ⟨_, .moved rfl hk ?_, hdel.journalGrows.trans happ.journalGrows⟩
            rw [← hdel.contents]
            exact happ.contents
          · exact hdel.step _

/-- A call. -/
lemma logged_call (hf : IndexWrites f) (hu : Usable w) {h : Held store} (hh : OnlyLeaked h)
    (c : Call) : StepLogged (.call c) w (exec (handle f) c.prog h w).world := by
  rcases call_world_cases hu.ready hh f c with hsame | ⟨key, data, rfl, hw⟩ | ⟨key, rfl, hw⟩
  · rw [hsame]
    exact logged_same _ w
  · rw [hw]
    exact logged_updateEnding hf key data
  · rw [hw]
    unfold World.deleteEnding
    split
    · exact logged_same _ w
    · cases hk : w.index (fixedKey key) with
      | none => exact logged_same _ w
      | some iv => exact (logsItem_deleted hf iv _).step _

end Calls

/-! ## The invariant of a session -/

/-- The stages with the items they have logged. -/
structure Staged.Inv (w₁ w : World) (log : List (Stage × List IndexLogItem))
    (blocks : List (List IndexLogItem)) (pending : List IndexLogItem) : Prop where
  /-- The store can be used. -/
  usable : Usable w
  /-- The items are those of the stages. -/
  logs : ∀ x ∈ log, x.1.Logs x.2
  /-- The journal. -/
  journal : JournalOf w blocks pending
  /-- The journal holds the items of all stages. -/
  items : blocks.flatten ++ pending = log.flatMap Prod.snd
  /-- What was logged up to a `sync_storage` is in the file. -/
  synced : ∀ pre x post, log = pre ++ x :: post → (∃ object, x.1.step = .sync object) →
    (pre ++ [x]).flatMap Prod.snd <+: blocks.flatten

namespace Staged

variable {w₁ w w' : World} {tr : List Stage} {h : Option (Held store)}
  {log : List (Stage × List IndexLogItem)} {blocks : List (List IndexLogItem)}
  {pending : List IndexLogItem}

/-- One more stage. -/
lemma Inv.snoc (hi : Inv w₁ w log blocks pending) (hu : Usable w') {step : SessionStep}
    {new pending' : List IndexLogItem} {more : List (List IndexLogItem)}
    (hlogs : Stage.Logs ⟨step, w, w'⟩ new) (hj : JournalOf w' (blocks ++ more) pending')
    (hsplit : more.flatten ++ pending' = pending ++ new)
    (hsync : ∀ object, step = .sync object → new = [] ∧ pending' = []) :
    Inv w₁ w' (log ++ [(⟨step, w, w'⟩, new)]) (blocks ++ more) pending' := by
  have hitems : (blocks ++ more).flatten ++ pending' = log.flatMap Prod.snd ++ new := by
    rw [List.flatten_append, List.append_assoc, hsplit, ← List.append_assoc, hi.items]
  refine ⟨hu, fun x hx => ?_, hj, by simpa using hitems, fun pre x post heq hx => ?_⟩
  · rcases List.mem_append.1 hx with hx | hx
    · exact hi.logs x hx
    · rw [List.mem_singleton.1 hx]
      exact hlogs
  · rcases List.eq_nil_or_concat' post with rfl | ⟨post', y, rfl⟩
    · -- the stage is the `sync_storage`
      obtain ⟨object, hobject⟩ := hx
      rw [← List.singleton_inj.1 (List.append_inj' heq rfl).2] at hobject
      obtain ⟨rfl, rfl⟩ := hsync object hobject
      rw [List.append_nil, List.append_nil] at hitems
      rw [← heq, List.flatMap_append, hitems]
      simp
    · have heq' : log = pre ++ x :: post' := by
        rw [← List.cons_append, ← List.append_assoc] at heq
        exact (List.append_inj' heq rfl).1
      have hbefore := hi.synced pre x post' heq' hx
      rw [List.flatten_append]
      exact hbefore.trans (List.prefix_append _ _)

/-- Every session logs what it does. -/
lemma exists_inv (hs : Staged w₁ tr h w) (hu : Usable w₁) (hj : JournalOf w₁ [] []) :
    (∃ log blocks pending, log.map Prod.fst = tr ∧ Inv w₁ w log blocks pending) ∧
      ∀ h', h = some h' → OnlyLeaked h' := by
  induction hs with
  | start =>
    refine ⟨⟨[], [], [], rfl, hu, by simp, hj, rfl, by simp⟩, ?_⟩
    rintro h' ⟨⟩ x hx
    exact absurd hx List.not_mem_nil
  | @call tr h w hs f hf c ih =>
    obtain ⟨⟨log, blocks, pending, rfl, hi⟩, hh⟩ := ih
    have hh := hh h rfl
    refine ⟨?_, fun h' => call_held hi.usable.ready hh f c⟩
    obtain ⟨new, hlogs, hgrows⟩ := logged_call hf hi.usable hh c
    obtain ⟨more, pending', hj', hsplit⟩ := hgrows blocks pending hi.journal
    exact ⟨_, _, pending', by simp, hi.snoc ((Usable.kept f).call hi.usable hh c) hlogs hj' hsplit
      fun object hobject => by cases hobject⟩
  | @sync tr h w w' hs f object hsync ih =>
    obtain ⟨⟨log, blocks, pending, rfl, hi⟩, hh⟩ := ih
    refine ⟨?_, hh⟩
    obtain ⟨hu', hcontents, hlogger, hjournal⟩ := syncStorage_spec hi.usable hsync
    obtain ⟨more, hj', hsplit⟩ := hi.journal.flushed hlogger hjournal
    have hlogs : Stage.Logs ⟨.sync object, w, w'⟩ [] := .same hcontents
    exact ⟨_, _, [], by simp, hi.snoc hu' hlogs hj' (by simp [hsplit]) fun _ _ => ⟨rfl, rfl⟩⟩

/-- A session is at its start, or it has a last stage. -/
lemma start_or_last (hs : Staged w₁ tr h w) : tr = [] ∧ w = w₁ ∨
    ∃ tr' e h', tr = tr' ++ [e] ∧ Staged w₁ tr' h' e.before ∧ e.after = w := by
  cases hs with
  | start => exact Or.inl ⟨rfl, rfl⟩
  | call hs f hf c => exact Or.inr ⟨_, _, _, rfl, hs, rfl⟩
  | sync hs f object hsync => exact Or.inr ⟨_, _, _, rfl, hs, rfl⟩

lemma of_concat {e : Stage} (hs : Staged w₁ (tr ++ [e]) h w) :
    (∃ h', Staged w₁ tr h' e.before) ∧ e.after = w := by
  rcases hs.start_or_last with ⟨hnil, -⟩ | ⟨tr', e', h', heq, hs', hafter⟩
  · simp at hnil
  · obtain ⟨rfl, hlast⟩ := List.append_inj' heq rfl
    rw [List.singleton_inj.1 hlast]
    exact ⟨⟨h', hs'⟩, hafter⟩

/-- The first stages of a session are a session, and the next stage begins where they end. -/
lemma exists_of_append {done rest : List Stage} (hs : Staged w₁ (done ++ rest) h w) :
    ∃ h' w', Staged w₁ done h' w' ∧ ∀ e rest', rest = e :: rest' → e.before = w' := by
  induction rest using List.reverseRecOn generalizing h w with
  | nil =>
    rw [List.append_nil] at hs
    exact ⟨h, w, hs, by simp⟩
  | append_singleton rest e ih =>
    rw [← List.append_assoc] at hs
    obtain ⟨⟨h', hs'⟩, -⟩ := hs.of_concat
    cases rest with
    | nil =>
      refine ⟨h', e.before, List.append_nil done ▸ hs', fun e' rest' heq => ?_⟩
      rw [(List.cons_eq_cons.1 heq).1]
    | cons x rest =>
      obtain ⟨h'', w'', hs'', hnext⟩ := ih hs'
      refine ⟨h'', w'', hs'', fun e' rest' heq => ?_⟩
      obtain ⟨rfl, -⟩ := List.cons_eq_cons.1 heq
      exact hnext x rest rfl

/-- The items of the stages lead to the index after them. -/
lemma replay_eq (hs : Staged w₁ (log.map Prod.fst) h w) (hlogs : ∀ x ∈ log, x.1.Logs x.2) :
    replay w₁.contents (log.flatMap Prod.snd) = w.contents := by
  induction log using List.reverseRecOn generalizing h w with
  | nil =>
    rcases hs.start_or_last with ⟨-, rfl⟩ | ⟨tr', e', h', heq, -⟩
    · rfl
    · simp at heq
  | append_singleton log x ih =>
    rw [List.map_append] at hs
    obtain ⟨⟨h', hs'⟩, hafter⟩ := hs.of_concat
    have hbefore := ih hs' fun y hy => hlogs y (List.mem_append_left _ hy)
    have hlast := (hlogs x (by simp)).replay
    rw [List.flatMap_append, List.flatMap_singleton]
    calc replay w₁.contents (log.flatMap Prod.snd ++ x.2)
        = replay (replay w₁.contents (log.flatMap Prod.snd)) x.2 := List.foldl_append
      _ = w.contents := by rw [hbefore, hlast, hafter]

end Staged

namespace Staged.Inv

variable {w₁ w : World} {h : Option (Held store)} {log : List (Stage × List IndexLogItem)}
  {blocks : List (List IndexLogItem)} {pending items : List IndexLogItem}
  {done rest : List (Stage × List IndexLogItem)} {part : List IndexLogItem}

/-- What the items that are left lead to. -/
lemma recovers (hi : Inv w₁ w (done ++ rest) blocks pending)
    (hs : Staged w₁ ((done ++ rest).map Prod.fst) h w) (hcut : Cut Prod.snd items done rest part) :
    ∃ h' w', Staged w₁ (done.map Prod.fst) h' w' ∧
      (replay w₁.contents items = w'.contents ∨
        ∃ e rest' key data, rest.map Prod.fst = e :: rest' ∧ e.before = w' ∧
          e.step = .call (.update key data) ∧ w'.index (fixedKey key) ≠ none ∧
          replay w₁.contents items = Function.update w'.contents (fixedKey key) none) := by
  rw [List.map_append] at hs
  obtain ⟨h', w', hs', hnext⟩ := hs.exists_of_append
  have hdone := hs'.replay_eq fun x hx => hi.logs x (List.mem_append_left _ hx)
  have hitems : replay w₁.contents items = replay w'.contents part := by
    rw [← hdone, hcut.left_eq]
    exact List.foldl_append
  refine ⟨h', w', hs', ?_⟩
  rw [hitems]
  rcases hcut.next with ⟨-, rfl⟩ | ⟨x, rest', rfl, hpart, hne⟩
  · exact Or.inl rfl
  · obtain rfl : x.1.before = w' := hnext x.1 (rest'.map Prod.fst) rfl
    rcases (hi.logs x (by simp)).replay_part hpart hne with hsame | ⟨key, data, hstep, hindex, hdel⟩
    · exact Or.inl hsame
    · exact Or.inr ⟨x.1, _, key, data, rfl, rfl, hstep, hindex, hdel⟩

/-- No stage up to a `sync_storage` is lost with the buffer. -/
lemma sync_notMem_rest (hi : Inv w₁ w (done ++ rest) blocks pending)
    (hcut : Cut Prod.snd blocks.flatten done rest part) {x : Stage × List IndexLogItem}
    (hx : x ∈ rest) (object : List UInt8) : x.1.step ≠ .sync object := by
  intro hstep
  obtain ⟨a, b, rfl⟩ := List.append_of_mem hx
  have hsynced := hi.synced (done ++ a) x b (by simp) ⟨object, hstep⟩
  have hpre : (done ++ a) ++ [x] <+: done ++ (a ++ x :: b) := ⟨b, by simp⟩
  have hlen := (hcut.prefix_done hpre hsynced).length_le
  simp at hlen

/-- The stages that are lost with the buffer and have changed the index fit the buffer. -/
lemma lost_le (hi : Inv w₁ w (done ++ rest) blocks pending)
    (hcut : Cut Prod.snd blocks.flatten done rest part) {changed : List Stage}
    (hsub : changed.Sublist (rest.map Prod.fst))
    (hchanged : ∀ e ∈ changed, e.after.contents ≠ e.before.contents) : changed.length ≤ 186 := by
  obtain ⟨lost, hlost, rfl⟩ := List.sublist_map_iff.1 hsub
  have hle := hcut.length_le hlost fun x hx =>
    (hi.logs x (List.mem_append_right _ (hlost.subset hx))).ne_nil
      (hchanged x.1 (List.mem_map_of_mem hx))
  rw [← hi.items, List.length_append] at hle
  have hfits := hi.journal.holds.fits
  simp only [indexLogItemSize, logBufSize, logBufHeaderSize] at hfits
  rw [List.length_map]
  omega

end Staged.Inv

/-! ## Reading what is left of the file -/

/-- A reader that returns some items and then nothing fetches these items. -/
lemma fetchAll_of_fetchMany {file : List UInt8} {items : List IndexLogItem} {rd : LogReader}
    (hmany : ∀ m, fetchMany file m rd =
      (items.take m).map some ++ List.replicate (m - items.length) none) {n : ℕ}
    (hn : items.length < n) : fetchAll file n rd = some items := by
  induction n generalizing items rd with
  | zero => omega
  | succ n ih =>
    rw [fetchAll]
    cases hfetch : indexLoggerFetch true file rd with
    | mk ili rd' =>
      cases items with
      | nil =>
        have hone := hmany 1
        simp only [fetchMany, hfetch] at hone
        simp at hone
        simp [hone]
      | cons x items =>
        have hone := hmany 1
        simp only [fetchMany, hfetch] at hone
        simp at hone
        subst hone
        simp only
        rw [ih (fun m => ?_) (by simpa using hn)]
        · rfl
        · have hnext := hmany (m + 1)
          simp only [fetchMany, hfetch] at hnext
          simpa using hnext

/-- The places where the items end are in the order of the items. -/
lemma pairwise_blockItemEnds (pos : ℕ) (xs : List IndexLogItem) :
    (blockItemEnds pos xs).Pairwise fun a b => a.2 ≤ b.2 := by
  induction xs generalizing pos with
  | nil => exact .nil
  | cons x xs ih =>
    refine .cons (fun e he => ?_) (ih _)
    have hlt := lt_of_mem_blockItemEnds he
    simp only
    omega

lemma mem_blockItemEnds_le {pos : ℕ} {xs : List IndexLogItem} {e : IndexLogItem × ℕ}
    (he : e ∈ blockItemEnds pos xs) : e.2 ≤ pos + xs.length * indexLogItemSize := by
  induction xs generalizing pos with
  | nil => cases he
  | cons x xs ih =>
    rw [List.length_cons, Nat.add_mul]
    rcases List.mem_cons.1 he with rfl | hmem
    · simp only
      omega
    · have hle := ih hmem
      omega

lemma pairwise_itemEndsFrom (pos : ℕ) (bs : List (List IndexLogItem)) :
    (itemEndsFrom pos bs).Pairwise fun a b => a.2 ≤ b.2 := by
  induction bs generalizing pos with
  | nil => exact .nil
  | cons b bs ih =>
    refine List.pairwise_append.2 ⟨pairwise_blockItemEnds _ b, ih _, fun x hx y hy => ?_⟩
    have hle := mem_blockItemEnds_le hx
    have hlt := lt_of_mem_itemEndsFrom hy
    omega

/-- The items that are whole are the first ones. -/
lemma wholeItems_prefix (n : ℕ) {ends : List (IndexLogItem × ℕ)}
    (hends : ends.Pairwise fun a b => a.2 ≤ b.2) : wholeItems n ends <+: ends.map Prod.fst := by
  induction ends with
  | nil => exact List.prefix_refl _
  | cons e ends ih =>
    obtain ⟨hle, hends'⟩ := List.pairwise_cons.1 hends
    by_cases he : e.2 ≤ n
    · rw [wholeItems_cons_of_le he, List.map_cons]
      exact List.cons_prefix_cons.2 ⟨rfl, ih hends'⟩
    · rw [wholeItems_eq_nil fun x hx => ?_]
      · exact List.nil_prefix
      · rcases List.mem_cons.1 hx with rfl | hx
        · omega
        · have hge := hle x hx
          omega

/-- What a reader of a cut file fetches is a prefix of the items, and all of them if nothing has been
cut off. -/
lemma JournalOf.fetchAll_take {w : World} {blocks : List (List IndexLogItem)}
    {pending : List IndexLogItem} (hj : JournalOf w blocks pending) (m : ℕ) :
    ∃ items, (∃ fuel, ∀ k ≥ fuel, fetchAll (w.journal.take m) k indexLoggerOpen = some items) ∧
      items <+: blocks.flatten ∧ (w.journal.length ≤ m → items = blocks.flatten) := by
  by_cases hm : w.journal.length ≤ m
  · rw [List.take_of_length_le hm, hj.file]
    exact ⟨blocks.flatten, ⟨blocks.flatten.length + 1, fun k hk =>
      fetchAll_of_tailing k (Tailing.opened blocks) hj.fits (by simpa using hk)⟩,
      List.prefix_refl _, fun _ => rfl⟩
  · refine ⟨wholeItems m (itemEnds blocks), ⟨(wholeItems m (itemEnds blocks)).length + 1,
      fun k hk => ?_⟩, ?_, fun hle => absurd hle hm⟩
    · rw [hj.file]
      exact fetchAll_of_fetchMany (fun n => fetchMany_take m n hj.fits) hk
    · rw [← map_fst_itemEndsFrom magicHeader.length blocks]
      exact wholeItems_prefix m (pairwise_itemEndsFrom _ blocks)

/-- After a crash.  A store has been opened after any sessions, and calls, in which the data files may
fail, and `sync_storage` have followed one another until the process died; of the journal file the
first `m` bytes are left.  Then fetching from them ends, and the items that are fetched lead from the
index at the opening of the store to the index after the first stages of the session, except that
one key is missing if the next stage is an `update_block` that moves its record.  If the file is
whole then no `sync_storage` is among the other stages, and no more than 186 of these have changed
the index. -/
theorem journal_survives_crash {n largest : ℕ} {w₀ w₁ w : World} {bsp : Option Handle}
    {tr : List Stage} {h : Option (Held store)} (hl : Lived n .closed w₀)
    (hsize : n ≤ effectiveSize largest) (hopen : openStorage {} largest w₀ = ⟨0, bsp, w₁⟩)
    (hs : Staged w₁ tr h w) (m : ℕ) :
    ∃ items done rest h' w', tr = done ++ rest ∧ Staged w₁ done h' w' ∧
      (∃ fuel, ∀ k ≥ fuel, fetchAll (w.journal.take m) k indexLoggerOpen = some items) ∧
      (replay w₁.contents items = w'.contents ∨
        ∃ e rest' key data, rest = e :: rest' ∧ e.before = w' ∧
          e.step = .call (.update key data) ∧ w'.index (fixedKey key) ≠ none ∧
          replay w₁.contents items = Function.update w'.contents (fixedKey key) none) ∧
      (w.journal.length ≤ m → (∀ e ∈ rest, ∀ object, e.step ≠ .sync object) ∧
        ∀ changed : List Stage, changed.Sublist rest →
          (∀ e ∈ changed, e.after.contents ≠ e.before.contents) → changed.length ≤ 186) := by
  have hc : Closed n w₀ := hl.ok
  have hlimit := effectiveSize_of_open hc.inited (congrArg OpenResult.ret hopen)
  obtain ⟨w', hopen', -, -, -, hlogger, hjournal, -⟩ :=
    openStorage_spec largest hc.inited hc.whole hlimit
  obtain rfl : w₁ = w' := congrArg OpenResult.world (hopen.symm.trans hopen')
  have hstart : JournalOf w₁ [] [] := ⟨by rw [hjournal]; rfl, hlogger ▸ holds_create, by simp⟩
  obtain ⟨⟨log, blocks, pending, rfl, hi⟩, -⟩ :=
    hs.exists_inv (hc.opened hsize hopen).usable hstart
  obtain ⟨items, hfetch, hprefix, hwhole⟩ := hi.journal.fetchAll_take m
  have hlogged : items <+: log.flatMap Prod.snd :=
    hprefix.trans (hi.items ▸ List.prefix_append _ _)
  obtain ⟨done, rest, part, rfl, hcut⟩ := exists_cut log hlogged
  obtain ⟨h', w', hs', hrec⟩ := hi.recovers hs hcut
  refine ⟨items, done.map Prod.fst, rest.map Prod.fst, h', w', List.map_append, hs', hfetch, hrec,
    fun hm => ?_⟩
  rw [hwhole hm] at hcut
  refine ⟨fun e he => ?_, fun changed => hi.lost_le hcut⟩
  obtain ⟨x, hx, rfl⟩ := List.mem_map.1 he
  exact hi.sync_notMem_rest hcut hx

/-- A record is stored and the index is flushed; then all of it can be rebuilt. -/
theorem journal_survives_crash_synced :
    ∃ w₁ w₂ w₃ items, openStorage {} 1024 World.empty = ⟨0, some ⟨true, true, true⟩, w₁⟩ ∧
      exec (handle noFaults) (Call.update [1] [2]).prog [] w₁ = .returned { ret := 0 } [] w₂ ∧
      syncStorage noFaults completeWrite (ascii ['i', 'n', 'd', 'e', 'x']) w₂ = some w₃ ∧
      w₃.index (fixedKey [1]) ≠ none ∧
      (∃ fuel, ∀ k ≥ fuel, fetchAll w₃.journal k indexLoggerOpen = some items) ∧
      replay w₁.contents items = w₃.contents := by
  obtain ⟨w₁, hopen, hl, hcfg, hindex, -⟩ := exists_small_store
  have hupdate := small_update hl hcfg hindex [1]
  have hstart : Staged w₁ [] (some []) w₁ := .start
  have hcall := hstart.call noFaults ⟨rfl, rfl, fun _ => rfl⟩ (.update [1] [2])
  rw [Call.prog, hupdate] at hcall
  have hsync : syncStorage noFaults completeWrite (ascii ['i', 'n', 'd', 'e', 'x'])
      (w₁.appended noFaults 0 (fixedKey [1]) [2]) = some _ := rfl
  have hs := Staged.sync hcall noFaults _ hsync
  obtain ⟨items, done, rest, h', w', htr, hs', hfetch, hrec, hwhole⟩ :=
    journal_survives_crash (.start blank_empty) (Nat.zero_le _) hopen hs
      (World.journal _).length
  rw [List.take_length] at hfetch
  -- the `sync_storage` is the last stage, so all stages are there
  obtain rfl : rest = [] := by
    rcases List.eq_nil_or_concat' rest with hnil | ⟨rest', e, rfl⟩
    · exact hnil
    · rw [← List.append_assoc] at htr
      have hlast := List.singleton_inj.1 (List.append_inj' htr rfl).2
      exact absurd (congrArg Stage.step hlast.symm) ((hwhole le_rfl).1 e (by simp) _)
  rw [List.append_nil] at htr
  rw [← htr] at hs'
  obtain rfl := hs'.of_concat.2
  refine ⟨w₁, _, _, items, hopen, hupdate, hsync, by simp [noFaults], hfetch, ?_⟩
  rcases hrec with hrec | ⟨e, rest', key, data, hnil, -⟩
  · exact hrec
  · cases hnil

end Linglongta
