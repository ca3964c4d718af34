import Linglongta.IndexLog.Format

/-!
# A reader that tails the writer

One logger made by `index_logger_create` and one reader made, at some later time, by
`index_logger_open` of the same file.  A `Session` is the state of both with the file between them
and, as ghosts, the items appended and the items fetched so far; `Session.step` is one call of
`index_logger_append`, `index_logger_flush`, `index_logger_close`, `index_logger_open` or
`index_logger_fetch`, in any order the two handles allow.  Every `write` is complete; an allocation
of a fetch may fail.

The invariant `Session.Inv` splits the items of the file into those fetched, the rest of the block
the reader is in, and the blocks to come.  One call keeps it (`Inv.step`), so every sequence of
calls does (`Inv.run`).
-/

namespace Linglongta

/-- The writer, the reader and the file between them. -/
structure Session where
  /-- The logger in append mode, until it is closed. -/
  logger : Option IndexLogger
  /-- The journal file. -/
  file : List UInt8
  /-- The logger in read mode, once it is opened. -/
  reader : Option LogReader
  /-- The items appended so far. -/
  appended : List IndexLogItem
  /-- The items fetched so far. -/
  fetched : List IndexLogItem

/-- A call on one of the two handles. -/
inductive LogCall
  /-- `index_logger_append`. -/
  | append (ili : IndexLogItem)
  /-- `index_logger_flush`. -/
  | flush
  /-- `index_logger_close` of the logger in append mode. -/
  | close
  /-- `index_logger_open`. -/
  | open
  /-- `index_logger_fetch`, with or without memory for the item. -/
  | fetch (mem : Bool)

namespace Session

/-- The session after `index_logger_create`. -/
def create : Session where
  logger := some indexLoggerCreate
  file := magicHeader
  reader := none
  appended := []
  fetched := []

/-- One call.  A call on a handle that is not there cannot be made, and a handle is opened once. -/
def step (s : Session) : LogCall → Option Session
  | .append ili => s.logger.map fun il =>
      let r := indexLoggerAppend completeWrite il s.file ili
      { s with logger := some r.logger, file := r.file, appended := s.appended ++ [ili] }
  | .flush => s.logger.map fun il =>
      let r := indexLoggerFlush completeWrite il s.file
      { s with logger := some r.logger, file := r.file }
  | .close => s.logger.map fun il =>
      { s with logger := none, file := indexLoggerClose completeWrite il s.file }
  | .open => if s.reader = none then some { s with reader := some indexLoggerOpen } else none
  | .fetch mem => s.reader.map fun rd =>
      let (ili, rd') := indexLoggerFetch mem s.file rd
      { s with reader := some rd', fetched := s.fetched ++ ili.toList }

/-- A sequence of calls, one after the other. -/
def run (s : Session) (calls : List LogCall) : Option Session :=
  calls.foldlM step s

/-- The items `pending` wait in the logger; once it is closed there are none. -/
def Waits (s : Session) (pending : List IndexLogItem) : Prop :=
  match s.logger with
  | some il => Holds il pending
  | none => pending = []

/-- The reader has to return `cur` and then the items of `blocks`; if it is not there yet, it will
have to return the whole file. -/
def Comes (s : Session) (cur : List IndexLogItem) (blocks : List (List IndexLogItem)) : Prop :=
  match s.reader with
  | some rd => Tailing rd s.file cur blocks
  | none => s.fetched = [] ∧ cur = [] ∧ s.file = journalBytes blocks

/-- The invariant of a session, for the items that wait and those that are to come. -/
structure Inv (s : Session) (written : List (List IndexLogItem))
    (cur : List IndexLogItem) (blocks : List (List IndexLogItem))
    (pending : List IndexLogItem) : Prop where
  /-- What the file holds. -/
  file_eq : s.file = journalBytes written
  /-- Each item of the file has been fetched or is to come. -/
  written_eq : written.flatten = s.fetched ++ cur ++ blocks.flatten
  /-- Each item appended is in the file or waits. -/
  appended_eq : s.appended = written.flatten ++ pending
  /-- Where the reader stands. -/
  comes : s.Comes cur blocks
  /-- What the logger holds. -/
  waits : s.Waits pending
  /-- The blocks to come are blocks of the logger. -/
  fits : ∀ b ∈ blocks, BlockFits b

/-- New blocks at the end of the file are blocks to come. -/
lemma Comes.extend {s s' : Session} {cur : List IndexLogItem} {blocks : List (List IndexLogItem)}
    (hc : s.Comes cur blocks) (more : List (List IndexLogItem)) (hreader : s'.reader = s.reader)
    (hfetched : s'.fetched = s.fetched) (hfile : s'.file = s.file ++ encodeBlocks more) :
    s'.Comes cur (blocks ++ more) := by
  unfold Comes at hc ⊢
  rw [hreader, hfetched, hfile]
  cases hr : s.reader with
  | some rd =>
    rw [hr] at hc
    exact Tailing.extend hc more
  | none =>
    rw [hr] at hc
    obtain ⟨hnil, hcur, hf⟩ := hc
    refine ⟨hnil, hcur, ?_⟩
    rw [hf]
    simp [journalBytes]

/-- What a call of the writer does to the invariant: some blocks go to the end of the file. -/
lemma Inv.write {s s' : Session} {written blocks : List (List IndexLogItem)}
    {cur pending : List IndexLogItem} (hi : s.Inv written cur blocks pending)
    (more : List (List IndexLogItem)) (pending' : List IndexLogItem)
    (hreader : s'.reader = s.reader) (hfetched : s'.fetched = s.fetched)
    (hfile : s'.file = s.file ++ encodeBlocks more)
    (happended : s'.appended = written.flatten ++ (more.flatten ++ pending'))
    (hwaits : s'.Waits pending') (hmore : ∀ b ∈ more, BlockFits b) :
    s'.Inv (written ++ more) cur (blocks ++ more) pending' where
  file_eq := by
    rw [hfile, hi.file_eq]
    simp [journalBytes]
  written_eq := by
    rw [List.flatten_append, hi.written_eq, hfetched]
    simp
  appended_eq := by
    rw [happended]
    simp
  comes := hi.comes.extend more hreader hfetched hfile
  waits := hwaits
  fits := by
    intro b hb
    rcases List.mem_append.1 hb with h | h
    · exact hi.fits b h
    · exact hmore b h

/-- One call keeps the invariant. -/
lemma Inv.step {s s' : Session} {c : LogCall} {written blocks : List (List IndexLogItem)}
    {cur pending : List IndexLogItem} (hi : s.Inv written cur blocks pending)
    (hc : s.step c = some s') : ∃ written cur blocks pending, s'.Inv written cur blocks pending := by
  obtain ⟨logger, file, reader, appended, fetched⟩ := s
  cases c with
  | append ili =>
    simp only [Session.step, Option.map_eq_some_iff] at hc
    obtain ⟨il, rfl, rfl⟩ := hc
    obtain ⟨more, pending', -, hfile, hholds, hflat, hfits⟩ := holds_append hi.waits file ili
    refine ⟨_, _, _, _, hi.write more pending' rfl rfl hfile ?_ hholds hfits⟩
    rw [hflat, ← List.append_assoc, ← hi.appended_eq]
  | flush =>
    simp only [Session.step, Option.map_eq_some_iff] at hc
    obtain ⟨il, rfl, rfl⟩ := hc
    obtain ⟨more, -, hfile, hholds, hflat, hfits⟩ := holds_flush hi.waits file
    refine ⟨_, _, _, _, hi.write more [] rfl rfl hfile ?_ hholds hfits⟩
    rw [hflat, List.append_nil, ← hi.appended_eq]
  | close =>
    simp only [Session.step, Option.map_eq_some_iff] at hc
    obtain ⟨il, rfl, rfl⟩ := hc
    obtain ⟨more, -, hfile, -, hflat, hfits⟩ := holds_flush hi.waits file
    refine ⟨_, _, _, _, hi.write more [] rfl rfl hfile ?_ rfl hfits⟩
    rw [hflat, List.append_nil, ← hi.appended_eq]
  | «open» =>
    simp only [Session.step] at hc
    split at hc
    case isTrue hnone =>
      obtain rfl : reader = none := hnone
      simp only [Option.some.injEq] at hc
      subst hc
      obtain ⟨-, rfl, hfile⟩ := hi.comes
      obtain rfl : file = journalBytes blocks := hfile
      exact ⟨written, [], blocks, pending, hi.file_eq, hi.written_eq, hi.appended_eq,
        Tailing.opened blocks, hi.waits, hi.fits⟩
    case isFalse => simp at hc
  | fetch mem =>
    simp only [Session.step, Option.map_eq_some_iff] at hc
    obtain ⟨rd, rfl, rfl⟩ := hc
    have hwritten := hi.written_eq
    cases mem with
    | true =>
      obtain ⟨ili, rd', cur', blocks', hf, ht', hfits', hsplit, -⟩ := fetch_spec hi.comes hi.fits
      refine ⟨written, cur', blocks', pending, hi.file_eq, ?_, hi.appended_eq, ?_, hi.waits, hfits'⟩
      · simp only [hf]
        rw [hwritten, List.append_assoc, hsplit]
        simp
      · simpa only [Comes, hf] using ht'
    | false =>
      obtain ⟨rd', cur', blocks', hf, ht', hfits', hsplit⟩ :=
        fetch_of_tailing_nomem hi.comes hi.fits
      refine ⟨written, cur', blocks', pending, hi.file_eq, ?_, hi.appended_eq, ?_, hi.waits, hfits'⟩
      · simp only [hf]
        rw [hwritten, List.append_assoc, hsplit]
        simp
      · simpa only [Comes, hf] using ht'

/-- A sequence of calls keeps the invariant. -/
lemma Inv.run {s s' : Session} {calls : List LogCall} {written blocks : List (List IndexLogItem)}
    {cur pending : List IndexLogItem} (hi : s.Inv written cur blocks pending)
    (hr : s.run calls = some s') : ∃ written cur blocks pending, s'.Inv written cur blocks pending := by
  induction calls generalizing s written cur blocks pending with
  | nil =>
    obtain rfl : s = s' := by simpa [Session.run] using hr
    exact ⟨_, _, _, _, hi⟩
  | cons c calls ih =>
    obtain ⟨s₁, hc, hr'⟩ := Option.bind_eq_some_iff.1 hr
    obtain ⟨_, _, _, _, hi'⟩ := hi.step hc
    exact ih hi' hr'

/-- The session of a new logger has the invariant. -/
lemma inv_create : create.Inv [] [] [] [] := by
  refine ⟨?_, rfl, rfl, ⟨rfl, rfl, ?_⟩, holds_create, by simp⟩
  · simp [Session.create, journalBytes]
  · simp [Session.create, journalBytes]

/-- The reader tails the writer exactly.  In every session that a sequence of calls leads to, the
items fetched are a prefix of the items appended; a fetch answers `NULL` only if the items fetched
are all those the file holds; after the close, further fetching answers the items not yet fetched,
once each and in order, and then `NULL`; and the working buffer does not overflow. -/
theorem reader_tails_writer (calls : List LogCall) (s : Session)
    (hs : create.run calls = some s) :
    s.fetched <+: s.appended ∧
    (∀ rd, s.reader = some rd → (indexLoggerFetch true s.file rd).1 = none →
      ∃ written, s.file = journalBytes written ∧ s.fetched = written.flatten) ∧
    (∀ rd, s.reader = some rd → s.logger = none →
      ∃ rest, s.appended = s.fetched ++ rest ∧
        ∀ n, fetchMany s.file n rd = (rest.take n).map some ++
          List.replicate (n - rest.length) none) ∧
    (∀ il, s.logger = some il → il.workingBuffer.count * indexLogItemSize ≤ logBufSize) := by
  obtain ⟨written, cur, blocks, pending, hi⟩ := inv_create.run hs
  refine ⟨?_, ?_, ?_, ?_⟩
  · rw [hi.appended_eq, hi.written_eq]
    simp only [List.append_assoc]
    exact List.prefix_append _ _
  · intro rd hrd hnull
    have ht : Tailing rd s.file cur blocks := by
      simpa only [Comes, hrd] using hi.comes
    obtain ⟨ili, rd', cur', blocks', hf, -, -, -, hnone⟩ := fetch_spec ht hi.fits
    rw [hf] at hnull
    refine ⟨written, hi.file_eq, ?_⟩
    rw [hi.written_eq, List.append_assoc, hnone hnull, List.append_nil]
  · intro rd hrd hclosed
    have ht : Tailing rd s.file cur blocks := by
      simpa only [Comes, hrd] using hi.comes
    have hpending : pending = [] := by
      simpa only [Waits, hclosed] using hi.waits
    refine ⟨cur ++ blocks.flatten, ?_, fun n => fetchMany_of_tailing n ht hi.fits⟩
    rw [hi.appended_eq, hi.written_eq, hpending]
    simp
  · intro il hil
    have hh : Holds il pending := by
      simpa only [Waits, hil] using hi.waits
    rw [hh.count_eq]
    exact hh.fits

/-- An item for the session below. -/
def sampleItem : IndexLogItem where
  type := .append
  indexKey := Blob.copy keyLen [1]
  indexValue := Blob.copy indexValueSize [2]

/-- One item appended, the logger closed, the reader opened and the item fetched. -/
def sampleCalls : List LogCall :=
  [.append sampleItem, .close, .open, .fetch true]

theorem reader_tails_writer_sample :
    ∃ s, create.run sampleCalls = some s ∧ s.fetched = [sampleItem] ∧
      s.fetched <+: s.appended := by
  have hsome : (create.run sampleCalls).isSome := by decide +kernel
  have hfetched : (create.run sampleCalls).map Session.fetched = some [sampleItem] := by
    decide +kernel
  obtain ⟨s, hs⟩ := Option.isSome_iff_exists.1 hsome
  refine ⟨s, hs, ?_, (reader_tails_writer sampleCalls s hs).1⟩
  simpa [hs] using hfetched

end Session

end Linglongta
