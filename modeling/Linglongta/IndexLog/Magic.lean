import Linglongta.IndexLog.Torn

/-!
# A file that is no journal

`index_logger_fetch` checks the magic number only while `fetch_pos` is `0`, and every call, also one
that has found a wrong magic number, sets `fetch_pos` to the position of the file.  So the check is
made once: a second call on the same reader takes what stands behind the first four bytes for the
header of a block.

A reader is `Started` once `fetch_pos` is not `0`.  It reads the header of a block, if it is not
inside one, and an item; `itemEnd` is where that item ends.  The item is returned if the file goes
that far and there is memory for it, and a call that returns nothing does not change whether the
file goes that far (`fetch_started`).  The law of the whole run follows by induction over the calls
(`fetches_started`).
-/

namespace Linglongta

/-- What the calls of `index_logger_fetch` return, one after another.  Each entry of the list is one
call, and says whether its allocations succeed. -/
def fetches (file : List UInt8) : List Bool → LogReader → List (Option IndexLogItem)
  | [], _ => []
  | mem :: mems, rd =>
    let (ili, rd') := indexLoggerFetch mem file rd
    ili :: fetches file mems rd'

/-- The file is shorter than the magic number, or does not start with it. -/
def WrongMagic (file : List UInt8) : Prop :=
  file.length < magicHeader.length ∨ file.take magicHeader.length ≠ magicHeader

/-- The size of the smallest file that has room for an item: the magic number, the header of a block
and one item. -/
def smallestJournal : ℕ := magicHeader.length + logBufHeaderSize + indexLogItemSize

namespace LogReader

/-- The reader is behind the check of the magic number, and inside the file. -/
structure Started (rd : LogReader) (file : List UInt8) : Prop where
  /-- The next call makes no check. -/
  unchecked : rd.fetchPos ≠ 0
  /-- Something has been read. -/
  pos_pos : 0 < rd.pos
  /-- Nothing is read behind the end of the file. -/
  inFile : rd.pos ≤ file.length

/-- Where the item ends that the next call of `index_logger_fetch` tries to read. -/
def itemEnd (rd : LogReader) : ℕ :=
  rd.pos + (if rd.fetchId = -1 then logBufHeaderSize else 0) + indexLogItemSize

end LogReader

open LogReader

section Started

variable {rd : LogReader} {file : List UInt8}

/-- The header of a block is there. -/
lemma readBlockHeader_of_le (hid : rd.fetchId = -1) (hk : rd.pos + 8 ≤ file.length) :
    ∃ count, rd.readBlockHeader file =
      (true, { rd with pos := rd.pos + 8, fetchRecordsAmount := count, fetchId := 0 }) := by
  have hk' : rd.pos + 4 ≤ file.length := by omega
  obtain ⟨hcrc, hrd⟩ := read_of_le rd hk'
  obtain ⟨hcount, hrd'⟩ := read_of_le { rd with pos := rd.pos + 4 } (k := 4) hk
  refine ⟨Bytes.ofLE (({ rd with pos := rd.pos + 4 } : LogReader).read file 4).1, ?_⟩
  simp only [LogReader.readBlockHeader, if_pos hid, hcrc, ne_eq, not_true_eq_false, if_false, hrd,
    hcount, hrd']

/-- An item is there. -/
lemma readItem_of_le (hk : rd.pos + indexLogItemSize ≤ file.length) :
    ∃ ili, (rd.readItem file).1 = some ili := by
  have hsize : indexLogItemSize = 4 + keyLen + indexValueSize := rfl
  have hkey' : rd.pos + 4 + keyLen ≤ file.length := by omega
  have htype' : rd.pos + 4 ≤ file.length := by omega
  have hvalue' : rd.pos + 4 + keyLen + indexValueSize ≤ file.length := by omega
  obtain ⟨htype, hrd⟩ := read_of_le rd htype'
  obtain ⟨hkey, hrd'⟩ := read_of_le { rd with pos := rd.pos + 4 } hkey'
  obtain ⟨hvalue, -⟩ := read_of_le { rd with pos := rd.pos + 4 + keyLen } hvalue'
  simp only [LogReader.readItem, htype, ne_eq, not_true_eq_false, if_false, hrd, hkey, hrd', hvalue,
    Option.some.injEq, exists_eq']

/-- The header of a block is cut off, or the reader is in front of the item that it looks for. -/
lemma readBlockHeader_cases (hs : rd.Started file) :
    (rd.readBlockHeader file = (false, { rd with pos := file.length }) ∧
      file.length < rd.itemEnd) ∨
    ∃ rd₁, rd.readBlockHeader file = (true, rd₁) ∧ rd₁.fetchId ≠ -1 ∧ 0 < rd₁.pos ∧
      rd₁.pos ≤ file.length ∧ rd₁.pos + indexLogItemSize = rd.itemEnd := by
  by_cases hid : rd.fetchId = -1
  · have hend : rd.itemEnd = rd.pos + 8 + indexLogItemSize := by
      rw [itemEnd, if_pos hid]
      rfl
    by_cases hk : rd.pos + 8 ≤ file.length
    · obtain ⟨count, hheader⟩ := readBlockHeader_of_le hid hk
      exact Or.inr ⟨_, hheader, by simp, Nat.succ_pos _, hk, hend.symm⟩
    · refine Or.inl ⟨readBlockHeader_of_short hid hs.inFile (Nat.not_le.1 hk), ?_⟩
      omega
  · refine Or.inr ⟨rd, ?_, hid, hs.pos_pos, hs.inFile, ?_⟩
    · simp [LogReader.readBlockHeader, hid]
    · rw [itemEnd, if_neg hid, Nat.add_zero]

/-- What a call that reads to the end of the file leaves behind: a reader for which no item ends
within the file any more. -/
lemma started_at_end (hs : rd.Started file) {rd' : LogReader} (hpos : rd'.pos = file.length)
    (hfetch : rd'.fetchPos = file.length) : rd'.Started file ∧ file.length < rd'.itemEnd := by
  have hlen : 0 < file.length := hs.pos_pos.trans_le hs.inFile
  refine ⟨⟨by omega, by omega, hpos.le⟩, ?_⟩
  have hsize : 0 < indexLogItemSize := by decide
  rw [itemEnd, hpos]
  omega

/-- One call on a reader that has been started.  If the file ends before the item does, nothing is
returned, now and later; if there is no memory, nothing is returned, and the item is still to come;
else an item is returned. -/
lemma fetch_started (hs : rd.Started file) (mem : Bool) :
    (file.length < rd.itemEnd ∧ ∃ rd', indexLoggerFetch mem file rd = (none, rd') ∧
      rd'.Started file ∧ file.length < rd'.itemEnd) ∨
    (mem = false ∧ ∃ rd', indexLoggerFetch mem file rd = (none, rd') ∧
      rd'.Started file ∧ rd'.itemEnd = rd.itemEnd) ∨
    (mem = true ∧ rd.itemEnd ≤ file.length ∧
      ∃ ili rd', indexLoggerFetch mem file rd = (some ili, rd')) := by
  have hmagic : rd.readMagic file = (true, rd) := by
    simp [LogReader.readMagic, hs.unchecked]
  rcases readBlockHeader_cases hs with ⟨hheader, hend⟩ | ⟨rd₁, hheader, hid, hpos, hin, hend⟩
  · have hfetch : indexLoggerFetch mem file rd =
        (none, { rd with pos := file.length, fetchPos := file.length }) := by
      simp [indexLoggerFetch, hmagic, hheader]
    exact Or.inl ⟨hend, _, hfetch, started_at_end hs rfl rfl⟩
  · cases mem with
    | false =>
      have hfetch : indexLoggerFetch false file rd = (none, { rd₁ with fetchPos := rd₁.pos }) := by
        simp [indexLoggerFetch, hmagic, hheader]
      refine Or.inr (Or.inl ⟨rfl, _, hfetch, ⟨hpos.ne', hpos, hin⟩, ?_⟩)
      rw [← hend, itemEnd, if_neg hid, Nat.add_zero]
    | true =>
      have hfetch : indexLoggerFetch true file rd = ((rd₁.readItem file).1,
          { (rd₁.readItem file).2 with fetchPos := (rd₁.readItem file).2.pos }) := by
        simp [indexLoggerFetch, hmagic, hheader]
      rw [hfetch, ← hend]
      by_cases hk : rd₁.pos + indexLogItemSize ≤ file.length
      · obtain ⟨ili, hitem⟩ := readItem_of_le hk
        exact Or.inr (Or.inr ⟨rfl, hk, ili, _, by rw [hitem]⟩)
      · rw [readItem_of_short hin (Nat.not_le.1 hk)]
        exact Or.inl ⟨Nat.not_le.1 hk, _, rfl, started_at_end hs rfl rfl⟩

/-- Any number of calls on a reader that has been started: all of them return nothing if and only if
the file ends before the next item does, or no call finds memory. -/
lemma fetches_started (mems : List Bool) (hs : rd.Started file) :
    (∀ r ∈ fetches file mems rd, r = none) ↔ file.length < rd.itemEnd ∨ true ∉ mems := by
  induction mems generalizing rd with
  | nil => simp [fetches]
  | cons mem mems ih =>
    rcases fetch_started hs mem with ⟨hend, rd', hfetch, hs', hend'⟩ |
      ⟨rfl, rd', hfetch, hs', hend'⟩ | ⟨rfl, hend, ili, rd', hfetch⟩
    · simp [fetches, hfetch, ih hs', hend, hend']
    · simp [fetches, hfetch, ih hs', hend']
    · simp [fetches, hfetch, hend]

end Started

/-! ## From the first call on -/

section Magic

variable {file : List UInt8}

/-- The first call on a file with a wrong magic number returns nothing, and leaves a reader whose
`fetch_pos` is not `0` unless the file is empty. -/
lemma fetch_wrongMagic (hmagic : WrongMagic file) (mem : Bool) :
    indexLoggerFetch mem file indexLoggerOpen =
      (none, { indexLoggerOpen with
        pos := min magicHeader.length file.length
        fetchPos := min magicHeader.length file.length }) := by
  have hread : indexLoggerOpen.read file 4 =
      (file.take 4, { indexLoggerOpen with pos := min 4 file.length }) := by
    simp [LogReader.read, indexLoggerOpen]
  have hwrong : file.take 4 ≠ magicHeader := by
    rcases hmagic with hshort | hne
    · intro heq
      have hlen := congrArg List.length heq
      rw [List.length_take] at hlen
      have hfour : magicHeader.length = 4 := rfl
      omega
    · exact hne
  have hfail : indexLoggerOpen.readMagic file =
      (false, { indexLoggerOpen with pos := min 4 file.length }) := by
    simp only [LogReader.readMagic, if_pos (show indexLoggerOpen.fetchPos = 0 from rfl), hread,
      decide_eq_false hwrong]
  simp [indexLoggerFetch, hfail, magicHeader]

/-- An empty file yields nothing: `fetch_pos` stays `0`, and every call looks for the magic
number. -/
lemma fetches_nil (mems : List Bool) : ∀ r ∈ fetches [] mems indexLoggerOpen, r = none := by
  induction mems with
  | nil => simp [fetches]
  | cons mem mems ih =>
    have hfetch : indexLoggerFetch mem [] indexLoggerOpen = (none, indexLoggerOpen) :=
      fetch_wrongMagic (Or.inl (by decide)) mem
    simpa [fetches, hfetch] using ih

/-- A file with a wrong magic number.  All calls of `index_logger_fetch` return nothing if and only
if the file is too short to hold the magic number, the header of a block and an item, or no call
after the first one finds memory for an item. -/
theorem fetches_wrongMagic_iff (file : List UInt8) (hmagic : WrongMagic file) (mems : List Bool) :
    (∀ r ∈ fetches file mems indexLoggerOpen, r = none) ↔
      file.length < smallestJournal ∨ true ∉ mems.tail := by
  cases mems with
  | nil => simp [fetches]
  | cons mem mems =>
    rcases Nat.eq_zero_or_pos file.length with hlen | hlen
    · obtain rfl := List.eq_nil_of_length_eq_zero hlen
      exact iff_of_true (fetches_nil _) (Or.inl (by decide))
    · have hfour : magicHeader.length = 4 := rfl
      have hs : Started { indexLoggerOpen with
          pos := min magicHeader.length file.length
          fetchPos := min magicHeader.length file.length } file :=
        ⟨by simp only; omega, by simp only; omega, by simp only; omega⟩
      simp only [fetches, fetch_wrongMagic hmagic, List.forall_mem_cons, true_and, List.tail_cons]
      rw [fetches_started mems hs]
      -- a file without the whole magic number is too short for an item, too
      have hend : file.length < min magicHeader.length file.length + logBufHeaderSize +
          indexLogItemSize ↔ file.length < smallestJournal := by
        have hheader : logBufHeaderSize = 8 := rfl
        rw [smallestJournal]
        omega
      exact or_congr_left hend

/-- A file of four zeros yields nothing, in all of three calls. -/
theorem fetches_four_zeros :
    WrongMagic [0, 0, 0, 0] ∧
      ∀ r ∈ fetches [0, 0, 0, 0] [true, true, true] indexLoggerOpen, r = none := by
  have hmagic : WrongMagic [0, 0, 0, 0] := Or.inr (by decide)
  exact ⟨hmagic, (fetches_wrongMagic_iff _ hmagic _).2 (Or.inl (by decide))⟩

/-- A file of 56 zeros is no journal, and the second call returns an item. -/
theorem fetches_zeros_item :
    WrongMagic (List.replicate 56 0) ∧
      ¬∀ r ∈ fetches (List.replicate 56 0) [true, true] indexLoggerOpen, r = none := by
  have hrun : fetches (List.replicate 56 0) [true, true] indexLoggerOpen =
      [none, some ⟨.unknownOp, Blob.copy keyLen (List.replicate 16 0),
        Blob.copy indexValueSize (List.replicate 24 0)⟩] := by decide
  refine ⟨Or.inr (by decide), fun hnone => ?_⟩
  rw [hrun] at hnone
  simp at hnone

end Magic

end Linglongta
