import Linglongta.IndexLog.Logger

/-!
# The format of the journal, and what one operation does to it

`journalBytes blocks` is the byte format of a journal file that holds the given blocks of items.
The logger side is described by `Holds il pending`: the working buffer of `il` holds exactly the
items `pending`, and they fit it.  With complete writes, `indexLoggerAppend` and
`indexLoggerFlush` move items from the pending ones to the end of the file, in order, in non-empty
blocks (`holds_append`, `holds_flush`).

The reader side is described by `Tailing rd file cur blocks`: the reader `rd` of `file` still has
to return `cur`, the rest of the block it is in, and then the items of `blocks`.  Each call of
`indexLoggerFetch` returns the first item still to come, and nothing exactly when there is none
(`fetch_of_tailing_nil`, `fetch_of_tailing_cons`, `fetch_of_tailing_block`); a block added to the
file is added to the blocks to come (`Tailing.extend`).
-/

namespace Linglongta

/-! ## The byte format -/

/-- The bytes of a list of items. -/
def encodeItems (items : List IndexLogItem) : List UInt8 :=
  items.flatMap IndexLogItem.encode

/-- The bytes of a block. -/
def encodeBlock (items : List IndexLogItem) : List UInt8 :=
  Bytes.toLE 4 (crc32Calc (encodeItems items)).toNat ++ Bytes.toLE 4 items.length ++
    encodeItems items

/-- The bytes of a list of blocks. -/
def encodeBlocks (blocks : List (List IndexLogItem)) : List UInt8 :=
  blocks.flatMap encodeBlock

/-- The bytes of a journal file. -/
def journalBytes (blocks : List (List IndexLogItem)) : List UInt8 :=
  magicHeader ++ encodeBlocks blocks

/-- A block as the logger writes it: not empty, and no longer than a buffer. -/
def BlockFits (items : List IndexLogItem) : Prop :=
  items ≠ [] ∧ items.length * indexLogItemSize ≤ logBufSize

/-- An operation type survives the round trip through its four-byte field. -/
lemma ofCode_code (t : OpType) : OpType.ofCode (Bytes.ofLE (Bytes.toLE 4 t.code)) = t := by
  have hlt : t.code < 256 ^ 4 := by
    cases t with
    | other c hc => exact hc.2
    | _ => decide
  rw [Bytes.ofLE_toLE hlt]
  cases t with
  | other c hc =>
    have h1 : c ≠ 1 := by omega
    have h2 : c ≠ 2 := by omega
    have h3 : c ≠ 3 := by omega
    rw [OpType.code, OpType.ofCode, if_neg h1, if_neg h2, if_neg h3, dif_pos hc]
  | _ => rfl

@[simp] lemma length_encode (ili : IndexLogItem) : ili.encode.length = indexLogItemSize := by
  simp [IndexLogItem.encode, ili.indexKey.size_eq, ili.indexValue.size_eq, keyLen, indexValueSize,
    indexLogItemSize]

@[simp] lemma length_encodeItems (items : List IndexLogItem) :
    (encodeItems items).length = items.length * indexLogItemSize := by
  simp [encodeItems, List.length_flatMap]

@[simp] lemma encodeItems_nil : encodeItems [] = [] := rfl

@[simp] lemma encodeItems_cons (x : IndexLogItem) (xs : List IndexLogItem) :
    encodeItems (x :: xs) = x.encode ++ encodeItems xs := rfl

@[simp] lemma encodeItems_append (xs ys : List IndexLogItem) :
    encodeItems (xs ++ ys) = encodeItems xs ++ encodeItems ys := by
  simp [encodeItems]

@[simp] lemma encodeBlocks_nil : encodeBlocks [] = [] := rfl

@[simp] lemma encodeBlocks_cons (b : List IndexLogItem) (bs : List (List IndexLogItem)) :
    encodeBlocks (b :: bs) = encodeBlock b ++ encodeBlocks bs := rfl

@[simp] lemma encodeBlocks_append (bs cs : List (List IndexLogItem)) :
    encodeBlocks (bs ++ cs) = encodeBlocks bs ++ encodeBlocks cs := by
  simp [encodeBlocks]

/-! ## The logger -/

/-- The working buffer of the logger holds exactly the items `pending`, and they fit it. -/
structure Holds (il : IndexLogger) (pending : List IndexLogItem) : Prop where
  /-- The counter counts them. -/
  count_eq : il.workingBuffer.count = pending.length
  /-- The buffer starts with their bytes. -/
  bytes_eq : il.workingBuffer.bufPtr.take (pending.length * indexLogItemSize) = encodeItems pending
  /-- They fit the buffer. -/
  fits : pending.length * indexLogItemSize ≤ logBufSize

@[simp] lemma workingBuffer_setWorkingBuffer (il : IndexLogger) (b : LogBuf) :
    (il.setWorkingBuffer b).workingBuffer = b := by
  by_cases h : il.currWorkingBuf = 1 <;>
    simp [IndexLogger.setWorkingBuffer, IndexLogger.workingBuffer, h]

@[simp] lemma workingBuffer_setStoringBuffer (il : IndexLogger) (b : LogBuf) :
    (il.setStoringBuffer b).workingBuffer = il.workingBuffer := by
  by_cases h : il.currWorkingBuf = 1 <;>
    simp [IndexLogger.setStoringBuffer, IndexLogger.workingBuffer, h]

/-- Switching makes the working buffer the storing buffer. -/
@[simp] lemma storingBuffer_switchBuffer (il : IndexLogger) :
    (switchBuffer il).storingBuffer = il.workingBuffer := by
  by_cases h : il.currWorkingBuf = 1 <;>
    simp [switchBuffer, IndexLogger.storingBuffer, IndexLogger.workingBuffer, h]

/-- Switching leaves an empty working buffer. -/
@[simp] lemma count_workingBuffer_switchBuffer (il : IndexLogger) :
    (switchBuffer il).workingBuffer.count = 0 := by
  by_cases h : il.currWorkingBuf = 1 <;>
    simp [switchBuffer, IndexLogger.workingBuffer, h]

/-- A new logger holds nothing. -/
lemma holds_create : Holds indexLoggerCreate [] := by
  refine ⟨rfl, rfl, Nat.zero_le _⟩

/-- Copying an item into a buffer with room for it adds it to the pending items. -/
lemma Holds.putItem {il : IndexLogger} {pending : List IndexLogItem} (hh : Holds il pending)
    (ili : IndexLogItem) (hroom : (pending.length + 1) * indexLogItemSize ≤ logBufSize) :
    Holds (il.putItem ili) (pending ++ [ili]) := by
  refine ⟨?_, ?_, ?_⟩
  · simp [IndexLogger.putItem, hh.count_eq]
  · simp only [IndexLogger.putItem, workingBuffer_setWorkingBuffer, hh.count_eq, hh.bytes_eq]
    rw [encodeItems_append, List.take_of_length_le]
    · simp
    · simp [indexLogItemSize]
      omega
  · simpa using hroom

/-- Switching the buffers and writing the full one adds the pending items to the file as one
block, and nothing is pending any more. -/
lemma sync_of_holds {il : IndexLogger} {pending : List IndexLogItem} (hh : Holds il pending)
    (file : List UInt8) :
    (syncIndexLog completeWrite (switchBuffer il) file).ret = 0 ∧
      (syncIndexLog completeWrite (switchBuffer il) file).file = file ++ encodeBlock pending ∧
      Holds (syncIndexLog completeWrite (switchBuffer il) file).logger [] := by
  have hlen : (encodeItems pending).length ≤ logBufSize := by
    simpa using hh.fits
  have himage : ∀ crc : UInt32,
      ({ crc32sum := crc, count := pending.length,
         bufPtr := il.workingBuffer.bufPtr } : LogBuf).image =
        Bytes.toLE 4 crc.toNat ++ Bytes.toLE 4 pending.length ++ encodeItems pending := by
    intro crc
    simp [LogBuf.image, hh.bytes_eq]
  have himageLen : ∀ crc : UInt32,
      (Bytes.toLE 4 crc.toNat ++ Bytes.toLE 4 pending.length ++ encodeItems pending).length =
        pending.length * indexLogItemSize + logBufHeaderSize := by
    intro crc
    simp [logBufHeaderSize]
    omega
  simp only [syncIndexLog, storingBuffer_switchBuffer, writeFile, completeWrite,
    Option.map_some, Option.elim_some, hh.count_eq, hh.bytes_eq, himage, himageLen]
  have hfit : pending.length * indexLogItemSize + logBufHeaderSize ≤
      logBufSize + logBufHeaderSize := by
    have := hh.fits
    omega
  refine ⟨?_, ?_, ?_⟩
  · rw [if_pos]
    simpa using hfit
  · rw [List.take_of_length_le (by rw [himageLen]; exact hfit)]
    rfl
  · refine ⟨by simp, by simp, Nat.zero_le _⟩

/-- What `index_logger_append` does when its write is complete: the item is pending, and the items
that were pending before either still are, or have gone to the file as one block. -/
lemma holds_append {il : IndexLogger} {pending : List IndexLogItem} (hh : Holds il pending)
    (file : List UInt8) (ili : IndexLogItem) :
    ∃ blocks pending',
      (indexLoggerAppend completeWrite il file ili).ret = 0 ∧
      (indexLoggerAppend completeWrite il file ili).file = file ++ encodeBlocks blocks ∧
      Holds (indexLoggerAppend completeWrite il file ili).logger pending' ∧
      blocks.flatten ++ pending' = pending ++ [ili] ∧ (∀ b ∈ blocks, BlockFits b) := by
  by_cases hfull : logBufSize < (il.workingBuffer.count + 1) * indexLogItemSize
  · -- the working buffer is full: it goes to the file
    obtain ⟨hret, hfile, hlog⟩ := sync_of_holds hh file
    have happ : indexLoggerAppend completeWrite il file ili =
        { syncIndexLog completeWrite (switchBuffer il) file with
          logger := (syncIndexLog completeWrite (switchBuffer il) file).logger.putItem ili } := by
      simp [indexLoggerAppend, hfull, hret]
    have hne : pending ≠ [] := by
      rintro rfl
      simp [hh.count_eq, logBufSize, indexLogItemSize, logBufHeaderSize] at hfull
    rw [happ]
    refine ⟨[pending], [ili], hret, by simp [hfile], ?_, by simp, ?_⟩
    · exact hlog.putItem ili (by decide)
    · rintro b hb
      obtain rfl : b = pending := by simpa using hb
      exact ⟨hne, hh.fits⟩
  · have hroom : (pending.length + 1) * indexLogItemSize ≤ logBufSize := by
      rw [← hh.count_eq]
      omega
    have happ : indexLoggerAppend completeWrite il file ili =
        { ret := 0, logger := il.putItem ili, file := file } := by
      simp [indexLoggerAppend, hfull]
    rw [happ]
    exact ⟨[], pending ++ [ili], rfl, by simp, hh.putItem ili hroom, by simp, by simp⟩

/-- What `index_logger_flush` does when its write is complete: everything pending has gone to the
file, as at most one block. -/
lemma holds_flush {il : IndexLogger} {pending : List IndexLogItem} (hh : Holds il pending)
    (file : List UInt8) :
    ∃ blocks,
      (indexLoggerFlush completeWrite il file).ret = 0 ∧
      (indexLoggerFlush completeWrite il file).file = file ++ encodeBlocks blocks ∧
      Holds (indexLoggerFlush completeWrite il file).logger [] ∧
      blocks.flatten = pending ∧ (∀ b ∈ blocks, BlockFits b) := by
  by_cases hzero : il.workingBuffer.count = 0
  · have hpend : pending = [] := by
      rw [hh.count_eq] at hzero
      exact List.eq_nil_of_length_eq_zero hzero
    subst hpend
    refine ⟨[], ?_⟩
    simp [indexLoggerFlush, hzero, hh]
  · obtain ⟨hret, hfile, hlog⟩ := sync_of_holds hh file
    have hne : pending ≠ [] := by
      rintro rfl
      exact hzero hh.count_eq
    refine ⟨[pending], ?_⟩
    simp only [indexLoggerFlush, if_neg hzero]
    refine ⟨hret, by simp [hfile], hlog, by simp, ?_⟩
    rintro b hb
    obtain rfl : b = pending := by simpa using hb
    exact ⟨hne, hh.fits⟩

/-! ## The reader -/

/-- The reader still has to return `cur`, the rest of the block it is in, and then the items of
`blocks`.  Before its first call it has to get past the magic number too. -/
inductive Tailing : LogReader → List UInt8 → List IndexLogItem → List (List IndexLogItem) → Prop
  /-- The reader has just been opened. -/
  | opened (blocks : List (List IndexLogItem)) :
      Tailing indexLoggerOpen (journalBytes blocks) [] blocks
  /-- The reader is between two blocks. -/
  | between {rd : LogReader} {file : List UInt8} {blocks : List (List IndexLogItem)}
      (started : 0 < rd.pos ∧ rd.fetchPos = rd.pos) (bound : rd.pos ≤ file.length)
      (rest : file.drop rd.pos = encodeBlocks blocks) (id_eq : rd.fetchId = -1) :
      Tailing rd file [] blocks
  /-- The reader is inside a block. -/
  | inside {rd : LogReader} {file : List UInt8} {cur : List IndexLogItem}
      {blocks : List (List IndexLogItem)} (started : 0 < rd.pos ∧ rd.fetchPos = rd.pos)
      (bound : rd.pos ≤ file.length)
      (rest : file.drop rd.pos = encodeItems cur ++ encodeBlocks blocks) (ne_nil : cur ≠ [])
      (id_nonneg : 0 ≤ rd.fetchId)
      (amount_eq : rd.fetchRecordsAmount = rd.fetchId + cur.length) :
      Tailing rd file cur blocks

/-- A block written to the file is one more block to come. -/
lemma Tailing.extend {rd : LogReader} {file : List UInt8} {cur : List IndexLogItem}
    {blocks : List (List IndexLogItem)} (ht : Tailing rd file cur blocks)
    (more : List (List IndexLogItem)) :
    Tailing rd (file ++ encodeBlocks more) cur (blocks ++ more) := by
  cases ht with
  | opened blocks =>
    have : journalBytes blocks ++ encodeBlocks more = journalBytes (blocks ++ more) := by
      simp [journalBytes]
    rw [this]
    exact .opened _
  | between started bound rest id_eq =>
    refine .between started (by simp; omega) ?_ id_eq
    rw [List.drop_append_of_le_length bound, rest, encodeBlocks_append]
  | inside started bound rest ne_nil id_nonneg amount_eq =>
    refine .inside started (by simp; omega) ?_ ne_nil id_nonneg amount_eq
    rw [List.drop_append_of_le_length bound, rest, encodeBlocks_append, List.append_assoc]

/-- Reading the `n` bytes that stand at the reader's position. -/
lemma read_of_drop (rd : LogReader) {file a b : List UInt8} {n : ℕ}
    (h : file.drop rd.pos = a ++ b) (ha : a.length = n) :
    rd.read file n = (a, { rd with pos := rd.pos + n }) := by
  have hbytes : (file.drop rd.pos).take n = a := by
    rw [h, ← ha, List.take_left]
  simp [LogReader.read, hbytes, ha]

/-- What stands behind the bytes just read. -/
lemma drop_add_of_drop {file a b : List UInt8} {pos n : ℕ} (h : file.drop pos = a ++ b)
    (ha : a.length = n) : file.drop (pos + n) = b := by
  rw [← List.drop_drop, h, ← ha, List.drop_left]

/-- A position with bytes behind it is inside the file. -/
lemma add_le_of_drop {file a b : List UInt8} {pos n : ℕ} (h : file.drop pos = a ++ b)
    (ha : a.length = n) (hpos : pos ≤ file.length) : pos + n ≤ file.length := by
  have := congrArg List.length h
  simp only [List.length_drop, List.length_append] at this
  omega

/-- Reading an item that stands at the reader's position. -/
lemma readItem_of_drop {rd : LogReader} {file rest : List UInt8} {x : IndexLogItem}
    (h : file.drop rd.pos = x.encode ++ rest) :
    rd.readItem file = (some x,
      { rd with
        pos := rd.pos + indexLogItemSize
        fetchId := if rd.fetchId + 1 = rd.fetchRecordsAmount then -1 else rd.fetchId + 1 }) := by
  have hkey := x.indexKey.size_eq
  have hvalue := x.indexValue.size_eq
  have h1 : file.drop rd.pos =
      Bytes.toLE 4 x.type.code ++ (x.indexKey.bytes ++ (x.indexValue.bytes ++ rest)) := by
    rw [h, IndexLogItem.encode]
    simp
  have h2 := drop_add_of_drop h1 (Bytes.length_toLE 4 _)
  have h3 := drop_add_of_drop h2 hkey
  have hkeyEq : Blob.copy keyLen x.indexKey.bytes = x.indexKey :=
    Blob.ext (Blob.copy_bytes keyLen hkey)
  have hvalueEq : Blob.copy indexValueSize x.indexValue.bytes = x.indexValue :=
    Blob.ext (Blob.copy_bytes indexValueSize hvalue)
  have r1 := read_of_drop rd h1 (Bytes.length_toLE 4 _)
  have r2 := read_of_drop { rd with pos := rd.pos + 4 } h2 hkey
  have r3 := read_of_drop { rd with pos := rd.pos + 4 + keyLen } h3 hvalue
  have hpos : rd.pos + 4 + keyLen + indexValueSize = rd.pos + indexLogItemSize := by
    simp only [keyLen, indexValueSize, indexLogItemSize]
  simp only [LogReader.readItem, r1, r2, r3, Bytes.length_toLE, hkey, hvalue, ofCode_code,
    hkeyEq, hvalueEq, ne_eq, not_true_eq_false, if_false, hpos]

/-- Reading the two words of a block header that stand at the position of a reader between two
blocks. -/
lemma readBlockHeader_of_words {rd : LogReader} {file crc rest : List UInt8} {count : ℕ}
    (h : file.drop rd.pos = crc ++ (Bytes.toLE 4 count ++ rest)) (hcrc : crc.length = 4)
    (hid : rd.fetchId = -1) (hcount : count < 256 ^ 4) :
    rd.readBlockHeader file = (true,
      { rd with pos := rd.pos + 8, fetchRecordsAmount := count, fetchId := 0 }) := by
  have h2 := drop_add_of_drop h hcrc
  have r1 := read_of_drop rd h hcrc
  have r2 := read_of_drop { rd with pos := rd.pos + 4 } h2 (Bytes.length_toLE 4 _)
  simp only [LogReader.readBlockHeader, if_pos hid, r1, r2, Bytes.length_toLE, hcrc, ne_eq,
    not_true_eq_false, if_false, Bytes.ofLE_toLE hcount]

/-- Reading the header of a block that stands at the position of a reader between two blocks. -/
lemma readBlockHeader_of_drop {rd : LogReader} {file rest : List UInt8} {b : List IndexLogItem}
    (h : file.drop rd.pos = encodeBlock b ++ rest) (hid : rd.fetchId = -1)
    (hb : b.length < 256 ^ 4) :
    rd.readBlockHeader file = (true,
      { rd with pos := rd.pos + 8, fetchRecordsAmount := b.length, fetchId := 0 }) := by
  have hwords : file.drop rd.pos = Bytes.toLE 4 (crc32Calc (encodeItems b)).toNat ++
      (Bytes.toLE 4 b.length ++ (encodeItems b ++ rest)) := by
    rw [h, encodeBlock]
    simp
  exact readBlockHeader_of_words hwords (Bytes.length_toLE 4 _) hid hb

/-- The magic number is read once. -/
lemma readMagic_of_started {rd : LogReader} {file : List UInt8}
    (hs : 0 < rd.pos ∧ rd.fetchPos = rd.pos) : rd.readMagic file = (true, rd) := by
  have : rd.fetchPos ≠ 0 := by omega
  simp [LogReader.readMagic, this]

/-- The reader after the magic number has been dealt with. -/
lemma readMagic_of_tailing {rd : LogReader} {file : List UInt8} {cur : List IndexLogItem}
    {blocks : List (List IndexLogItem)} (ht : Tailing rd file cur blocks) :
    ∃ rd', rd.readMagic file = (true, rd') ∧ rd'.pos ≤ file.length ∧
      0 < rd'.pos ∧
      file.drop rd'.pos = encodeItems cur ++ encodeBlocks blocks ∧
      (cur = [] → rd'.fetchId = -1) ∧
      (cur ≠ [] → 0 ≤ rd'.fetchId ∧ rd'.fetchRecordsAmount = rd'.fetchId + cur.length) := by
  cases ht with
  | opened =>
    have h : (journalBytes blocks).drop indexLoggerOpen.pos =
        magicHeader ++ encodeBlocks blocks := rfl
    refine ⟨{ indexLoggerOpen with pos := 4 }, ?_, ?_, ?_, ?_, ?_, ?_⟩
    · have hread := read_of_drop indexLoggerOpen h (n := 4) rfl
      simp only [LogReader.readMagic, hread, if_pos (show indexLoggerOpen.fetchPos = 0 from rfl),
        decide_true]
      rfl
    · simp [journalBytes, magicHeader]
    · simp
    · simp [journalBytes, magicHeader]
    · simp [indexLoggerOpen]
    · simp
  | between started bound rest id_eq =>
    refine ⟨rd, readMagic_of_started started, bound, started.1, ?_, ?_, ?_⟩
    · simpa using rest
    · exact fun _ => id_eq
    · simp
  | inside started bound rest ne_nil id_nonneg amount_eq =>
    exact ⟨rd, readMagic_of_started started, bound, started.1, rest,
      fun h => absurd h ne_nil, fun _ => ⟨id_nonneg, amount_eq⟩⟩

/-- The last part of a fetch, once the reader stands in front of an item of the current block. -/
lemma fetchItem {rd rd₁ rd₂ : LogReader} {file : List UInt8} {x : IndexLogItem}
    {xs : List IndexLogItem} {blocks : List (List IndexLogItem)}
    (hmagic : rd.readMagic file = (true, rd₁))
    (hheader : rd₁.readBlockHeader file = (true, rd₂)) (hpos : rd₂.pos ≤ file.length)
    (hrest : file.drop rd₂.pos = encodeItems (x :: xs) ++ encodeBlocks blocks)
    (hid : 0 ≤ rd₂.fetchId)
    (hamount : rd₂.fetchRecordsAmount = rd₂.fetchId + ((x :: xs).length : ℕ)) :
    ∃ rd', indexLoggerFetch true file rd = (some x, rd') ∧ Tailing rd' file xs blocks := by
  have hitem : file.drop rd₂.pos = x.encode ++ (encodeItems xs ++ encodeBlocks blocks) := by
    simpa using hrest
  have hread := readItem_of_drop hitem
  have hnext := drop_add_of_drop hitem (length_encode x)
  have hbound := add_le_of_drop hitem (length_encode x) hpos
  refine ⟨_, by simp [indexLoggerFetch, hmagic, hheader, hread]; rfl, ?_⟩
  cases xs with
  | nil =>
    refine .between ?_ hbound (by simpa using hnext) ?_
    · simp [indexLogItemSize]
    · have : rd₂.fetchId + 1 = rd₂.fetchRecordsAmount := by simp [hamount]
      simp [this]
  | cons y ys =>
    have hne : rd₂.fetchId + 1 ≠ rd₂.fetchRecordsAmount := by
      rw [hamount]
      push_cast [List.length_cons]
      omega
    refine .inside ?_ hbound hnext (by simp) ?_ ?_
    · simp [indexLogItemSize]
    · simp only [if_neg hne]
      omega
    · simp only [if_neg hne]
      rw [hamount]
      push_cast [List.length_cons]
      omega

/-- A fetch when nothing is left to return. -/
lemma fetch_of_tailing_nil {rd : LogReader} {file : List UInt8}
    (ht : Tailing rd file [] []) :
    ∃ rd', indexLoggerFetch true file rd = (none, rd') ∧ Tailing rd' file [] [] := by
  obtain ⟨rd₁, hmagic, hpos, hstart, hrest, hid, -⟩ := readMagic_of_tailing ht
  have hnil : file.drop rd₁.pos = [] := by
    simpa using hrest
  have hread : rd₁.read file 4 = ([], rd₁) := by
    simp [LogReader.read, hnil]
  refine ⟨{ rd₁ with fetchPos := rd₁.pos }, ?_, ?_⟩
  · simp [indexLoggerFetch, hmagic, LogReader.readBlockHeader, hid rfl, hread]
  · exact .between ⟨hstart, rfl⟩ hpos hrest (hid rfl)

/-- A fetch inside a block. -/
lemma fetch_of_tailing_cons {rd : LogReader} {file : List UInt8} {x : IndexLogItem}
    {xs : List IndexLogItem} {blocks : List (List IndexLogItem)}
    (ht : Tailing rd file (x :: xs) blocks) :
    ∃ rd', indexLoggerFetch true file rd = (some x, rd') ∧ Tailing rd' file xs blocks := by
  cases ht with
  | inside started bound rest ne_nil id_nonneg amount_eq =>
    have hheader : rd.readBlockHeader file = (true, rd) := by
      have : rd.fetchId ≠ -1 := by omega
      simp [LogReader.readBlockHeader, this]
    exact fetchItem (readMagic_of_started started) hheader bound rest id_nonneg amount_eq

/-- The reader reads the header of the next block and stands in front of its items. -/
lemma readBlockHeader_of_tailing {rd : LogReader} {file : List UInt8} {b : List IndexLogItem}
    {blocks : List (List IndexLogItem)} (hfits : BlockFits b) (hpos : rd.pos ≤ file.length)
    (hrest : file.drop rd.pos = encodeBlock b ++ encodeBlocks blocks) (hid : rd.fetchId = -1) :
    rd.readBlockHeader file = (true,
        { rd with pos := rd.pos + 8, fetchRecordsAmount := b.length, fetchId := 0 }) ∧
      rd.pos + 8 ≤ file.length ∧
      file.drop (rd.pos + 8) = encodeItems b ++ encodeBlocks blocks := by
  have hlen : b.length < 256 ^ 4 := by
    have := hfits.2
    simp only [indexLogItemSize, logBufSize, logBufHeaderSize] at this
    omega
  have hsplit : file.drop rd.pos =
      (Bytes.toLE 4 (crc32Calc (encodeItems b)).toNat ++ Bytes.toLE 4 b.length) ++
        (encodeItems b ++ encodeBlocks blocks) := by
    rw [hrest, encodeBlock, List.append_assoc]
  exact ⟨readBlockHeader_of_drop hrest hid hlen, add_le_of_drop hsplit (by simp) hpos,
    drop_add_of_drop hsplit (by simp)⟩

/-- A fetch between two blocks, when a block is left. -/
lemma fetch_of_tailing_block {rd : LogReader} {file : List UInt8} {x : IndexLogItem}
    {xs : List IndexLogItem} {blocks : List (List IndexLogItem)}
    (ht : Tailing rd file [] ((x :: xs) :: blocks)) (hfits : BlockFits (x :: xs)) :
    ∃ rd', indexLoggerFetch true file rd = (some x, rd') ∧ Tailing rd' file xs blocks := by
  obtain ⟨rd₁, hmagic, hpos, -, hrest, hid, -⟩ := readMagic_of_tailing ht
  obtain ⟨hheader, hbound, hdrop⟩ := readBlockHeader_of_tailing hfits hpos
    (by simpa using hrest) (hid rfl)
  exact fetchItem hmagic hheader hbound hdrop le_rfl (by simp)

/-- A fetch that gets no memory may read the header of a block, but no item. -/
lemma fetch_of_tailing_nomem {rd : LogReader} {file : List UInt8} {cur : List IndexLogItem}
    {blocks : List (List IndexLogItem)} (ht : Tailing rd file cur blocks)
    (hfits : ∀ b ∈ blocks, BlockFits b) :
    ∃ rd' cur' blocks', indexLoggerFetch false file rd = (none, rd') ∧
      Tailing rd' file cur' blocks' ∧ (∀ b ∈ blocks', BlockFits b) ∧
      cur ++ blocks.flatten = cur' ++ blocks'.flatten := by
  obtain ⟨rd₁, hmagic, hpos, hstart, hrest, hid, hin⟩ := readMagic_of_tailing ht
  by_cases hcur : cur = []
  · subst hcur
    cases blocks with
    | nil =>
      have hread : rd₁.read file 4 = ([], rd₁) := by
        simp [LogReader.read, hrest]
      refine ⟨{ rd₁ with fetchPos := rd₁.pos }, [], [], ?_, ?_, hfits, rfl⟩
      · simp [indexLoggerFetch, hmagic, LogReader.readBlockHeader, hid rfl, hread]
      · exact .between ⟨hstart, rfl⟩ hpos (by simpa using hrest) (hid rfl)
    | cons b bs =>
      obtain ⟨hheader, hbound, hdrop⟩ := readBlockHeader_of_tailing (hfits b (by simp)) hpos
        (by simpa using hrest) (hid rfl)
      refine ⟨_, b, bs, by simp [indexLoggerFetch, hmagic, hheader]; rfl, ?_, ?_, by simp⟩
      · exact .inside ⟨by simp, rfl⟩ hbound hdrop (hfits b (by simp)).1 le_rfl (by simp)
      · exact fun c hc => hfits c (List.mem_cons_of_mem _ hc)
  · obtain ⟨hid0, hamount⟩ := hin hcur
    have hne : rd₁.fetchId ≠ -1 := by omega
    refine ⟨{ rd₁ with fetchPos := rd₁.pos }, cur, blocks, ?_, ?_, hfits, rfl⟩
    · simp [indexLoggerFetch, hmagic, LogReader.readBlockHeader, hne]
    · exact .inside ⟨hstart, rfl⟩ hpos hrest hcur hid0 hamount

/-- A fetch returns the first item to come and goes behind it. -/
lemma fetch_spec {rd : LogReader} {file : List UInt8} {cur : List IndexLogItem}
    {blocks : List (List IndexLogItem)} (ht : Tailing rd file cur blocks)
    (hfits : ∀ b ∈ blocks, BlockFits b) :
    ∃ ili rd' cur' blocks', indexLoggerFetch true file rd = (ili, rd') ∧
      Tailing rd' file cur' blocks' ∧ (∀ b ∈ blocks', BlockFits b) ∧
      cur ++ blocks.flatten = ili.toList ++ (cur' ++ blocks'.flatten) ∧
      (ili = none → cur ++ blocks.flatten = []) := by
  cases cur with
  | cons x xs =>
    obtain ⟨rd', hf, ht'⟩ := fetch_of_tailing_cons ht
    exact ⟨some x, rd', xs, blocks, hf, ht', hfits, by simp, by simp⟩
  | nil =>
    cases blocks with
    | nil =>
      obtain ⟨rd', hf, ht'⟩ := fetch_of_tailing_nil ht
      exact ⟨none, rd', [], [], hf, ht', hfits, by simp, by simp⟩
    | cons b bs =>
      cases b with
      | nil => exact absurd rfl (hfits [] (by simp)).1
      | cons x xs =>
        obtain ⟨rd', hf, ht'⟩ := fetch_of_tailing_block ht (hfits _ (by simp))
        refine ⟨some x, rd', xs, bs, hf, ht', ?_, by simp, by simp⟩
        exact fun b hb => hfits b (List.mem_cons_of_mem _ hb)

/-- The answers of `n` calls of `index_logger_fetch`, one after the other. -/
def fetchMany (file : List UInt8) : ℕ → LogReader → List (Option IndexLogItem)
  | 0, _ => []
  | n + 1, rd =>
    (indexLoggerFetch true file rd).1 :: fetchMany file n (indexLoggerFetch true file rd).2

/-- Repeated fetching returns each item to come once, in order, and then nothing. -/
lemma fetchMany_of_tailing {file : List UInt8} (n : ℕ) {rd : LogReader}
    {cur : List IndexLogItem} {blocks : List (List IndexLogItem)}
    (ht : Tailing rd file cur blocks) (hfits : ∀ b ∈ blocks, BlockFits b) :
    fetchMany file n rd = ((cur ++ blocks.flatten).take n).map some ++
      List.replicate (n - (cur ++ blocks.flatten).length) none := by
  induction n generalizing rd cur blocks with
  | zero => simp [fetchMany]
  | succ n ih =>
    obtain ⟨ili, rd', cur', blocks', hf, ht', hfits', hsplit, hnone⟩ := fetch_spec ht hfits
    rw [fetchMany, hf, ih ht' hfits']
    cases ili with
    | some x =>
      rw [hsplit]
      simp
    | none =>
      have hnil : cur' ++ blocks'.flatten = [] := by
        rw [← hnone rfl, hsplit]
        rfl
      rw [hnone rfl, hnil]
      simp [List.replicate_succ]

end Linglongta
