import Linglongta.Storage.Index

/-!
# The index journal

`indexlog.c`.  A logger in append mode collects items in a working buffer; when the buffer is full,
or on a flush, the two buffers are switched and the full one is written to the journal file as one
block: a CRC32, the number of items, and the items.  A logger in read mode walks over the file with
`read`, item by item.  The file starts with a four-byte magic number.

The file is its list of bytes: it is opened with `O_APPEND`, so a `write` adds to its end, and
`out` is what the kernel does with the bytes of one `write` (`none` for an error, `some n` for a
transfer of at most `n` bytes).  The bytes of a buffer that lie behind its `count` items are never
read, and are left out.
-/

namespace Linglongta

/-- `enum op_type_t`.  The last constructor is a value of the four-byte field that is none of the
enumerators, as it may be read from a file that no logger wrote. -/
inductive OpType
  /-- `index_unknown_op`. -/
  | unknownOp
  /-- `index_append`. -/
  | append
  /-- `index_modify`. -/
  | modify
  /-- `index_del`. -/
  | del
  /-- Any other value of the field. -/
  | other (code : ℕ) (valid : 4 ≤ code ∧ code < 256 ^ 4)
deriving DecidableEq

/-- The integer value of an operation type. -/
def OpType.code : OpType → ℕ
  | unknownOp => 0
  | append => 1
  | modify => 2
  | del => 3
  | other c _ => c

/-- The operation type of an integer value. -/
def OpType.ofCode (c : ℕ) : OpType :=
  if c = 1 then append
  else if c = 2 then modify
  else if c = 3 then del
  else if h : 4 ≤ c ∧ c < 256 ^ 4 then other c h
  else unknownOp

/-- `struct index_log_item_s`, with what its two pointers point to. -/
structure IndexLogItem where
  /-- The operation. -/
  type : OpType
  /-- The key it is about. -/
  indexKey : Key
  /-- The image of the index value. -/
  indexValue : Blob indexValueSize
deriving DecidableEq

/-- `INDEX_LOG_ITEM_SIZE`. -/
def indexLogItemSize : ℕ := 44

/-- `LOG_BUF_HEADER_SIZE`. -/
def logBufHeaderSize : ℕ := 8

/-- `LOG_BUF_SIZE`. -/
def logBufSize : ℕ := 1024 * 8 - logBufHeaderSize

/-- `htonl(MAGIC_HEADER)` in memory order. -/
def magicHeader : List UInt8 := [0x1d, 0x81, 0x09, 0x00]

/-- The three `memcpy` of `index_logger_append`. -/
def IndexLogItem.encode (ili : IndexLogItem) : List UInt8 :=
  Bytes.toLE 4 ili.type.code ++ ili.indexKey.bytes ++ ili.indexValue.bytes

/-- `struct buf_s`, with the first `count` items of `buf_ptr`. -/
structure LogBuf where
  /-- The CRC32 of the items, set when the buffer is written. -/
  crc32sum : UInt32 := 0
  /-- The number of items. -/
  count : ℕ := 0
  /-- The bytes of the items. -/
  bufPtr : List UInt8 := []
deriving DecidableEq

/-- `struct index_logger_s` in append mode. -/
structure IndexLogger where
  /-- Which of the two buffers is the working buffer: `1` or `2`. -/
  currWorkingBuf : ℕ
  /-- The first buffer. -/
  buffer1 : LogBuf
  /-- The second buffer. -/
  buffer2 : LogBuf
deriving DecidableEq

namespace IndexLogger

/-- `il->working_buffer`. -/
def workingBuffer (il : IndexLogger) : LogBuf :=
  if il.currWorkingBuf = 1 then il.buffer1 else il.buffer2

/-- `il->storing_buffer`. -/
def storingBuffer (il : IndexLogger) : LogBuf :=
  if il.currWorkingBuf = 1 then il.buffer2 else il.buffer1

/-- Assign `*il->working_buffer`. -/
def setWorkingBuffer (il : IndexLogger) (b : LogBuf) : IndexLogger :=
  if il.currWorkingBuf = 1 then { il with buffer1 := b } else { il with buffer2 := b }

/-- Assign `*il->storing_buffer`. -/
def setStoringBuffer (il : IndexLogger) (b : LogBuf) : IndexLogger :=
  if il.currWorkingBuf = 1 then { il with buffer2 := b } else { il with buffer1 := b }

end IndexLogger

/-- The logger made by `index_logger_create`; the journal file then holds the magic number. -/
def indexLoggerCreate : IndexLogger where
  currWorkingBuf := 1
  buffer1 := {}
  buffer2 := {}

/-- `switch_buffer`: the working buffer becomes the storing buffer, and the former storing buffer
is emptied and becomes the working buffer. -/
def switchBuffer (il : IndexLogger) : IndexLogger :=
  if il.currWorkingBuf = 1 then
    { il with currWorkingBuf := 2, buffer2 := { il.buffer2 with crc32sum := 0, count := 0 } }
  else
    { il with currWorkingBuf := 1, buffer1 := { il.buffer1 with crc32sum := 0, count := 0 } }

/-- What a logger operation returns and leaves behind. -/
structure LogResult where
  /-- `RET_SUCCESS` is `0`, `RET_FAILED` is `-1`. -/
  ret : Int
  /-- The logger. -/
  logger : IndexLogger
  /-- The journal file. -/
  file : List UInt8

/-- `write(2)` at the end of the file: the number of bytes transferred (none for an error) and the
file afterwards. -/
def writeFile (out : Option ℕ) (file bytes : List UInt8) : Option ℕ × List UInt8 :=
  (out.map fun n => min n bytes.length, file ++ (out.elim [] fun n => bytes.take n))

/-- A `write` that transfers everything: no block is longer than a buffer with its header. -/
def completeWrite : Option ℕ := some (logBufSize + logBufHeaderSize)

/-- The bytes of a buffer that `sync_index_log` writes. -/
def LogBuf.image (b : LogBuf) : List UInt8 :=
  Bytes.toLE 4 b.crc32sum.toNat ++ Bytes.toLE 4 b.count ++
    b.bufPtr.take (b.count * indexLogItemSize)

/-- `sync_index_log`. -/
def syncIndexLog (out : Option ℕ) (il : IndexLogger) (file : List UInt8) : LogResult :=
  let b := il.storingBuffer
  let b := { b with crc32sum := crc32Calc (b.bufPtr.take (b.count * indexLogItemSize)) }
  let (nwrite, file') := writeFile out file b.image
  { ret := if nwrite = some (b.count * indexLogItemSize + logBufHeaderSize) then 0 else -1
    logger := il.setStoringBuffer b
    file := file' }

/-- The end of `index_logger_append`: copy the item behind the others of the working buffer. -/
def IndexLogger.putItem (il : IndexLogger) (ili : IndexLogItem) : IndexLogger :=
  let b := il.workingBuffer
  il.setWorkingBuffer
    { b with
      count := b.count + 1
      bufPtr := b.bufPtr.take (b.count * indexLogItemSize) ++ ili.encode }

/-- `index_logger_append`. -/
def indexLoggerAppend (out : Option ℕ) (il : IndexLogger) (file : List UInt8)
    (ili : IndexLogItem) : LogResult :=
  if logBufSize < (il.workingBuffer.count + 1) * indexLogItemSize then
    -- the working buffer is full
    let s := syncIndexLog out (switchBuffer il) file
    if s.ret ≠ 0 then s
    else { s with logger := s.logger.putItem ili }
  else
    { ret := 0, logger := il.putItem ili, file := file }

/-- `index_logger_flush`. -/
def indexLoggerFlush (out : Option ℕ) (il : IndexLogger) (file : List UInt8) : LogResult :=
  if il.workingBuffer.count = 0 then { ret := 0, logger := il, file := file }
  else syncIndexLog out (switchBuffer il) file

/-- `index_logger_close` in append mode: the file it leaves behind.  A failed flush is only
logged. -/
def indexLoggerClose (out : Option ℕ) (il : IndexLogger) (file : List UInt8) : List UInt8 :=
  (indexLoggerFlush out il file).file

/-! ## Reading -/

/-- `struct index_logger_s` in read mode. -/
structure LogReader where
  /-- The file position of `fd`. -/
  pos : ℕ
  /-- `fetch_pos`. -/
  fetchPos : ℕ
  /-- `fetch_records_amount`. -/
  fetchRecordsAmount : Int
  /-- `fetch_id`. -/
  fetchId : Int
deriving DecidableEq

/-- The reader made by `index_logger_open`. -/
def indexLoggerOpen : LogReader where
  pos := 0
  fetchPos := 0
  fetchRecordsAmount := -1
  fetchId := -1

/-- `read(2)`: the bytes read and the reader with its position moved behind them. -/
def LogReader.read (rd : LogReader) (file : List UInt8) (n : ℕ) : List UInt8 × LogReader :=
  let bytes := (file.drop rd.pos).take n
  (bytes, { rd with pos := rd.pos + bytes.length })

/-- The first part of `index_logger_fetch`: the magic number, at the first call only. -/
def LogReader.readMagic (rd : LogReader) (file : List UInt8) : Bool × LogReader :=
  if rd.fetchPos = 0 then
    let (magic, rd) := rd.read file 4
    (magic = magicHeader, rd)
  else (true, rd)

/-- The second part of `index_logger_fetch`: the header of a new block. -/
def LogReader.readBlockHeader (rd : LogReader) (file : List UInt8) : Bool × LogReader :=
  if rd.fetchId = -1 then
    let (crc32sum, rd) := rd.read file 4
    if crc32sum.length ≠ 4 then (false, rd)
    else
      let (count, rd) := rd.read file 4
      if count.length ≠ 4 then (false, rd)
      else (true, { rd with fetchRecordsAmount := Bytes.ofLE count, fetchId := 0 })
  else (true, rd)

/-- The last part of `index_logger_fetch`: the three fields of an item. -/
def LogReader.readItem (rd : LogReader) (file : List UInt8) : Option IndexLogItem × LogReader :=
  let (type, rd) := rd.read file 4
  if type.length ≠ 4 then (none, rd)
  else
    let (key, rd) := rd.read file keyLen
    if key.length ≠ keyLen then (none, rd)
    else
      let (value, rd) := rd.read file indexValueSize
      if value.length ≠ indexValueSize then (none, rd)
      else
        let fetchId := rd.fetchId + 1
        (some ⟨OpType.ofCode (Bytes.ofLE type), Blob.copy keyLen key,
          Blob.copy indexValueSize value⟩,
          { rd with fetchId := if fetchId = rd.fetchRecordsAmount then -1 else fetchId })

/-- `index_logger_fetch`; `mem` says whether its three allocations succeed. -/
def indexLoggerFetch (mem : Bool) (file : List UInt8) (rd : LogReader) :
    Option IndexLogItem × LogReader :=
  let (ok, rd) := rd.readMagic file
  let (ili, rd) :=
    if ok = false then (none, rd)
    else
      let (ok, rd) := rd.readBlockHeader file
      if ok = false ∨ mem = false then (none, rd)
      else rd.readItem file
  -- done:
  (ili, { rd with fetchPos := rd.pos })

end Linglongta
