import Linglongta.Foundations.ByteFile
import Linglongta.Foundations.Program
import Linglongta.IndexLog.Logger

/-!
# The state of the block store, and what the system answers

The global variables of `storage.c` (the table of block sizes and the table of block files), the
data files, the Berkeley DB index and the journal.  The operations of the store are programs over
the interface `store`: they read and write the tables in memory, ask the index and the kernel, and
take the index lock and the lock of a block file.

A `Faults` says what each request of one call is answered: which error the index reports, how many
bytes a `pread` or a `pwrite` transfers, whether memory is left.  `handle` answers the requests of a
call under such a choice.  A file cannot grow beyond `offMax`, so a `pwrite` there fails.

Sizes, offsets and counters are natural numbers; the header on disk holds them as eight-byte words.
-/

namespace Linglongta

/-- `MAX_BLOCK_CNT`. -/
def maxBlockCnt : ℕ := 20

/-- `MAX_FREE_SLOTS`. -/
def maxFreeSlots : ℕ := 100 * 1000

/-- `SLOTS_SECTION_POS`: three words stand before the list of free slots. -/
def slotsSectionPos : ℕ := 24

/-- `DATA_SECTION_POS`: the header with the whole list of free slots. -/
def dataSectionPos : ℕ := slotsSectionPos + 8 * maxFreeSlots

/-- `BEGINNING_SIZE`. -/
def beginningSize : ℕ := 128

/-- `LARGEST_SIZE`. -/
def largestSize : ℕ := 1024 * 1024 * 4

/-- `DB_NOTFOUND` of Berkeley DB. -/
def dbNotfound : Int := -30988

/-- The largest `off_t`. -/
def offMax : ℕ := 2 ^ 63 - 1

/-- What an open descriptor of the table of block files refers to. -/
inductive Fd
  /-- Descriptor `0`, which is what a zeroed table entry holds. -/
  | stdin
  /-- The data file of a block size. -/
  | data (blockSize : ℕ)
deriving DecidableEq

/-- `struct block_file_t` without its lock. -/
structure BlockFile where
  /-- `fd`; none is the `-1` that `close_storage` leaves. -/
  fd : Option Fd
  /-- `block_size`. -/
  blockSize : ℕ
  /-- `block_cnt`. -/
  blockCnt : ℕ
  /-- `free_slots_cnt`. -/
  freeSlotsCnt : ℕ
  /-- `free_slots_offset`. -/
  freeSlotsOffset : ℕ → ℕ

namespace BlockFile

/-- `fh->fd > 0`. -/
def fdPositive (fh : BlockFile) : Bool :=
  match fh.fd with
  | some (.data _) => true
  | _ => false

/-- An entry of the table after the `memset` of `init_storage`. -/
def zero : BlockFile where
  fd := some .stdin
  blockSize := 0
  blockCnt := 0
  freeSlotsCnt := 0
  freeSlotsOffset := fun _ => 0

/-- The three words that `sync_data_file_header` writes. -/
def headerImage (fh : BlockFile) : List UInt8 :=
  Bytes.toLE 8 fh.blockSize ++ Bytes.toLE 8 fh.blockCnt ++ Bytes.toLE 8 fh.freeSlotsCnt

/-- What `append_block` does to the table entry under the file lock: take a free slot if there is
one, else a new slot behind the last one.  The result is the offset of the slot and the entry. -/
def takeSlot (fh : BlockFile) : ℕ × BlockFile :=
  if fh.freeSlotsCnt ≠ 0 then
    (fh.freeSlotsOffset (fh.freeSlotsCnt - 1),
      { fh with
        freeSlotsOffset := Function.update fh.freeSlotsOffset (fh.freeSlotsCnt - 1) 0
        freeSlotsCnt := fh.freeSlotsCnt - 1
        blockCnt := fh.blockCnt + 1 })
  else
    let fh' := { fh with blockCnt := fh.blockCnt + 1 }
    (dataSectionPos + fh'.blockSize * (fh'.blockCnt - 1), fh')

/-- What `do_delete_block` does to the table entry under the file lock, when the list of free slots
has room: the slot goes to the end of the list. -/
def putSlot (fh : BlockFile) (offset : ℕ) : BlockFile :=
  { fh with
    blockCnt := fh.blockCnt - 1
    freeSlotsOffset := Function.update fh.freeSlotsOffset fh.freeSlotsCnt offset
    freeSlotsCnt := fh.freeSlotsCnt + 1 }

end BlockFile

/-- The global variables, the files and the index. -/
structure World where
  /-- `inited_global_vars`. -/
  inited : Bool
  /-- `block_type_count`. -/
  blockTypeCount : ℕ
  /-- `block_size_array`. -/
  blockSizeArray : ℕ → ℕ
  /-- `block_filehandler_array`. -/
  fileHandler : ℕ → BlockFile
  /-- The files behind the descriptors; none if there is no such file (or, for descriptor `0`, if
  it cannot be read at an offset). -/
  disk : Fd → Option ByteFile
  /-- The index. -/
  index : Key → Option IndexValue
  /-- The logger of the handle. -/
  logger : IndexLogger
  /-- The journal file. -/
  journal : List UInt8

/-- The three places from which `sync_data_file` is called. -/
inductive WriteKind
  /-- The header words. -/
  | header
  /-- One entry of the list of free slots. -/
  | slot
  /-- The data of a record. -/
  | record
deriving DecidableEq

/-- How a `pread` or `pwrite` ends. -/
inductive Transfer
  /-- All bytes are transferred. -/
  | complete
  /-- At most this many bytes are. -/
  | short (n : ℕ)
  /-- The call returns `-1`. -/
  | failed
deriving DecidableEq

namespace Transfer

/-- The bytes that are transferred. -/
def bytes (t : Transfer) (data : List UInt8) : List UInt8 :=
  match t with
  | complete => data
  | short n => data.take n
  | failed => []

/-- The return value for so many bytes, none for `-1`. -/
def count (t : Transfer) (len : ℕ) : Option ℕ :=
  match t with
  | complete => some len
  | short n => some (min n len)
  | failed => none

end Transfer

/-- What the requests of one call are answered. -/
structure Faults where
  /-- The error of `find_record`, if it reports one other than that there is no such key. -/
  findRecord : Option { e : Int // e ≠ 0 ∧ e ≠ dbNotfound } := none
  /-- The result of `insert_record`. -/
  insertRecord : Int := 0
  /-- The result of `del_record`. -/
  delRecord : Int := 0
  /-- Whether `slab_alloc` finds memory. -/
  slabAlloc : Bool := true
  /-- The outcome of the `pread` of a record. -/
  pread : Transfer := .complete
  /-- The outcome of each `pwrite`, by what it writes and to which block file. -/
  pwrite : WriteKind → ℕ → Transfer := fun _ _ => .complete
  /-- The outcome of the `write` of a journal block, by the item that causes it. -/
  journal : OpType → Option ℕ := fun _ => completeWrite

/-- Everything succeeds. -/
def noFaults : Faults := {}

/-- The part of the global variables that does not change while the store is open. -/
structure Config where
  /-- `block_type_count`. -/
  blockTypeCount : ℕ
  /-- `block_size_array`. -/
  blockSizeArray : ℕ → ℕ

/-- The requests of the store's operations. -/
inductive StoreReq
  /-- Read the table of block sizes. -/
  | config
  /-- Read an entry of the table of block files. -/
  | fileHandler (b : ℕ)
  /-- Change an entry of the table of block files. -/
  | setFileHandler (b : ℕ) (fh : BlockFile)
  /-- `slab_alloc`. -/
  | slabAlloc (size : ℕ)
  /-- `find_record`. -/
  | findRecord (k : Key)
  /-- `insert_record`. -/
  | insertRecord (k : Key) (iv : IndexValue)
  /-- `del_record`. -/
  | delRecord (k : Key)
  /-- `pread` from a block file. -/
  | pread (b off len : ℕ)
  /-- `pwrite` to a block file. -/
  | pwrite (kind : WriteKind) (b off : ℕ) (data : List UInt8)
  /-- `index_logger_append`. -/
  | logAppend (ili : IndexLogItem)

/-- The type of the answer to each request. -/
@[reducible] def StoreReq.Resp : StoreReq → Type
  | config => Config
  | fileHandler _ => BlockFile
  | setFileHandler _ _ => Unit
  | slabAlloc _ => Bool
  | findRecord _ => Except Int IndexValue
  | insertRecord _ _ => Int
  | delRecord _ => Int
  | pread _ _ _ => Option (List UInt8)
  | pwrite _ _ _ _ => Option ℕ
  | logAppend _ => Int

/-- The locks of the store. -/
inductive StoreLock
  /-- `bsp->index_lock`. -/
  | index
  /-- The lock of a block file. -/
  | file (b : ℕ)
deriving DecidableEq

/-- The interface of the store's operations. -/
@[reducible] def store : Interface where
  Req := StoreReq
  Resp := StoreReq.Resp
  Lock := StoreLock

namespace World

/-- The table of block sizes of a world. -/
def config (w : World) : Config := ⟨w.blockTypeCount, w.blockSizeArray⟩

/-- The file behind the descriptor of a block file. -/
def file (w : World) (b : ℕ) : Option ByteFile :=
  (w.fileHandler b).fd.bind w.disk

/-- Change an entry of the table of block files. -/
def setFileHandler (w : World) (b : ℕ) (fh : BlockFile) : World :=
  { w with fileHandler := Function.update w.fileHandler b fh }

/-- Replace the contents of the file behind the descriptor of a block file. -/
def setFile (w : World) (b : ℕ) (file : ByteFile) : World :=
  match (w.fileHandler b).fd with
  | none => w
  | some d => { w with disk := Function.update w.disk d (some file) }

/-- `pread`. -/
def pread (w : World) (t : Transfer) (b off len : ℕ) : Option (List UInt8) :=
  match w.file b with
  | none => none
  | some file =>
    if offMax < off then none
    else if t = .failed then none
    else some (t.bytes (file.pread off len))

/-- `pwrite`: its return value and the world afterwards. -/
def pwrite (w : World) (t : Transfer) (b off : ℕ) (data : List UInt8) : Option ℕ × World :=
  match w.file b with
  | none => (none, w)
  | some file =>
    if offMax < off + data.length then (none, w)
    else (t.count data.length, w.setFile b (file.pwrite off (t.bytes data)))

/-- `index_logger_append`. -/
def logAppend (w : World) (out : Option ℕ) (ili : IndexLogItem) : Int × World :=
  let r := indexLoggerAppend out w.logger w.journal ili
  (r.ret, { w with logger := r.logger, journal := r.file })

/-- `find_record`: the fault, if there is one, else what the index holds. -/
def findRecord (w : World) (fault : Option { e : Int // e ≠ 0 ∧ e ≠ dbNotfound }) (k : Key) :
    Except Int IndexValue :=
  match fault with
  | some e => .error e.1
  | none =>
    match w.index k with
    | some iv => .ok iv
    | none => .error dbNotfound

/-- `insert_record`: a failure leaves the index as it was. -/
def insertRecord (w : World) (ret : Int) (k : Key) (iv : IndexValue) : World :=
  if ret = 0 then { w with index := Function.update w.index k (some iv) } else w

/-- `del_record`: a failure leaves the index as it was. -/
def delRecord (w : World) (ret : Int) (k : Key) : World :=
  if ret = 0 then { w with index := Function.update w.index k none } else w

end World

/-- The answers to the requests of one call. -/
def handle (f : Faults) : Handler store World := fun w r =>
  match r with
  | .config => (w.config, w)
  | .fileHandler b => (w.fileHandler b, w)
  | .setFileHandler b fh => ((), w.setFileHandler b fh)
  | .slabAlloc _ => (f.slabAlloc, w)
  | .findRecord k => (w.findRecord f.findRecord k, w)
  | .insertRecord k iv => (f.insertRecord, w.insertRecord f.insertRecord k iv)
  | .delRecord k => (f.delRecord, w.delRecord f.delRecord k)
  | .pread b off len => (w.pread f.pread b off len, w)
  | .pwrite kind b off data => w.pwrite (f.pwrite kind b) b off data
  | .logAppend ili => w.logAppend (f.journal ili.type) ili

end Linglongta
