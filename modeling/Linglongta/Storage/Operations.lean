import Linglongta.Foundations.Integers
import Linglongta.Storage.State

/-!
# The operations of the block store

`update_block`, `find_block` and `delete_block` of `storage.c`, with the helpers they call, as
programs over the interface `store`.  Each request stands where the source makes it, between the
same lock operations.

The data of a call is the list of the `data_size` bytes the caller passes.  The result of an
`insert_record` in `append_block` and of the two `sync_data_file` there is ignored, as in the
source; `sync_data_file_header` ignores its result too.
-/

namespace Linglongta

open Prog

/-! ## Requests -/

/-- Read the table of block sizes. -/
def readConfig : Prog store Config := request (I := store) .config

/-- Read an entry of the table of block files. -/
def readFileHandler (b : ℕ) : Prog store BlockFile := request (I := store) (.fileHandler b)

/-- Change an entry of the table of block files. -/
def setFileHandler (b : ℕ) (fh : BlockFile) : Prog store Unit :=
  request (I := store) (.setFileHandler b fh)

/-- `slab_alloc`. -/
def slabAlloc (size : ℕ) : Prog store Bool := request (I := store) (.slabAlloc size)

/-- `find_record`: the error, or the value that is found. -/
def findRecord (k : Key) : Prog store (Except Int IndexValue) := request (I := store) (.findRecord k)

/-- `insert_record`. -/
def insertRecord (k : Key) (iv : IndexValue) : Prog store Int :=
  request (I := store) (.insertRecord k iv)

/-- `del_record`. -/
def delRecord (k : Key) : Prog store Int := request (I := store) (.delRecord k)

/-- `pread` from a block file: the bytes transferred, none for `-1`. -/
def preadFile (b off len : ℕ) : Prog store (Option (List UInt8)) :=
  request (I := store) (.pread b off len)

/-- `pwrite` to a block file: the number of bytes transferred, none for `-1`. -/
def pwriteFile (kind : WriteKind) (b off : ℕ) (data : List UInt8) : Prog store (Option ℕ) :=
  request (I := store) (.pwrite kind b off data)

/-- `index_logger_append`. -/
def logAppend (ili : IndexLogItem) : Prog store Int := request (I := store) (.logAppend ili)

/-! ## Size classes -/

/-- The loop of `calc_block_size`, with the number of rounds left. -/
def calcBlockSizeLoop (dataSize : Int) : ℕ → Int → Int
  | 0, _ => -1
  | n + 1, size => if dataSize ≤ size then size else calcBlockSizeLoop dataSize n (size * 2)

/-- `calc_block_size`. -/
def calcBlockSize (dataSize : ℕ) : Int :=
  calcBlockSizeLoop (toInt32 dataSize) maxBlockCnt beginningSize

/-- `find_block_file`. -/
def findBlockFile (cfg : Config) (blockSize : ℕ) : Int :=
  match (List.range cfg.blockTypeCount).find? fun i => blockSize = cfg.blockSizeArray i with
  | some i => i
  | none => -1

/-! ## Files -/

/-- `sync_data_file`. -/
def syncDataFile (kind : WriteKind) (blockId : ℕ) (data : List UInt8) (offset : ℕ) :
    Prog store Int := do
  let cfg ← readConfig
  assert (blockId < cfg.blockTypeCount)
  let nwritten ← pwriteFile kind blockId offset data
  pure (if nwritten = some data.length then 0 else -1)

/-- `sync_data_file_header`. -/
def syncDataFileHeader (blockId : ℕ) : Prog store Int := do
  let fh ← readFileHandler blockId
  let _ ← syncDataFile .header blockId fh.headerImage 0
  pure 0

/-! ## Records -/

/-- `append_block`. -/
def appendBlock (blockId : ℕ) (key : Key) (data : List UInt8) : Prog store Int := do
  let cfg ← readConfig
  if cfg.blockTypeCount ≤ blockId then
    pure (-1)
  else do
    let fh ← readFileHandler blockId
    assert (fh.fdPositive = true)
    assert (data.length ≤ cfg.blockSizeArray blockId)
    acquire (.file blockId) .ex
    let fh ← readFileHandler blockId
    setFileHandler blockId fh.takeSlot.2
    let _ ← syncDataFileHeader blockId
    let _ ← syncDataFile .record blockId data fh.takeSlot.1
    release (.file blockId) .ex
    let iv : IndexValue :=
      { crc32 := crc32Calc data, blockId := blockId, dataSize := data.length,
        offset := fh.takeSlot.1 }
    let _ ← logAppend ⟨.append, key, iv.image⟩
    let _ ← insertRecord key iv
    pure 0

/-- `modify_block`. -/
def modifyBlock (iv : IndexValue) (key : Key) (data : List UInt8) : Prog store Int := do
  let cfg ← readConfig
  if cfg.blockTypeCount ≤ iv.blockId then
    pure (-1)
  else do
    let fh ← readFileHandler iv.blockId
    assert (fh.fdPositive = true)
    assert (data.length ≤ cfg.blockSizeArray iv.blockId)
    acquire (.file iv.blockId) .ex
    let retno ← syncDataFile .record iv.blockId data iv.offset
    assert (retno = 0)
    release (.file iv.blockId) .ex
    let iv' := { iv with crc32 := crc32Calc data, dataSize := data.length }
    let _ ← logAppend ⟨.modify, key, iv'.image⟩
    let retno ← insertRecord key iv'
    pure (if retno ≠ 0 then -1 else 0)

/-- `do_delete_block`. -/
def doDeleteBlock (iv : IndexValue) (key : Key) : Prog store Int := do
  let _ ← logAppend ⟨.del, key, iv.image⟩
  let ret ← delRecord key
  if ret ≠ 0 then
    pure (-1)
  else do
    acquire (.file iv.blockId) .ex
    let fh ← readFileHandler iv.blockId
    if maxFreeSlots ≤ fh.freeSlotsCnt then do
      -- the slot is leaked
      release (.file iv.blockId) .ex
      pure 0
    else do
      setFileHandler iv.blockId (fh.putSlot iv.offset)
      release (.file iv.blockId) .ex
      let _ ← syncDataFileHeader iv.blockId
      let fh' ← readFileHandler iv.blockId
      let _ ← syncDataFile .slot iv.blockId (Bytes.toLE 8 (fh'.freeSlotsOffset fh.freeSlotsCnt))
        (slotsSectionPos + 8 * fh.freeSlotsCnt)
      pure 0

/-! ## The interface of the store -/

/-- What an operation answers: its return code, and for `find_block` what it stores through
`value_ptr` (the bytes that the read put into the buffer, none for `NULL`) and `value_len`. -/
structure Reply where
  /-- The return code. -/
  ret : Int
  /-- `*value_ptr`. -/
  valuePtr : Option (List UInt8) := none
  /-- `*value_len`. -/
  valueLen : ℕ := 0
deriving DecidableEq

/-- The part of `update_block` between taking the index lock and `outlet`. -/
def updateLocked (key : Key) (data : List UInt8) : Prog store Int := do
  let found ← findRecord key
  let cfg ← readConfig
  match found with
  | .ok iv =>
    if data.length ≤ cfg.blockSizeArray iv.blockId then do
      -- stay in current block file
      let retno ← modifyBlock iv key data
      pure (if retno ≠ 0 then -1 else 0)
    else do
      -- upgrade to larger size block file
      let retno ← doDeleteBlock iv key
      if retno ≠ 0 then pure (-2)
      else do
        let newBlockId := findBlockFile cfg (toSizeT (calcBlockSize data.length))
        let retno ← appendBlock (toSizeT newBlockId) key data
        pure (if retno ≠ 0 then -3 else 0)
  | .error e =>
    if e = dbNotfound then do
      let newBlockId := findBlockFile cfg (toSizeT (calcBlockSize data.length))
      if newBlockId < 0 then pure 0
      else do
        let retno ← appendBlock (toSizeT newBlockId) key data
        pure (if retno ≠ 0 then -4 else 0)
    else pure (-1)

/-- `update_block`. -/
def updateBlock (key data : List UInt8) : Prog store Reply := do
  acquire .index .ex
  let ret ← updateLocked (fixedKey key) data
  release .index .ex
  pure { ret := ret }

/-- `find_block`. -/
def findBlock (key : List UInt8) : Prog store Reply := do
  acquire .index .sh
  let found ← findRecord (fixedKey key)
  match found with
  | .ok iv => do
    let mem ← slabAlloc iv.dataSize
    if mem = false then
      -- the index lock is not released here
      pure { ret := -1, valueLen := iv.dataSize }
    else do
      acquire (.file iv.blockId) .sh
      release .index .sh
      let nread ← preadFile iv.blockId iv.offset iv.dataSize
      release (.file iv.blockId) .sh
      pure
        { ret := if nread.map List.length = some iv.dataSize then 0 else -1
          valuePtr := some (nread.getD [])
          valueLen := iv.dataSize }
  | .error e => do
    release .index .sh
    pure { ret := e }

/-- The part of `delete_block` between taking and releasing the index lock. -/
def deleteLocked (key : Key) : Prog store Int := do
  let found ← findRecord key
  match found with
  | .ok iv => do
    let retno ← doDeleteBlock iv key
    pure (if retno ≠ 0 then -1 else 0)
  | .error e => pure (if e = dbNotfound then dbNotfound else -1)

/-- `delete_block`. -/
def deleteBlock (key : List UInt8) : Prog store Reply := do
  acquire .index .ex
  let ret ← deleteLocked (fixedKey key)
  release .index .ex
  pure { ret := ret }

/-- A call of the store. -/
inductive Call
  /-- `update_block`. -/
  | update (key data : List UInt8)
  /-- `find_block`. -/
  | find (key : List UInt8)
  /-- `delete_block`. -/
  | delete (key : List UInt8)

/-- The program of a call. -/
def Call.prog : Call → Prog store Reply
  | update key data => updateBlock key data
  | find key => findBlock key
  | delete key => deleteBlock key

/-- The normalised key a call is about. -/
def Call.key : Call → Key
  | update key _ => fixedKey key
  | find key => fixedKey key
  | delete key => fixedKey key

end Linglongta
