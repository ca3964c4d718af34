import Linglongta.Storage.Operations

/-!
# Opening and closing the store

`open_storage` and `close_storage` with `init_storage`, `open_data_files`, `load_data_file` and
`create_data_file`.  The table of block files is global: it is set up by the first `open_storage`
after the start of the process or after a `close_storage`, which is what `inited_global_vars`
records.

Only one thread opens or closes the store, so these are functions of the world and not programs with
locks.  `OpenFaults` and `CloseFaults` say what the system answers.
-/

namespace Linglongta

/-- `struct bucket_storage_t`: which of its three pointers are set. -/
structure Handle where
  /-- `indexdb` is not `NULL`. -/
  indexdb : Bool
  /-- `index_lock` is not `NULL`. -/
  indexLock : Bool
  /-- `index_logger` is not `NULL`. -/
  indexLogger : Bool
deriving DecidableEq

/-- What the requests of one `open_storage` are answered. -/
structure OpenFaults where
  /-- Whether there is memory for the handle. -/
  slabCalloc : Bool := true
  /-- Whether the directory is there or can be made. -/
  directory : Bool := true
  /-- Whether `access` allows a data file to be read and written, if it is there. -/
  access : ℕ → Bool := fun _ => true
  /-- Whether a data file can be opened. -/
  openFile : ℕ → Bool := fun _ => true
  /-- The outcome of the `pread` of the header of a data file. -/
  readHeader : ℕ → Transfer := fun _ => .complete
  /-- The outcome of the `write` of the header of a new data file. -/
  writeHeader : ℕ → Transfer := fun _ => .complete
  /-- Whether the index can be opened. -/
  openBdb : Bool := true
  /-- Whether `rwlock_new` finds memory. -/
  rwlockNew : Bool := true
  /-- Whether `index_logger_create` makes a logger. -/
  indexLoggerCreate : Bool := true

/-- What the requests of one `close_storage` are answered. -/
structure CloseFaults where
  /-- The outcome of the `pwrite` of each header. -/
  pwrite : ℕ → Transfer := fun _ => .complete
  /-- The result of `close_bdb`. -/
  closeBdb : Int := 0
  /-- The outcome of the `write` of the last journal block. -/
  journal : Option ℕ := completeWrite

/-! ## The table of block sizes -/

/-- The loop of `init_storage`, with the number of rounds left: the return code, the number of block
types and their sizes. -/
def initStorageLoop (largest : ℕ) : ℕ → ℕ → ℕ → (ℕ → ℕ) → Int × ℕ × (ℕ → ℕ)
  | 0, i, curr, sizes =>
    -- `i >= MAX_BLOCK_CNT`: the largest block size exceeds the limit
    (if curr ≤ largest then -1 else 0, i, sizes)
  | n + 1, i, curr, sizes =>
    if curr ≤ largest then
      initStorageLoop largest n (i + 1) (curr * 2) (Function.update sizes i curr)
    else (0, i, sizes)

/-- The largest size that `init_storage` works with. -/
def effectiveSize (largest : ℕ) : ℕ :=
  if largest < beginningSize then largestSize else largest

/-- `init_storage`. -/
def initStorage (largest : ℕ) (w : World) : Int × World :=
  let r := initStorageLoop (effectiveSize largest) maxBlockCnt 0 beginningSize fun _ => 0
  (r.1,
    { w with
      blockTypeCount := r.2.1
      blockSizeArray := r.2.2
      fileHandler := fun _ => BlockFile.zero })

/-! ## Data files -/

/-- The part of a word of the file that lies in its first `n` bytes; the rest is zero. -/
def wordUpTo (file : ByteFile) (n off : ℕ) : ℕ :=
  Bytes.ofLE ((file.pread off 8).take (n - off))

/-- The zeroed table entry after the first `n` bytes of a file have been read into it. -/
def BlockFile.ofFile (fd : Fd) (file : ByteFile) (n : ℕ) : BlockFile where
  fd := some fd
  blockSize := wordUpTo file n 0
  blockCnt := wordUpTo file n 8
  freeSlotsCnt := wordUpTo file n 16
  freeSlotsOffset := fun i => wordUpTo file n (slotsSectionPos + 8 * i)

/-- `load_data_file`. -/
def loadDataFile (o : OpenFaults) (b : ℕ) (file : ByteFile) (w : World) : Int × World :=
  if o.openFile b = false then (-1, w)
  else
    let fd := Fd.data (w.blockSizeArray b)
    match (o.readHeader b).count (min dataSectionPos file.size) with
    | none => (-1, w.setFileHandler b { BlockFile.zero with fd := some fd })
    | some n =>
      (if n = dataSectionPos then 0 else -1, w.setFileHandler b (BlockFile.ofFile fd file n))

/-- The table entry of a new data file. -/
def BlockFile.new (blockSize : ℕ) : BlockFile :=
  { BlockFile.zero with fd := some (.data blockSize), blockSize := blockSize }

/-- The file after the `write` of a new table entry: the three words, and the zeroed list of free
slots behind them. -/
def writeEntry (file : ByteFile) (fh : BlockFile) (n : ℕ) : ByteFile :=
  (file.fill n).pwrite 0 (fh.headerImage.take n)

/-- `create_data_file`. -/
def createDataFile (o : OpenFaults) (b : ℕ) (w : World) : Int × World :=
  if o.openFile b = false then (-1, w)
  else
    let fh := BlockFile.new (w.blockSizeArray b)
    let file := (w.disk (.data (w.blockSizeArray b))).getD ByteFile.empty
    let n := ((o.writeHeader b).count dataSectionPos).getD 0
    (if n = dataSectionPos then 0 else -1,
      { w.setFileHandler b fh with
        disk := Function.update w.disk (.data (w.blockSizeArray b)) (some (writeEntry file fh n)) })

/-- One round of `open_data_files`. -/
def openDataFile (o : OpenFaults) (b : ℕ) (w : World) : Int × World :=
  match w.disk (.data (w.blockSizeArray b)) with
  | some file => if o.access b then loadDataFile o b file w else createDataFile o b w
  | none => createDataFile o b w

/-- `open_data_files`, for the block files that are left. -/
def openDataFiles (o : OpenFaults) : List ℕ → World → Int × World
  | [], w => (0, w)
  | b :: bs, w =>
    if (openDataFile o b w).1 ≠ 0 then (-1, (openDataFile o b w).2)
    else openDataFiles o bs (openDataFile o b w).2

/-! ## The handle -/

/-- What `open_storage` leaves behind. -/
structure OpenResult where
  /-- The return code. -/
  ret : Int
  /-- The handle, none if it has been freed. -/
  bsp : Option Handle
  /-- The world. -/
  world : World

/-- `open_index_file`: the handle, none for a failure, and the world. -/
def openIndexFile (o : OpenFaults) (w : World) : Option Handle × World :=
  if o.openBdb = false then (none, w)
  else if o.indexLoggerCreate = false then
    -- the failure is logged, but not reported
    (some ⟨true, o.rwlockNew, false⟩, w)
  else (some ⟨true, o.rwlockNew, true⟩,
    { w with logger := Linglongta.indexLoggerCreate, journal := magicHeader })

/-- The part of `open_storage` that sets up the global variables. -/
def openGlobals (o : OpenFaults) (largest : ℕ) (w : World) : Int × World :=
  if w.inited then (0, w)
  else
    let i := initStorage largest { w with inited := true }
    if i.1 ≠ 0 then (-1, i.2)
    else
      let d := openDataFiles o (List.range i.2.blockTypeCount) i.2
      (if d.1 ≠ 0 then -2 else 0, d.2)

/-- `open_storage`. -/
def openStorage (o : OpenFaults) (largest : ℕ) (w : World) : OpenResult :=
  if o.slabCalloc = false then ⟨-4, none, w⟩
  else if o.directory = false then ⟨-5, none, w⟩
  else
    let g := openGlobals o largest w
    if g.1 ≠ 0 then ⟨g.1, none, g.2⟩
    else
      match openIndexFile o g.2 with
      | (none, w') => ⟨-3, none, w'⟩
      | (some bsp, w') => ⟨0, some bsp, w'⟩

/-- The loop of `close_storage` over the data files: whether it reached the end, and the world. -/
def closeDataFiles (c : CloseFaults) : List ℕ → World → Bool × World
  | [], w => (true, w)
  | b :: bs, w =>
    if (w.fileHandler b).fdPositive = true then
      let w' := (w.pwrite (c.pwrite b) b 0 (w.fileHandler b).headerImage).2
      closeDataFiles c bs (w'.setFileHandler b { w'.fileHandler b with fd := none })
    else (false, w)

/-- `close_storage`: its return code and the world. -/
def closeStorage (c : CloseFaults) (bsp : Handle) (w : World) : Int × World :=
  let d :=
    if w.inited then
      let d := closeDataFiles c (List.range w.blockTypeCount) w
      if d.1 then (true, { d.2 with blockTypeCount := 0, inited := false }) else d
    else (true, w)
  if d.1 = false then (-1, d.2)
  else if bsp.indexdb ∧ c.closeBdb ≠ 0 then (-1, d.2)
  else if bsp.indexLogger then
    (0, { d.2 with journal := indexLoggerClose c.journal d.2.logger d.2.journal })
  else (0, d.2)

/-- A process that has just been started, in an empty directory. -/
def World.empty : World where
  inited := false
  blockTypeCount := 0
  blockSizeArray := fun _ => 0
  fileHandler := fun _ => BlockFile.zero
  disk := fun _ => none
  index := fun _ => none
  logger := Linglongta.indexLoggerCreate
  journal := []

end Linglongta
