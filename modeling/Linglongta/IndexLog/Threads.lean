import Linglongta.IndexLog.Writes
import Linglongta.Foundations.Monitor

/-!
# Several threads on one journal

`index_logger_append` and `index_logger_flush` as several threads run them.  An action is one access
to the fields of `struct index_logger_s`, to one of the two buffers or to the journal file, or a lock
that is taken or released.  `working_lock` is taken first and released last, so the logger is a
`LockedObject`; `storing_lock` is only taken by its holder.

A `LogMem` has the buffers as they are in memory, with all their bytes, and the two pointers to them.
-/

namespace Linglongta

open Prog

/-! ## The memory of a logger -/

/-- What `working_buffer` and `storing_buffer` may point to. -/
inductive BufPtr
  /-- `&il->buffer1`. -/
  | buffer1
  /-- `&il->buffer2`. -/
  | buffer2
deriving DecidableEq

/-- The two buffers by their use, and the two locks. -/
inductive BufName
  /-- `working_buffer`, `working_lock`. -/
  | working
  /-- `storing_buffer`, `storing_lock`. -/
  | storing
deriving DecidableEq

/-- `struct index_logger_s` in append mode, and its file.  The field `bufPtr` of a buffer has all its
bytes. -/
structure LogMem where
  /-- `curr_working_buf`. -/
  currWorkingBuf : ℕ
  /-- `working_buffer`. -/
  workingBuffer : BufPtr
  /-- `storing_buffer`. -/
  storingBuffer : BufPtr
  /-- `buffer1` and `buffer2`. -/
  buffers : BufPtr → LogBuf
  /-- The journal file. -/
  file : List UInt8
  /-- What the kernel will do with each `write` from now on. -/
  outs : ℕ → Option ℕ

namespace LogMem

/-- The buffer that a pointer of the logger points to. -/
def pointer (m : LogMem) : BufName → BufPtr
  | .working => m.workingBuffer
  | .storing => m.storingBuffer

/-- Change a buffer. -/
def setBuffer (m : LogMem) (b : BufPtr) (f : LogBuf → LogBuf) : LogMem :=
  { m with buffers := Function.update m.buffers b (f (m.buffers b)) }

/-- The memory that `index_logger_create` leaves behind. -/
def create (outs : ℕ → Option ℕ) : LogMem where
  currWorkingBuf := 1
  workingBuffer := .buffer1
  storingBuffer := .buffer2
  buffers := fun _ => { bufPtr := List.replicate logBufSize 0 }
  file := magicHeader
  outs := outs

end LogMem

/-- `memcpy` into a buffer. -/
def memcpyAt (off : ℕ) (src dst : List UInt8) : List UInt8 :=
  dst.take off ++ src ++ dst.drop (off + src.length)

/-- An assignment to the memory of the logger. -/
inductive LogAssign
  /-- `il->curr_working_buf = n`. -/
  | currWorkingBuf (n : ℕ)
  /-- `il->working_buffer = b`, `il->storing_buffer = b`. -/
  | pointer (p : BufName) (b : BufPtr)
  /-- Assign `crc32sum` through a pointer. -/
  | crc32sum (p : BufName) (v : UInt32)
  /-- Assign `count` through a pointer. -/
  | count (p : BufName) (n : ℕ)
  /-- `memcpy` to an offset in `buf_ptr` of a buffer. -/
  | memcpy (b : BufPtr) (off : ℕ) (src : List UInt8)

/-- One access to the memory of the logger or to its file. -/
inductive LogReq
  /-- An assignment. -/
  | assign (a : LogAssign)
  /-- Read `il->curr_working_buf`. -/
  | currWorkingBuf
  /-- Read one of the two pointers. -/
  | pointer (p : BufName)
  /-- Read `count` through a pointer. -/
  | count (p : BufName)
  /-- `crc32_calc(il->storing_buffer->buf_ptr, len)`. -/
  | crc32Calc (len : ℕ)
  /-- `write(il->fd, il->storing_buffer, len)`. -/
  | write (len : ℕ)

/-- The type of the answer to a request. -/
def LogReq.Resp : LogReq → Type
  | assign _ => Unit
  | currWorkingBuf => ℕ
  | pointer _ => BufPtr
  | count _ => ℕ
  | crc32Calc _ => UInt32
  | write _ => Option ℕ

/-- The interface of a logger. -/
def logger : Interface where
  Req := LogReq
  Resp := LogReq.Resp
  Lock := BufName

instance instDecidableEqLoggerLock : DecidableEq logger.Lock := inferInstanceAs (DecidableEq BufName)

namespace LogMem

/-- The memory after an assignment. -/
def assign (m : LogMem) : LogAssign → LogMem
  | .currWorkingBuf n => { m with currWorkingBuf := n }
  | .pointer .working b => { m with workingBuffer := b }
  | .pointer .storing b => { m with storingBuffer := b }
  | .crc32sum p v => m.setBuffer (m.pointer p) fun b => { b with crc32sum := v }
  | .count p n => m.setBuffer (m.pointer p) fun b => { b with count := n }
  | .memcpy p off src => m.setBuffer p fun b => { b with bufPtr := memcpyAt off src b.bufPtr }

/-- The first bytes of the storing buffer, in memory order. -/
def storingBytes (m : LogMem) (len : ℕ) : List UInt8 :=
  let b := m.buffers m.storingBuffer
  (Bytes.toLE 4 b.crc32sum.toNat ++ Bytes.toLE 4 b.count ++ b.bufPtr).take len

/-- The memory and the file after a `write`. -/
def written (m : LogMem) (len : ℕ) : LogMem :=
  { m with
    file := (writeFile (m.outs 0) m.file (m.storingBytes len)).2
    outs := fun n => m.outs (n + 1) }

/-- The answer to a request. -/
def handle : Handler logger LogMem
  | m, .assign a => ((), m.assign a)
  | m, .currWorkingBuf => (m.currWorkingBuf, m)
  | m, .pointer p => (m.pointer p, m)
  | m, .count p => ((m.buffers (m.pointer p)).count, m)
  | m, .crc32Calc len => (Linglongta.crc32Calc ((m.buffers m.storingBuffer).bufPtr.take len), m)
  | m, .write len => ((writeFile (m.outs 0) m.file (m.storingBytes len)).1, m.written len)

end LogMem

/-! ## The functions -/

namespace LogProg

/-- Make an assignment. -/
def assign (a : LogAssign) : Prog logger Unit := request (I := logger) (.assign a)

/-- Read `il->curr_working_buf`. -/
def currWorkingBuf : Prog logger ℕ := request (I := logger) .currWorkingBuf

/-- Read one of the two pointers. -/
def pointer (p : BufName) : Prog logger BufPtr := request (I := logger) (.pointer p)

/-- Read `count` through a pointer. -/
def count (p : BufName) : Prog logger ℕ := request (I := logger) (.count p)

/-- `crc32_calc(il->storing_buffer->buf_ptr, len)`. -/
def crc32Calc (len : ℕ) : Prog logger UInt32 := request (I := logger) (.crc32Calc len)

/-- `write(il->fd, il->storing_buffer, len)`. -/
def write (len : ℕ) : Prog logger (Option ℕ) := request (I := logger) (.write len)

/-- `Lock(buf)`. -/
def lockBuf (l : BufName) : Prog logger Unit := acquire (I := logger) l .ex

/-- `UnLock(buf)`. -/
def unLock (l : BufName) : Prog logger Unit := release (I := logger) l .ex

/-- `switch_buffer`. -/
def switchBuffer : Prog logger Unit := do
  let curr ← currWorkingBuf
  Prog.assert (curr = 1 ∨ curr = 2)
  let curr ← currWorkingBuf
  if curr = 1 then do
    assign (.pointer .working .buffer2)
    assign (.pointer .storing .buffer1)
    assign (.currWorkingBuf 2)
  else do
    assign (.pointer .working .buffer1)
    assign (.pointer .storing .buffer2)
    assign (.currWorkingBuf 1)
  assign (.crc32sum .working 0)
  assign (.count .working 0)

/-- `sync_index_log`. -/
def syncIndexLog : Prog logger Int := do
  let n ← count .storing
  let crc ← crc32Calc (n * indexLogItemSize)
  assign (.crc32sum .storing crc)
  let n ← count .storing
  let nwrite ← write (n * indexLogItemSize + logBufHeaderSize)
  let n ← count .storing
  pure (if nwrite = some (n * indexLogItemSize + logBufHeaderSize) then 0 else -1)

/-- The end of `index_logger_append`: copy the item behind the others of the working buffer. -/
def putItem (ili : IndexLogItem) : Prog logger Unit := do
  let b ← pointer .working
  let n ← count .working
  let ptr := n * indexLogItemSize
  assign (.memcpy b ptr (Bytes.toLE 4 ili.type.code))
  let ptr := ptr + 4
  assign (.memcpy b ptr ili.indexKey.bytes)
  let ptr := ptr + keyLen
  assign (.memcpy b ptr ili.indexValue.bytes)
  let n ← count .working
  assign (.count .working (n + 1))

/-- Switch the buffers and write the full one, with `storing_lock`. -/
def store : Prog logger Int := do
  lockBuf .storing
  switchBuffer
  let retval ← syncIndexLog
  unLock .storing
  pure retval

/-- `index_logger_append`, when it has `working_lock`. -/
def indexLoggerAppend (ili : IndexLogItem) : Prog logger Int := do
  let n ← count .working
  let retval ← (
    -- the working buffer is full
    if logBufSize < (n + 1) * indexLogItemSize then store
    else pure 0)
  (if retval = 0 then putItem ili else pure ())
  -- done:
  unLock .working
  pure retval

/-- `index_logger_flush`, when it has `working_lock`. -/
def indexLoggerFlush : Prog logger Int := do
  let n ← count .working
  let retval ← (if n = 0 then pure 0 else store)
  unLock .working
  pure retval

/-- A call when it has `working_lock`. -/
def body : WriteCall → Prog logger Int
  | .append ili => indexLoggerAppend ili
  | .flush => indexLoggerFlush

end LogProg

/-! ## The locks -/

/-- `working_lock` is taken before `storing_lock`. -/
def BufName.rank : BufName → ℕ
  | working => 0
  | storing => 1

namespace LogProg

variable {α β : Type} {h : Held logger}

/-- The program makes its requests under `working_lock`, and leaves the locks as they are. -/
def Inside (p : Prog logger α) (h : Held logger) : Prop :=
  Always (fun _ _ => True) (Under (I := logger) BufName.working BufName.rank) (fun _ h' => h' = h) p h

lemma Inside.bind {p : Prog logger α} (hp : Inside p h) {Q : β → Held logger → Prop}
    {f : α → Prog logger β} (hf : ∀ a, Always (fun _ _ => True)
      (Under (I := logger) BufName.working BufName.rank) Q (f a) h) :
    Always (fun _ _ => True) (Under (I := logger) BufName.working BufName.rank) Q (p >>= f) h := by
  rw [always_bind (I := logger)]
  refine hp.mono ?_
  rintro a h' rfl
  exact hf a

lemma inside_switchBuffer (hw : (BufName.working, LockMode.ex) ∈ h) : Inside switchBuffer h := by
  have hcurr : Inside currWorkingBuf h := ⟨hw, fun _ _ => rfl⟩
  have hend : Inside (do assign (.crc32sum .working 0); assign (.count .working 0)) h :=
    ⟨hw, fun _ _ => ⟨hw, fun _ _ => rfl⟩⟩
  refine hcurr.bind fun curr => Inside.bind ?_ fun _ => hcurr.bind fun curr' => ?_
  · unfold Prog.assert
    split
    · exact rfl
    · exact hw
  · split
    · exact ⟨hw, fun _ _ => ⟨hw, fun _ _ => ⟨hw, fun _ _ => hend⟩⟩⟩
    · exact ⟨hw, fun _ _ => ⟨hw, fun _ _ => ⟨hw, fun _ _ => hend⟩⟩⟩

lemma inside_syncIndexLog (hw : (BufName.working, LockMode.ex) ∈ h) : Inside syncIndexLog h :=
  ⟨hw, fun _ _ => ⟨hw, fun _ _ => ⟨hw, fun _ _ => ⟨hw, fun _ _ => ⟨hw, fun _ _ =>
    ⟨hw, fun _ _ => rfl⟩⟩⟩⟩⟩⟩

lemma inside_putItem (ili : IndexLogItem) (hw : (BufName.working, LockMode.ex) ∈ h) :
    Inside (putItem ili) h :=
  ⟨hw, fun _ _ => ⟨hw, fun _ _ => ⟨hw, fun _ _ => ⟨hw, fun _ _ => ⟨hw, fun _ _ =>
    ⟨hw, fun _ _ => ⟨hw, fun _ _ => rfl⟩⟩⟩⟩⟩⟩⟩

lemma inside_store : Inside store [(BufName.working, LockMode.ex)] := by
  refine ⟨⟨List.mem_singleton_self _, fun x hx => ?_⟩, ?_⟩
  · rw [List.mem_singleton.1 hx]
    exact Nat.zero_lt_one
  · refine (inside_switchBuffer ?_).bind fun _ => (inside_syncIndexLog ?_).bind fun ret => ?_
    · exact List.mem_cons_of_mem _ (List.mem_singleton_self _)
    · exact List.mem_cons_of_mem _ (List.mem_singleton_self _)
    · exact ⟨List.mem_cons_self, List.erase_cons_head _ _⟩

/-- A call makes all its requests under `working_lock`, which it gives up at its end. -/
lemma guarded_body (c : WriteCall) : Guarded (I := logger) BufName.working BufName.rank (body c)
    [(BufName.working, LockMode.ex)] := by
  have hw : (BufName.working, LockMode.ex) ∈ [(BufName.working, LockMode.ex)] :=
    List.mem_singleton_self _
  have hend : ∀ ret : Int, Always (fun _ _ => True) (Under (I := logger) BufName.working BufName.rank)
      (fun _ h' => h' = []) (do unLock .working; pure ret) [(BufName.working, LockMode.ex)] :=
    fun ret => ⟨hw, List.erase_cons_head _ _⟩
  have hcount : Inside (count .working) [(BufName.working, LockMode.ex)] := ⟨hw, fun _ _ => rfl⟩
  cases c with
  | append ili =>
    refine hcount.bind fun n => Inside.bind ?_ fun ret => Inside.bind ?_ fun _ => hend ret
    · split
      · exact inside_store
      · exact rfl
    · split
      · exact inside_putItem ili hw
      · exact rfl
  | flush =>
    refine hcount.bind fun n => Inside.bind ?_ fun ret => hend ret
    split
    · exact rfl
    · exact inside_store

end LogProg

/-- The logger as an object that several threads use. -/
def journalMonitor : LockedObject logger LogMem WriteCall Int where
  handler := LogMem.handle
  lock := BufName.working
  rank := BufName.rank
  bound := 1
  rank_le := fun l => by
    cases l with
    | working => exact Nat.zero_le 1
    | storing => exact le_rfl
  body := LogProg.body
  guarded := LogProg.guarded_body

end Linglongta
