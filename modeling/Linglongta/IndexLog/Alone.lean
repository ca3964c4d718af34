import Linglongta.IndexLog.Threads

/-!
# A call of the journal that runs alone

The functions of the logger access its memory step by step.  `LogMem.Rel` relates the memory to the
logger of the other files, which has the items of its buffers only, and `LogMem.Is` relates it to a
`Journal`: a logger, its file and what the kernel will do with its writes.

`LogMem.Is.safe_prog` says what a call does when no other thread interferes: it returns what the
logger does, and at each of its actions the file is as before the call or as after it, and no copy
passes the end of a buffer.
-/

namespace Linglongta

open Prog

/-! ## The memory holds a logger -/

/-- Two buffers have the same header and the same items. -/
structure SameItems (b b' : LogBuf) : Prop where
  /-- The same CRC32. -/
  crc32sum : b.crc32sum = b'.crc32sum
  /-- The same number of items. -/
  count : b.count = b'.count
  /-- The same items. -/
  items : b.bufPtr.take (b.count * indexLogItemSize) = b'.bufPtr.take (b.count * indexLogItemSize)
  /-- The first buffer has all its bytes. -/
  size : b.bufPtr.length = logBufSize
  /-- The items fit. -/
  fits : b.count * indexLogItemSize ≤ logBufSize

/-- The memory of a logger. -/
structure LogMem.Rel (m : LogMem) (il : IndexLogger) : Prop where
  /-- The same working buffer. -/
  curr : m.currWorkingBuf = il.currWorkingBuf
  /-- The pointers follow `curr_working_buf`. -/
  pointers :
    (il.currWorkingBuf = 1 ∧ m.workingBuffer = .buffer1 ∧ m.storingBuffer = .buffer2) ∨
      (il.currWorkingBuf = 2 ∧ m.workingBuffer = .buffer2 ∧ m.storingBuffer = .buffer1)
  /-- The same items in the working buffer. -/
  working : SameItems (m.buffers m.workingBuffer) il.workingBuffer
  /-- The same items in the storing buffer. -/
  storing : SameItems (m.buffers m.storingBuffer) il.storingBuffer

section Buffers

variable {b b' : LogBuf} {off : ℕ} {src src' dst : List UInt8}

lemma length_memcpyAt (hin : off + src.length ≤ dst.length) :
    (memcpyAt off src dst).length = dst.length := by
  simp only [memcpyAt, List.length_append, List.length_take, List.length_drop]
  omega

lemma take_memcpyAt (hin : off + src.length ≤ dst.length) :
    (memcpyAt off src dst).take (off + src.length) = dst.take off ++ src := by
  have hlen : (dst.take off ++ src).length = off + src.length := by
    simp only [List.length_append, List.length_take]
    omega
  rw [memcpyAt, ← hlen, List.take_left]

/-- Two copies, the second one behind the first, are one. -/
lemma memcpyAt_memcpyAt (hin : off + src.length ≤ dst.length) :
    memcpyAt (off + src.length) src' (memcpyAt off src dst) = memcpyAt off (src ++ src') dst := by
  have hdrop : (memcpyAt off src dst).drop (off + src.length + src'.length) =
      dst.drop (off + (src ++ src').length) := by
    have hlen : (dst.take off ++ src).length = off + src.length := by
      simp only [List.length_append, List.length_take]
      omega
    rw [memcpyAt, ← hlen, List.drop_append, List.drop_eq_nil_of_le (Nat.le_add_right _ _), hlen,
      List.nil_append, Nat.add_sub_cancel_left, List.drop_drop, List.length_append, Nat.add_assoc]
  rw [memcpyAt, take_memcpyAt hin, hdrop]
  simp only [memcpyAt, List.append_assoc]

lemma SameItems.emptied (hb : SameItems b b') :
    SameItems { b with crc32sum := 0, count := 0 } { b' with crc32sum := 0, count := 0 } where
  crc32sum := rfl
  count := rfl
  items := by simp
  size := hb.size
  fits := by simp

lemma SameItems.summed (hb : SameItems b b') (v : UInt32) :
    SameItems { b with crc32sum := v } { b' with crc32sum := v } :=
  ⟨rfl, hb.count, hb.items, hb.size, hb.fits⟩

/-- An item is copied behind the others. -/
lemma SameItems.put (hb : SameItems b b') (ili : IndexLogItem)
    (hroom : (b.count + 1) * indexLogItemSize ≤ logBufSize) :
    SameItems
      { b with
        count := b.count + 1
        bufPtr := memcpyAt (b.count * indexLogItemSize) ili.encode b.bufPtr }
      { b' with
        count := b'.count + 1
        bufPtr := b'.bufPtr.take (b'.count * indexLogItemSize) ++ ili.encode } := by
  have hend : (b.count + 1) * indexLogItemSize = b.count * indexLogItemSize + ili.encode.length := by
    rw [Nat.succ_mul, length_encode]
  have hin : b.count * indexLogItemSize + ili.encode.length ≤ b.bufPtr.length := by
    rw [← hend, hb.size]
    exact hroom
  refine ⟨hb.crc32sum, congrArg (· + 1) hb.count, ?_, (length_memcpyAt hin).trans hb.size, hroom⟩
  have hlen : (b.bufPtr.take (b.count * indexLogItemSize) ++ ili.encode).length =
      (b.count + 1) * indexLogItemSize := by
    rw [hend, List.length_append, List.length_take, min_eq_left (Nat.le_of_add_right_le hin)]
  simp only
  rw [hend, take_memcpyAt hin, ← hend, ← hb.count, ← hb.items, List.take_of_length_le hlen.le]

end Buffers

/-! ## A call that runs alone -/

/-- What holds at each action of a call: it does not fail, it does not wait for itself, the file is
as before the call or as after it, and no copy passes the end of a buffer. -/
structure LogMem.Fine (f₁ f₂ : List UInt8) (a : Action logger) (h : Held logger) (m : LogMem) :
    Prop where
  ne_abort : a ≠ .abort
  admits : ∀ l md, a = .lock l md → Admits h l md
  file : m.file = f₁ ∨ m.file = f₂
  inBounds : ∀ b off src, a = .call (I := logger) (.assign (.memcpy b off src)) →
    off + src.length ≤ logBufSize

section Alone

variable {f₁ f₂ : List UInt8} {h : Held logger} {m : LogMem} {il : IndexLogger} {α : Type}
variable {P : Action logger → Held logger → LogMem → Prop} {Q : α → Held logger → LogMem → Prop}

lemma fine_call {r : LogReq} (hf : m.file = f₁ ∨ m.file = f₂)
    (hr : ∀ b off src, r = .assign (.memcpy b off src) → off + src.length ≤ logBufSize) :
    m.Fine f₁ f₂ (.call (I := logger) r) h where
  ne_abort := fun hact => by cases hact
  admits := fun l md hact => by cases hact
  file := hf
  inBounds := fun b off src hact => hr b off src (Action.call.inj hact)

@[simp] lemma LogMem.file_assign (a : LogAssign) : (m.assign a).file = m.file := by
  cases a with
  | pointer p b => cases p <;> rfl
  | currWorkingBuf n => rfl
  | crc32sum p v => rfl
  | count p n => rfl
  | memcpy b off src => rfl

@[simp] lemma LogMem.outs_assign (a : LogAssign) : (m.assign a).outs = m.outs := by
  cases a with
  | pointer p b => cases p <;> rfl
  | currWorkingBuf n => rfl
  | crc32sum p v => rfl
  | count p n => rfl
  | memcpy b off src => rfl

lemma workingBuffer_switchBuffer (il : IndexLogger) : (switchBuffer il).workingBuffer =
    { il.storingBuffer with crc32sum := 0, count := 0 } := by
  by_cases hcurr : il.currWorkingBuf = 1 <;>
    simp [switchBuffer, IndexLogger.workingBuffer, IndexLogger.storingBuffer, hcurr]

/-- The pointers are exchanged, and the buffer that is now the working buffer is emptied. -/
lemma LogMem.Rel.switched (hr : m.Rel il) {n : ℕ} {b c : BufPtr}
    (hto : (il.currWorkingBuf = 1 ∧ n = 2 ∧ b = .buffer2 ∧ c = .buffer1) ∨
      (il.currWorkingBuf = 2 ∧ n = 1 ∧ b = .buffer1 ∧ c = .buffer2)) :
    (((((m.assign (.pointer .working b)).assign (.pointer .storing c)).assign
      (.currWorkingBuf n)).assign (.crc32sum .working 0)).assign (.count .working 0)).Rel
        (switchBuffer il) := by
  -- the new pointers are the old ones, exchanged
  obtain ⟨hcurr, hb, hc, hne⟩ : (switchBuffer il).currWorkingBuf = n ∧ b = m.storingBuffer ∧
      c = m.workingBuffer ∧ c ≠ b := by
    rcases hto with ⟨h1, rfl, rfl, rfl⟩ | ⟨h1, rfl, rfl, rfl⟩
    · obtain ⟨-, hw, hs⟩ := hr.pointers.resolve_right (by omega)
      rw [hw, hs, switchBuffer, if_pos h1]
      exact ⟨rfl, rfl, rfl, by decide⟩
    · obtain ⟨-, hw, hs⟩ := hr.pointers.resolve_left (by omega)
      rw [hw, hs, switchBuffer, if_neg (by omega)]
      exact ⟨rfl, rfl, rfl, by decide⟩
  refine ⟨hcurr.symm, ?_, ?_, ?_⟩
  · rcases hto with ⟨-, rfl, rfl, rfl⟩ | ⟨-, rfl, rfl, rfl⟩
    · exact Or.inr ⟨hcurr, rfl, rfl⟩
    · exact Or.inl ⟨hcurr, rfl, rfl⟩
  · rw [workingBuffer_switchBuffer]
    simpa [LogMem.assign, LogMem.setBuffer, LogMem.pointer, ← hb] using hr.storing.emptied
  · rw [storingBuffer_switchBuffer]
    simpa [LogMem.assign, LogMem.setBuffer, LogMem.pointer, hne, ← hc] using hr.working

@[simp] lemma storingBuffer_setStoringBuffer (il : IndexLogger) (b : LogBuf) :
    (il.setStoringBuffer b).storingBuffer = b := by
  by_cases hcurr : il.currWorkingBuf = 1 <;>
    simp [IndexLogger.setStoringBuffer, IndexLogger.storingBuffer, hcurr]

@[simp] lemma storingBuffer_setWorkingBuffer (il : IndexLogger) (b : LogBuf) :
    (il.setWorkingBuffer b).storingBuffer = il.storingBuffer := by
  by_cases hcurr : il.currWorkingBuf = 1 <;>
    simp [IndexLogger.setWorkingBuffer, IndexLogger.storingBuffer, hcurr]

@[simp] lemma currWorkingBuf_setStoringBuffer (il : IndexLogger) (b : LogBuf) :
    (il.setStoringBuffer b).currWorkingBuf = il.currWorkingBuf := by
  by_cases hcurr : il.currWorkingBuf = 1 <;> simp [IndexLogger.setStoringBuffer, hcurr]

@[simp] lemma currWorkingBuf_setWorkingBuffer (il : IndexLogger) (b : LogBuf) :
    (il.setWorkingBuffer b).currWorkingBuf = il.currWorkingBuf := by
  by_cases hcurr : il.currWorkingBuf = 1 <;> simp [IndexLogger.setWorkingBuffer, hcurr]

lemma LogMem.Rel.pointers_ne (hr : m.Rel il) : m.workingBuffer ≠ m.storingBuffer := by
  rcases hr.pointers with ⟨-, hw, hs⟩ | ⟨-, hw, hs⟩
  · rw [hw, hs]
    decide
  · rw [hw, hs]
    decide

lemma LogMem.Rel.summed (hr : m.Rel il) (v : UInt32) :
    (m.assign (.crc32sum .storing v)).Rel
      (il.setStoringBuffer { il.storingBuffer with crc32sum := v }) := by
  refine ⟨?_, ?_, ?_, ?_⟩
  · rw [currWorkingBuf_setStoringBuffer]
    exact hr.curr
  · rw [currWorkingBuf_setStoringBuffer]
    exact hr.pointers
  · rw [workingBuffer_setStoringBuffer]
    simpa [LogMem.assign, LogMem.setBuffer, LogMem.pointer, hr.pointers_ne] using hr.working
  · rw [storingBuffer_setStoringBuffer]
    simpa [LogMem.assign, LogMem.setBuffer, LogMem.pointer] using hr.storing.summed v

/-- The bytes that `sync_index_log` writes. -/
lemma SameItems.storingBytes {b : LogBuf} (hb : SameItems (m.buffers m.storingBuffer) b) :
    m.storingBytes (b.count * indexLogItemSize + logBufHeaderSize) = b.image := by
  have hlen : (Bytes.toLE 4 b.crc32sum.toNat ++ Bytes.toLE 4 b.count).length = logBufHeaderSize := by
    simp only [List.length_append, Bytes.length_toLE]
    rfl
  have hitems := hb.items
  rw [hb.count] at hitems
  simp only [LogMem.storingBytes, LogBuf.image, hb.crc32sum, hb.count]
  rw [Nat.add_comm, ← hlen, List.take_length_add_append, hitems]

/-- The three `memcpy` of an item are one. -/
lemma memcpyAt_item (off : ℕ) (ili : IndexLogItem) {dst : List UInt8}
    (hin : off + indexLogItemSize ≤ dst.length) :
    memcpyAt (off + 4 + keyLen) ili.indexValue.bytes (memcpyAt (off + 4) ili.indexKey.bytes
      (memcpyAt off (Bytes.toLE 4 ili.type.code) dst)) = memcpyAt off ili.encode dst := by
  have hkey := ili.indexKey.size_eq
  have htype : (Bytes.toLE 4 ili.type.code).length = 4 := Bytes.length_toLE _ _
  have hsize : indexLogItemSize = 4 + keyLen + indexValueSize := rfl
  have h₁ : memcpyAt (off + 4) ili.indexKey.bytes (memcpyAt off (Bytes.toLE 4 ili.type.code) dst) =
      memcpyAt off (Bytes.toLE 4 ili.type.code ++ ili.indexKey.bytes) dst := by
    conv_lhs => rw [← htype]
    exact memcpyAt_memcpyAt (by omega)
  have hlen : off + 4 + keyLen = off + (Bytes.toLE 4 ili.type.code ++ ili.indexKey.bytes).length := by
    rw [List.length_append, htype, hkey, Nat.add_assoc]
  rw [h₁, hlen, memcpyAt_memcpyAt (by omega)]
  rfl

/-- The item is copied to the working buffer and counted. -/
lemma LogMem.Rel.put (hr : m.Rel il) (ili : IndexLogItem)
    (hroom : (il.workingBuffer.count + 1) * indexLogItemSize ≤ logBufSize) {m' : LogMem}
    (hm' : m' = m.setBuffer m.workingBuffer fun b =>
      { b with
        count := b.count + 1
        bufPtr := memcpyAt (b.count * indexLogItemSize) ili.encode b.bufPtr }) :
    m'.Rel (il.putItem ili) := by
  subst hm'
  have hcount := hr.working.count
  refine ⟨?_, ?_, ?_, ?_⟩
  · rw [IndexLogger.putItem, currWorkingBuf_setWorkingBuffer]
    exact hr.curr
  · rw [IndexLogger.putItem, currWorkingBuf_setWorkingBuffer]
    exact hr.pointers
  · rw [IndexLogger.putItem, workingBuffer_setWorkingBuffer]
    have hput := hr.working.put ili (by rw [hcount]; exact hroom)
    simpa [LogMem.setBuffer] using hput
  · rw [IndexLogger.putItem, storingBuffer_setWorkingBuffer]
    simpa [LogMem.setBuffer, hr.pointers_ne.symm] using hr.storing

namespace LogProg

lemma safe_assign (a : LogAssign) (k : Unit → Prog logger α) :
    Safe LogMem.handle P Q (assign a >>= k) h m ↔
      P (.call (I := logger) (.assign a)) h m ∧ Safe LogMem.handle P Q (k ()) h (m.assign a) :=
  Iff.rfl

lemma safe_assign_last {Q : Unit → Held logger → LogMem → Prop} (a : LogAssign) :
    Safe LogMem.handle P Q (assign a) h m ↔
      P (.call (I := logger) (.assign a)) h m ∧ Q () h (m.assign a) :=
  Iff.rfl

lemma safe_lockBuf (l : BufName) (k : Unit → Prog logger α) :
    Safe LogMem.handle P Q (lockBuf l >>= k) h m ↔
      P (.lock (I := logger) l .ex) h m ∧
        (Admits h l .ex → Safe LogMem.handle P Q (k ()) ((l, .ex) :: h) m) :=
  Iff.rfl

lemma safe_unLock (l : BufName) (k : Unit → Prog logger α) :
    Safe LogMem.handle P Q (unLock l >>= k) h m ↔
      P (.unlock (I := logger) l .ex) h m ∧
        Safe LogMem.handle P Q (k ()) (h.erase (l, .ex)) m :=
  Iff.rfl

lemma safe_currWorkingBuf (k : ℕ → Prog logger α) :
    Safe LogMem.handle P Q (currWorkingBuf >>= k) h m ↔
      P (.call (I := logger) .currWorkingBuf) h m ∧
        Safe LogMem.handle P Q (k m.currWorkingBuf) h m :=
  Iff.rfl

lemma safe_pointer (p : BufName) (k : BufPtr → Prog logger α) :
    Safe LogMem.handle P Q (pointer p >>= k) h m ↔
      P (.call (I := logger) (.pointer p)) h m ∧ Safe LogMem.handle P Q (k (m.pointer p)) h m :=
  Iff.rfl

lemma safe_count (p : BufName) (k : ℕ → Prog logger α) :
    Safe LogMem.handle P Q (count p >>= k) h m ↔
      P (.call (I := logger) (.count p)) h m ∧
        Safe LogMem.handle P Q (k (m.buffers (m.pointer p)).count) h m :=
  Iff.rfl

lemma safe_crc32Calc (len : ℕ) (k : UInt32 → Prog logger α) :
    Safe LogMem.handle P Q (crc32Calc len >>= k) h m ↔
      P (.call (I := logger) (.crc32Calc len)) h m ∧ Safe LogMem.handle P Q
        (k (Linglongta.crc32Calc ((m.buffers m.storingBuffer).bufPtr.take len))) h m :=
  Iff.rfl

lemma safe_write (len : ℕ) (k : Option ℕ → Prog logger α) :
    Safe LogMem.handle P Q (write len >>= k) h m ↔
      P (.call (I := logger) (.write len)) h m ∧ Safe LogMem.handle P Q
        (k (writeFile (m.outs 0) m.file (m.storingBytes len)).1) h (m.written len) :=
  Iff.rfl

/-- `switch_buffer` switches the buffers of the logger. -/
lemma safe_switchBuffer (hr : m.Rel il) (hf : m.file = f₁ ∨ m.file = f₂)
    {Q : Unit → Held logger → LogMem → Prop}
    (hQ : ∀ m' : LogMem, m'.Rel (Linglongta.switchBuffer il) → m'.file = m.file →
      m'.outs = m.outs → Q () h m') :
    Safe LogMem.handle (LogMem.Fine f₁ f₂) Q switchBuffer h m := by
  have hfine : ∀ {m' : LogMem} (r : LogReq), (∀ b off src, r ≠ .assign (.memcpy b off src)) →
      m'.file = m.file → m'.Fine f₁ f₂ (.call (I := logger) r) h := by
    intro m' r hne heq
    exact fine_call (heq ▸ hf) fun b off src hr => absurd hr (hne b off src)
  rw [switchBuffer, safe_currWorkingBuf]
  refine ⟨hfine _ (by simp) rfl, ?_⟩
  rcases hr.pointers with ⟨hcurr, hw, hs⟩ | ⟨hcurr, hw, hs⟩
  · have hm := hr.curr.trans hcurr
    rw [Prog.assert, if_pos (Or.inl hm), ret_bind, safe_currWorkingBuf, if_pos hm]
    simp only [safe_assign, safe_assign_last]
    refine ⟨hfine _ (by simp) rfl, hfine _ (by simp) rfl, hfine _ (by simp) (by simp),
      hfine _ (by simp) (by simp), hfine _ (by simp) (by simp), hfine _ (by simp) (by simp),
      hQ _ (hr.switched ?_) (by simp) (by simp)⟩
    exact Or.inl ⟨hcurr, rfl, rfl, rfl⟩
  · have hm := hr.curr.trans hcurr
    have hne : m.currWorkingBuf ≠ 1 := by omega
    rw [Prog.assert, if_pos (Or.inr hm), ret_bind, safe_currWorkingBuf, if_neg hne]
    simp only [safe_assign, safe_assign_last]
    refine ⟨hfine _ (by simp) rfl, hfine _ (by simp) rfl, hfine _ (by simp) (by simp),
      hfine _ (by simp) (by simp), hfine _ (by simp) (by simp), hfine _ (by simp) (by simp),
      hQ _ (hr.switched ?_) (by simp) (by simp)⟩
    exact Or.inr ⟨hcurr, rfl, rfl, rfl⟩

/-- `sync_index_log` writes the items of the storing buffer. -/
lemma safe_syncIndexLog (hr : m.Rel il) (hf : m.file = f₁ ∨ m.file = f₂)
    (hf' : (Linglongta.syncIndexLog (m.outs 0) il m.file).file = f₁ ∨
      (Linglongta.syncIndexLog (m.outs 0) il m.file).file = f₂)
    {Q : Int → Held logger → LogMem → Prop}
    (hQ : ∀ m' : LogMem, m'.Rel (Linglongta.syncIndexLog (m.outs 0) il m.file).logger →
      m'.file = (Linglongta.syncIndexLog (m.outs 0) il m.file).file →
      m'.outs = (fun n => m.outs (n + 1)) →
      Q (Linglongta.syncIndexLog (m.outs 0) il m.file).ret h m') :
    Safe LogMem.handle (LogMem.Fine f₁ f₂) Q syncIndexLog h m := by
  have hfine : ∀ {m' : LogMem} (r : LogReq), (∀ b off src, r ≠ .assign (.memcpy b off src)) →
      (m'.file = f₁ ∨ m'.file = f₂) → m'.Fine f₁ f₂ (.call (I := logger) r) h := by
    intro m' r hne heq
    exact fine_call heq fun b off src hr => absurd hr (hne b off src)
  have hcount := hr.storing.count
  have hcrc : Linglongta.crc32Calc ((m.buffers m.storingBuffer).bufPtr.take
      ((m.buffers m.storingBuffer).count * indexLogItemSize)) =
      Linglongta.crc32Calc (il.storingBuffer.bufPtr.take
        (il.storingBuffer.count * indexLogItemSize)) := by
    rw [hr.storing.items, hcount]
  simp only [syncIndexLog, safe_count, safe_crc32Calc, safe_assign, safe_write, LogMem.pointer, hcrc]
  set v := Linglongta.crc32Calc (il.storingBuffer.bufPtr.take
    (il.storingBuffer.count * indexLogItemSize)) with hv
  have hr₁ := hr.summed v
  set m₁ := m.assign (.crc32sum .storing v) with hm₁
  set len := il.storingBuffer.count * indexLogItemSize + logBufHeaderSize with hlen
  have hcount₁ : (m₁.buffers m₁.storingBuffer).count = il.storingBuffer.count := by
    rw [hr₁.storing.count, storingBuffer_setStoringBuffer]
  have hcount₂ : ((m₁.written len).buffers (m₁.written len).storingBuffer).count =
      il.storingBuffer.count := hcount₁
  have hbytes : m₁.storingBytes len =
      ({ il.storingBuffer with crc32sum := v } : LogBuf).image := by
    have hb := hr₁.storing
    rw [storingBuffer_setStoringBuffer] at hb
    exact hb.storingBytes
  have hfile₁ : m₁.file = m.file := LogMem.file_assign _
  have houts₁ : m₁.outs = m.outs := LogMem.outs_assign _
  have hfile : (m₁.written len).file = (Linglongta.syncIndexLog (m.outs 0) il m.file).file := by
    simp only [LogMem.written, hbytes, hfile₁, houts₁]
    rfl
  have hret : (if (writeFile (m₁.outs 0) m₁.file (m₁.storingBytes len)).1 = some len then (0 : Int)
      else -1) = (Linglongta.syncIndexLog (m.outs 0) il m.file).ret := by
    rw [hbytes, hfile₁, houts₁]
    rfl
  have hend := hQ (m₁.written len) ⟨hr₁.curr, hr₁.pointers, hr₁.working, hr₁.storing⟩ hfile
    (by simp only [LogMem.written, houts₁])
  rw [← hret] at hend
  rw [hcount₁, ← hlen]
  refine ⟨hfine _ (by simp) hf, hfine _ (by simp) hf, hfine _ (by simp) hf,
    hfine _ (by simp) (hfile₁ ▸ hf), hfine _ (by simp) (hfile₁ ▸ hf),
    hfine _ (by simp) (hfile ▸ hf'), ?_⟩
  simp only [hcount₂, ← hlen]
  exact hend

/-- The end of `index_logger_append` adds the item to the working buffer. -/
lemma safe_putItem (hr : m.Rel il) (hf : m.file = f₁ ∨ m.file = f₂) (ili : IndexLogItem)
    (hroom : (il.workingBuffer.count + 1) * indexLogItemSize ≤ logBufSize)
    {Q : Unit → Held logger → LogMem → Prop}
    (hQ : ∀ m' : LogMem, m'.Rel (il.putItem ili) → m'.file = m.file → m'.outs = m.outs →
      Q () h m') : Safe LogMem.handle (LogMem.Fine f₁ f₂) Q (putItem ili) h m := by
  have hfine : ∀ {m' : LogMem} (r : LogReq),
      (∀ b off src, r = .assign (.memcpy b off src) → off + src.length ≤ logBufSize) →
      m'.file = m.file → m'.Fine f₁ f₂ (.call (I := logger) r) h :=
    fun r hr heq => fine_call (heq ▸ hf) hr
  have hcount := hr.working.count
  have hend : il.workingBuffer.count * indexLogItemSize + indexLogItemSize ≤ logBufSize := by
    rw [← Nat.succ_mul]
    exact hroom
  have hsize : indexLogItemSize = 4 + keyLen + indexValueSize := rfl
  have hkey := ili.indexKey.size_eq
  have hvalue := ili.indexValue.size_eq
  have htype : (Bytes.toLE 4 ili.type.code).length = 4 := Bytes.length_toLE _ _
  simp only [putItem, safe_pointer, safe_count, safe_assign, safe_assign_last, LogMem.pointer]
  refine ⟨hfine _ (by simp) rfl, hfine _ (by simp) rfl, hfine _ ?_ rfl, hfine _ ?_ (by simp),
    hfine _ ?_ (by simp), hfine _ (by simp) (by simp), hfine _ (by simp) (by simp),
    hQ _ (hr.put ili hroom ?_) (by simp) (by simp)⟩
  · rintro b off src heq
    obtain ⟨rfl, rfl, rfl⟩ := LogAssign.memcpy.inj (LogReq.assign.inj heq)
    rw [hcount, htype]
    omega
  · rintro b off src heq
    obtain ⟨rfl, rfl, rfl⟩ := LogAssign.memcpy.inj (LogReq.assign.inj heq)
    rw [hcount]
    omega
  · rintro b off src heq
    obtain ⟨rfl, rfl, rfl⟩ := LogAssign.memcpy.inj (LogReq.assign.inj heq)
    rw [hcount]
    omega
  · have hin : (m.buffers m.workingBuffer).count * indexLogItemSize + indexLogItemSize ≤
        (m.buffers m.workingBuffer).bufPtr.length := by
      rw [hcount, hr.working.size]
      exact hend
    have hitem := memcpyAt_item _ ili hin
    simp [LogMem.assign, LogMem.setBuffer, LogMem.pointer, hitem]

lemma safe_store (hr : m.Rel il) (hf : m.file = f₁ ∨ m.file = f₂)
    (hf' : (Linglongta.syncIndexLog (m.outs 0) (Linglongta.switchBuffer il) m.file).file = f₁ ∨
      (Linglongta.syncIndexLog (m.outs 0) (Linglongta.switchBuffer il) m.file).file = f₂)
    (hadm : Admits h BufName.storing .ex) {Q : Int → Held logger → LogMem → Prop}
    (hQ : ∀ m' : LogMem,
      m'.Rel (Linglongta.syncIndexLog (m.outs 0) (Linglongta.switchBuffer il) m.file).logger →
      m'.file = (Linglongta.syncIndexLog (m.outs 0) (Linglongta.switchBuffer il) m.file).file →
      m'.outs = (fun n => m.outs (n + 1)) →
      Q (Linglongta.syncIndexLog (m.outs 0) (Linglongta.switchBuffer il) m.file).ret h m') :
    Safe LogMem.handle (LogMem.Fine f₁ f₂) Q store h m := by
  rw [store, safe_lockBuf]
  refine ⟨⟨by simp, ?_, hf, by simp⟩, fun _ => ?_⟩
  · intro l md hact
    obtain ⟨rfl, rfl⟩ := Action.lock.inj hact
    exact hadm
  · refine (safe_bind (I := logger) _ _).2 (safe_switchBuffer hr hf fun m₁ hr₁ hfile₁ houts₁ => ?_)
    refine (safe_bind (I := logger) _ _).2 (safe_syncIndexLog hr₁ (hfile₁ ▸ hf) ?_ ?_)
    · rwa [hfile₁, houts₁]
    · rw [hfile₁, houts₁]
      intro m₂ hr₂ hfile₂ houts₂
      rw [safe_unLock, List.erase_cons_head]
      exact ⟨⟨by simp, by simp, hfile₂ ▸ hf', by simp⟩, hQ m₂ hr₂ hfile₂ houts₂⟩

end LogProg

end Alone

/-! ## The journal as threads see it -/

instance instDecidableWrites (il : IndexLogger) : (c : WriteCall) → Decidable (c.Writes il)
  | .append _ => inferInstanceAs (Decidable (_ < _))
  | .flush => inferInstanceAs (Decidable (_ ≠ _))

/-- A logger with its file, and what the kernel will do with each `write` from now on. -/
structure Journal where
  /-- The logger and the file. -/
  writer : Writer
  /-- What the kernel will do. -/
  outs : ℕ → Option ℕ

namespace Journal

/-- The journal made by `index_logger_create`. -/
def create (outs : ℕ → Option ℕ) : Journal where
  writer := Writer.create
  outs := outs

/-- What a call returns. -/
def ret (j : Journal) (c : WriteCall) : Int :=
  (j.writer.call (j.outs 0) c).ret

/-- The journal after a call. -/
def call (j : Journal) (c : WriteCall) : Journal where
  writer := j.writer.step (j.outs 0) c
  outs := if c.Writes j.writer.logger then fun n => j.outs (n + 1) else j.outs

/-- The journal after some calls. -/
def run (j : Journal) (cs : List WriteCall) : Journal :=
  cs.foldl call j

/-- What some calls return. -/
def rets : Journal → List WriteCall → List Int
  | _, [] => []
  | j, c :: cs => j.ret c :: (j.call c).rets cs

lemma rets_concat (j : Journal) (cs : List WriteCall) (c : WriteCall) :
    j.rets (cs ++ [c]) = j.rets cs ++ [(j.run cs).ret c] := by
  induction cs generalizing j with
  | nil => rfl
  | cons d cs ih =>
    rw [List.cons_append, rets, ih]
    rfl

end Journal

/-- The memory of a journal. -/
structure LogMem.Is (m : LogMem) (j : Journal) : Prop where
  /-- The buffers. -/
  rel : m.Rel j.writer.logger
  /-- The file. -/
  file : m.file = j.writer.file
  /-- What the kernel will do. -/
  outs : m.outs = j.outs

section Calls

variable {m : LogMem} {j : Journal}

/-- The end of a call. -/
lemma safe_unLock_working {f₁ f₂ : List UInt8} {Q : Int → Held logger → LogMem → Prop} {r : Int}
    (hf : m.file = f₁ ∨ m.file = f₂) (hQ : Q r [] m) :
    Safe LogMem.handle (LogMem.Fine f₁ f₂) Q (do LogProg.unLock .working; pure r)
      [(BufName.working, LockMode.ex)] m := by
  rw [LogProg.safe_unLock, List.erase_cons_head]
  exact ⟨⟨by simp, by simp, hf, by simp⟩, hQ⟩

lemma admits_storing : Admits (I := logger) [(BufName.working, LockMode.ex)] BufName.storing .ex := by
  constructor
  · intro hmem
    cases List.mem_singleton.1 hmem
  · intro hmem
    cases List.mem_singleton.1 hmem

lemma LogMem.Is.safe_flush (hm : m.Is j) :
    Safe LogMem.handle (LogMem.Fine j.writer.file (j.call .flush).writer.file)
      (fun a h' m' => h' = [] ∧ a = j.ret .flush ∧ m'.Is (j.call .flush)) LogProg.indexLoggerFlush
      [(BufName.working, LockMode.ex)] m := by
  have hcount : (m.buffers (m.pointer .working)).count = j.writer.logger.workingBuffer.count :=
    hm.rel.working.count
  rw [LogProg.indexLoggerFlush, LogProg.safe_count, hcount]
  refine ⟨fine_call (Or.inl hm.file) (by simp), ?_⟩
  by_cases hzero : j.writer.logger.workingBuffer.count = 0
  · have hcall : j.writer.call (j.outs 0) .flush = ⟨0, j.writer.logger, j.writer.file⟩ := by
      rw [Writer.call, indexLoggerFlush, if_pos hzero]
    rw [if_pos hzero, pure_eq_ret, ret_bind]
    refine safe_unLock_working (Or.inl hm.file) ⟨rfl, ?_, ⟨?_, ?_, ?_⟩⟩
    · rw [Journal.ret, hcall]
    · rw [Journal.call, Writer.step, hcall]
      exact hm.rel
    · rw [Journal.call, Writer.step, hcall]
      exact hm.file
    · rw [Journal.call, if_neg fun hw => hw hzero]
      exact hm.outs
  · have hcall : j.writer.call (j.outs 0) .flush =
        syncIndexLog (j.outs 0) (switchBuffer j.writer.logger) j.writer.file := by
      rw [Writer.call, indexLoggerFlush, if_neg hzero]
    rw [if_neg hzero]
    refine (safe_bind (I := logger) _ _).2 (LogProg.safe_store hm.rel (Or.inl hm.file) ?_
      admits_storing ?_)
    · rw [Journal.call, Writer.step, hcall, hm.file, hm.outs]
      exact Or.inr rfl
    · rw [hm.file, hm.outs, ← hcall]
      intro m' hr' hfile' houts'
      refine safe_unLock_working (Or.inr hfile') ⟨rfl, rfl, hr', hfile', ?_⟩
      rw [houts', Journal.call, if_pos (show WriteCall.Writes _ .flush from hzero)]

lemma LogMem.Is.safe_append (hm : m.Is j) (ili : IndexLogItem) :
    Safe LogMem.handle (LogMem.Fine j.writer.file (j.call (.append ili)).writer.file)
      (fun a h' m' => h' = [] ∧ a = j.ret (.append ili) ∧ m'.Is (j.call (.append ili)))
      (LogProg.indexLoggerAppend ili) [(BufName.working, LockMode.ex)] m := by
  have hcount : (m.buffers (m.pointer .working)).count = j.writer.logger.workingBuffer.count :=
    hm.rel.working.count
  rw [LogProg.indexLoggerAppend, LogProg.safe_count, hcount]
  refine ⟨fine_call (Or.inl hm.file) (by simp), ?_⟩
  by_cases hfull : logBufSize < (j.writer.logger.workingBuffer.count + 1) * indexLogItemSize
  · rw [if_pos hfull]
    set r := syncIndexLog (j.outs 0) (switchBuffer j.writer.logger) j.writer.file with hr
    have hcall : j.writer.call (j.outs 0) (.append ili) =
        if r.ret ≠ 0 then r else { r with logger := r.logger.putItem ili } := by
      rw [Writer.call, indexLoggerAppend, if_pos hfull]
    have hfile : (j.call (.append ili)).writer.file = r.file := by
      rw [Journal.call, Writer.step, hcall]
      split
      · rfl
      · rfl
    have houts : (j.call (.append ili)).outs = fun n => j.outs (n + 1) := by
      rw [Journal.call, if_pos (show WriteCall.Writes _ (.append ili) from hfull)]
    refine (safe_bind (I := logger) _ _).2 (LogProg.safe_store hm.rel (Or.inl hm.file) ?_
      admits_storing ?_)
    · rw [hm.file, hm.outs, hfile]
      exact Or.inr rfl
    · rw [hm.file, hm.outs, ← hr]
      intro m₁ hr₁ hfile₁ houts₁
      have hout : m₁.file = j.writer.file ∨ m₁.file = (j.call (.append ili)).writer.file :=
        Or.inr (hfile₁.trans hfile.symm)
      by_cases hret : r.ret = 0
      · rw [if_neg (not_not.2 hret)] at hcall
        rw [if_pos hret]
        have hroom : (r.logger.workingBuffer.count + 1) * indexLogItemSize ≤ logBufSize := by
          rw [hr, syncIndexLog, workingBuffer_setStoringBuffer, count_workingBuffer_switchBuffer]
          decide
        refine (safe_bind (I := logger) _ _).2 (LogProg.safe_putItem hr₁ hout ili hroom ?_)
        intro m₂ hr₂ hfile₂ houts₂
        refine safe_unLock_working (hfile₂ ▸ hout) ⟨rfl, ?_, ⟨?_, ?_, ?_⟩⟩
        · rw [Journal.ret, hcall]
        · rw [Journal.call, Writer.step, hcall]
          exact hr₂
        · rw [hfile₂, hfile₁, hfile]
        · rw [houts₂, houts₁, houts]
      · rw [if_pos hret] at hcall
        rw [if_neg hret, pure_eq_ret, ret_bind]
        refine safe_unLock_working hout ⟨rfl, ?_, ⟨?_, ?_, ?_⟩⟩
        · rw [Journal.ret, hcall]
        · rw [Journal.call, Writer.step, hcall]
          exact hr₁
        · rw [hfile₁, hfile]
        · rw [houts₁, houts]
  · have hcall : j.writer.call (j.outs 0) (.append ili) =
        ⟨0, j.writer.logger.putItem ili, j.writer.file⟩ := by
      rw [Writer.call, indexLoggerAppend, if_neg hfull]
    rw [if_neg hfull, pure_eq_ret, ret_bind, if_pos rfl]
    refine (safe_bind (I := logger) _ _).2
      (LogProg.safe_putItem hm.rel (Or.inl hm.file) ili (not_lt.1 hfull) ?_)
    intro m₁ hr₁ hfile₁ houts₁
    refine safe_unLock_working (Or.inl (hfile₁.trans hm.file)) ⟨rfl, ?_, ⟨?_, ?_, ?_⟩⟩
    · rw [Journal.ret, hcall]
    · rw [Journal.call, Writer.step, hcall]
      exact hr₁
    · rw [Journal.call, Writer.step, hcall, hfile₁]
      exact hm.file
    · rw [Journal.call, if_neg (show ¬WriteCall.Writes _ (.append ili) from hfull), houts₁]
      exact hm.outs

/-- A call that runs alone returns what the logger does. -/
lemma LogMem.Is.safe_prog (hm : m.Is j) (c : WriteCall) :
    Safe LogMem.handle (LogMem.Fine j.writer.file (j.call c).writer.file)
      (fun a h' m' => h' = [] ∧ a = j.ret c ∧ m'.Is (j.call c)) (journalMonitor.prog c) [] m := by
  refine ⟨⟨by simp, ?_, Or.inl hm.file, by simp⟩, fun _ => ?_⟩
  · intro l md hact
    obtain ⟨rfl, rfl⟩ := Action.lock.inj hact
    exact ⟨List.not_mem_nil, List.not_mem_nil⟩
  · cases c with
    | append ili => exact hm.safe_append ili
    | flush => exact hm.safe_flush

/-- It ends with the journal after the call. -/
lemma LogMem.Is.exec_prog (hm : m.Is j) (c : WriteCall) :
    ∃ m', exec LogMem.handle (journalMonitor.prog c) [] m = .returned (j.ret c) [] m' ∧
      m'.Is (j.call c) := by
  obtain ⟨a, h', m', hexec, rfl, rfl, hm'⟩ := (hm.safe_prog c).returned
    (fun h w hP => hP.ne_abort rfl) fun l md h w hP => hP.admits l md rfl
  exact ⟨m', hexec, hm'⟩

end Calls

end Linglongta
