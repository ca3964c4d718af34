import Linglongta.Foundations.AddressSpace
import Linglongta.Foundations.Integers
import Linglongta.Slab.Classes

/-!
# The slab allocator

`_slab_alloc` and `_slab_free` of `slab.c`, with `grow_slab_list` and `do_slabs_newslab`, as they
are compiled with the options of `slab.h` (`USE_FIXED_BLOCK`, `USE_VALLOC`, `BSEARCH_BLOCK`), with
or without `NEED_DEBUG`.

The state is the array `slabclass`, the counter `mem_malloced`, the headers in front of the
payloads, and the memory that the system has granted.  `malloc` and `valloc` propose an address, and
the proposal counts if the memory there is free; else the call fails.  `realloc` grows an array in
place or elsewhere, which makes no difference to what the array holds, so its answer is only whether
there is memory.  No request beyond the address space of the process is granted.

Pointers are addresses, and `0` is the null pointer.  The counters of a class are `unsigned int`s.
-/

namespace Linglongta.Slab

/-- The end of the addresses that the system gives a process. -/
def userSpace : ℕ := 2 ^ 47

/-- What `slab_init` and the options of the build have fixed. -/
structure SlabConfig where
  /-- The classes. -/
  table : ClassTable
  /-- `mem_limit`; `0` is no limit. -/
  memLimit : ℕ
  /-- `NEED_DEBUG >= 1`. -/
  needDebug : Bool
  /-- The array `slabclass` has room for the classes. -/
  powerLargest_le : table.powerLargest ≤ powerLargestIndex
  /-- A class has chunks of some size, -/
  size_pos : 0 < table.size 1
  /-- and one fits in a slab. -/
  size_le : table.size table.powerLargest ≤ powerBlock

namespace SlabConfig

/-- `slabclass[i].perslab`. -/
def perslab (c : SlabConfig) (id : ℕ) : ℕ := powerBlock / c.table.size id

/-- `sizeof(slabhead_t)`. -/
def headSize (c : SlabConfig) : ℕ := if c.needDebug then 16 else 8

/-- A chunk fits in a slab. -/
lemma size_le_powerBlock (c : SlabConfig) {id : ℕ} (hid : 1 ≤ id)
    (hle : id ≤ c.table.powerLargest) : c.table.size id ≤ powerBlock := by
  rcases hle.eq_or_lt with rfl | hlt
  · exact c.size_le
  · exact (c.table.size_lt_size hid hlt le_rfl).le.trans c.size_le

/-- A slab has a chunk. -/
lemma perslab_pos (c : SlabConfig) {id : ℕ} (hid : 1 ≤ id) (hle : id ≤ c.table.powerLargest) :
    0 < c.perslab id :=
  Nat.div_pos (c.size_le_powerBlock hid hle) (c.size_pos.trans_le (c.table.size_one_le hid hle))

end SlabConfig

/-- The allocator after `slab_init(limit, factor)`; `grow` is the growth by the factor. -/
def slabConfig (limit : ℕ) (grow : ℕ → ℕ) (needDebug : Bool)
    (hgrow : ∀ s, tinySize ≤ s → s < grow s) : SlabConfig where
  table := slabInitTable grow hgrow
  memLimit := limit
  needDebug := needDebug
  powerLargest_le := (slabInitTable_bounds grow hgrow).1
  size_pos := (by decide : 0 < tinySize).trans_le (slabInitTable_bounds grow hgrow).2.1
  size_le := (slabInitTable_bounds grow hgrow).2.2.le

/-- The allocator of the server: `slab_init(MEMPOOL_SIZE, 1.125)`. -/
def serverSlab : SlabConfig :=
  slabConfig (1024 * 1024 * 1024 * 4) (fun s => s * 9 / 8) false
    (by
      intro s hs
      unfold tinySize at hs
      omega)

/-- `slabhead_t`. -/
structure SlabHead where
  /-- `is_malloc`. -/
  isMalloc : Bool
  /-- `size`. -/
  size : ℕ
  /-- `magic_head`, with `NEED_DEBUG`. -/
  magicHead : ℕ

/-- The header that `memset` with `0xCC` leaves. -/
def SlabHead.wiped : SlabHead where
  isMalloc := true
  size := 0xCCCCCCCC
  magicHead := 0xCCCCCCCC

/-- `slabclass_t` without the size and the lock. -/
structure SlabClass where
  /-- `slots`. -/
  slots : ℕ → ℕ
  /-- `sl_total`. -/
  slTotal : ℕ
  /-- `sl_curr`. -/
  slCurr : ℕ
  /-- `end_page_ptr`. -/
  endPagePtr : ℕ
  /-- `end_page_free`. -/
  endPageFree : ℕ
  /-- `slabs`. -/
  slabs : ℕ
  /-- `slab_list`. -/
  slabList : ℕ → ℕ
  /-- `list_size`. -/
  listSize : ℕ

/-- An entry of `slabclass` after the `memset` of `slab_init`. -/
def SlabClass.zero : SlabClass where
  slots := fun _ => 0
  slTotal := 0
  slCurr := 0
  endPagePtr := 0
  endPageFree := 0
  slabs := 0
  slabList := fun _ => 0
  listSize := 0

/-- The state of the allocator. -/
structure SlabState where
  /-- `slabclass`. -/
  slabclass : ℕ → SlabClass
  /-- `mem_malloced`. -/
  memMalloced : ℕ
  /-- The header at an address. -/
  heads : ℕ → SlabHead
  /-- What the system has granted for slabs and by `malloc`. -/
  memory : AddressSpace userSpace

namespace SlabState

/-- The state after `slab_init`; the memory holds anything. -/
def init (heads : ℕ → SlabHead) : SlabState where
  slabclass := fun _ => SlabClass.zero
  memMalloced := 0
  heads := heads
  memory := AddressSpace.empty userSpace

/-- One class is overwritten. -/
def setClass (s : SlabState) (id : ℕ) (p : SlabClass) : SlabState :=
  { s with slabclass := Function.update s.slabclass id p }

/-- What holds of the new class and of the other classes holds of all. -/
lemma forall_setClass {P : ℕ → SlabClass → Prop} {s : SlabState} {id : ℕ} {p : SlabClass}
    (hself : P id p) (hother : ∀ i, i ≠ id → P i (s.slabclass i)) (i : ℕ) :
    P i ((s.setClass id p).slabclass i) := by
  unfold setClass
  by_cases hi : i = id
  · subst hi
    simpa using hself
  · simpa [Function.update_of_ne hi] using hother i hi

/-- One header is overwritten. -/
def setHead (s : SlabState) (a : ℕ) (h : SlabHead) : SlabState :=
  { s with heads := Function.update s.heads a h }

end SlabState

/-- What the system answers during one call. -/
structure SlabAnswers where
  /-- Whether `realloc` finds memory. -/
  realloc : Bool
  /-- Where `malloc` or `valloc` finds memory. -/
  block : Option ℕ

/-- `realloc` to some bytes is successful.  With zero bytes it returns the null pointer. -/
def reallocates (answer : Bool) (bytes : ℕ) : Bool :=
  answer && decide (0 < bytes ∧ bytes ≤ userSpace)

/-- The size of the list of slabs after it has grown. -/
def SlabClass.newListSize (p : SlabClass) : ℕ :=
  if p.listSize ≠ 0 then p.listSize * 2 % 2 ^ 32 else 16

/-- `grow_slab_list`; the result `0` is `false`. -/
def growSlabList (answers : SlabAnswers) (id : ℕ) (s : SlabState) : Bool × SlabState :=
  let p := s.slabclass id
  if p.slabs = p.listSize then
    if reallocates answers.realloc (p.newListSize * 8 % 2 ^ 64) then
      (true, s.setClass id { p with listSize := p.newListSize })
    else
      (false, s)
  else
    (true, s)

/-- `memset` of a new slab with `0xCC`, with `NEED_DEBUG`. -/
def wipeSlab (c : SlabConfig) (ptr : ℕ) (heads : ℕ → SlabHead) : ℕ → SlabHead := fun a =>
  if c.needDebug ∧ ptr ≤ a ∧ a < ptr + powerBlock then SlabHead.wiped else heads a

/-- `do_slabs_newslab`; the result `0` is `false`. -/
def doSlabsNewslab (c : SlabConfig) (answers : SlabAnswers) (id : ℕ) (s : SlabState) :
    Bool × SlabState :=
  if c.memLimit ≠ 0 ∧ c.memLimit < (s.memMalloced + powerBlock) % 2 ^ 64 ∧
      0 < (s.slabclass id).slabs then
    (false, s)
  else
    let (grown, s) := growSlabList answers id s
    if grown = false then
      (false, s)
    else
      match s.memory.grant answers.block powerBlock with
      | none => (false, s)
      | some (ptr, memory) =>
        let p := s.slabclass id
        (true,
          { s with
            memMalloced := (s.memMalloced + powerBlock) % 2 ^ 64
            heads := wipeSlab c ptr s.heads
            memory := memory }.setClass id
            { p with
              endPagePtr := ptr
              endPageFree := c.perslab id
              slabList := Function.update p.slabList p.slabs ptr
              slabs := (p.slabs + 1) % 2 ^ 32 })

/-- The header that `_slab_alloc` writes over an old one. -/
def newHead (c : SlabConfig) (isMalloc : Bool) (size : ℕ) (old : SlabHead) : SlabHead where
  isMalloc := isMalloc
  size := size % 2 ^ 32
  magicHead := if c.needDebug then 0xfeedbeef else old.magicHead

/-- The part of `_slab_alloc` behind the class search for a size beyond the largest class. -/
def allocByMalloc (c : SlabConfig) (answers : SlabAnswers) (size : ℕ) (s : SlabState) :
    Option ℕ × SlabState :=
  match s.memory.grant answers.block size with
  | none => (none, s)
  | some (head, memory) =>
    (some (head + c.headSize),
      { s with memory := memory }.setHead head (newHead c true size (s.heads head)))

/-- The last chunk of the free list is returned. -/
def allocFromSlots (c : SlabConfig) (id size : ℕ) (s : SlabState) : Option ℕ × SlabState :=
  let p := s.slabclass id
  let head := p.slots (p.slCurr - 1)
  (some (head + c.headSize),
    (s.setClass id { p with slCurr := p.slCurr - 1 }).setHead head
      (newHead c false size (s.heads head)))

/-- The next chunk of the recently allocated slab is returned. -/
def allocFromPage (c : SlabConfig) (id size : ℕ) (s : SlabState) : Option ℕ × SlabState :=
  let p := s.slabclass id
  let head := p.endPagePtr
  let left := (p.endPageFree + (2 ^ 32 - 1)) % 2 ^ 32
  (some (head + c.headSize),
    (s.setClass id
      { p with
        endPageFree := left
        endPagePtr := if left ≠ 0 then p.endPagePtr + c.table.size id else 0 }).setHead
      head (newHead c false size (s.heads head)))

/-- The condition under which `_slab_alloc` goes on: there is space at the end of a recently
allocated page, or something on the free list, or a new page. -/
def findRoom (c : SlabConfig) (answers : SlabAnswers) (id : ℕ) (s : SlabState) : Bool × SlabState :=
  if (s.slabclass id).endPagePtr ≠ 0 ∨ (s.slabclass id).slCurr ≠ 0 then
    (true, s)
  else
    doSlabsNewslab c answers id s

/-- The part of `_slab_alloc` behind the class search for a size in a class. -/
def allocFromClass (c : SlabConfig) (answers : SlabAnswers) (id size : ℕ) (s : SlabState) :
    Option ℕ × SlabState :=
  let (room, s) := findRoom c answers id s
  if room = false then
    (none, s)
  else if (s.slabclass id).slCurr ≠ 0 then
    allocFromSlots c id size s
  else if (s.slabclass id).endPagePtr ≠ 0 then
    allocFromPage c id size s
  else
    -- shouldn't ever get here
    (none, s)

/-- `_slab_alloc`: the pointer to the payload, none if it is null, and the state. -/
def slabAlloc (c : SlabConfig) (answers : SlabAnswers) (size : ℕ) (s : SlabState) :
    Option ℕ × SlabState :=
  let size := (size + c.headSize) % 2 ^ 64
  let id := c.table.slabClsid size
  if id < powerSmallest then
    (none, s)
  else if c.table.powerLargest < id then
    allocByMalloc c answers size s
  else
    allocFromClass c answers id size s

/-- What becomes of a chunk that is freed. -/
inductive FreeOutcome
  /-- The assertion on `magic_head` fails. -/
  | aborted
  /-- It goes back to the system. -/
  | released
  /-- Nothing is done. -/
  | ignored
  /-- The free list is full and does not grow. -/
  | dropped
  /-- It goes to the free list. -/
  | listed
deriving DecidableEq

/-- The free list of a class takes a chunk. -/
def pushSlot (c : SlabConfig) (id head total : ℕ) (s : SlabState) : SlabState :=
  let p := s.slabclass id
  let s := s.setClass id
    { p with
      slots := Function.update p.slots p.slCurr head
      slCurr := (p.slCurr + 1) % 2 ^ 32
      slTotal := total }
  if c.needDebug then s.setHead head SlabHead.wiped else s

/-- The size of the free list after it has grown, as an `int`. -/
def SlabClass.newSlots (p : SlabClass) : Int :=
  toInt32 (if p.slTotal ≠ 0 then p.slTotal * 2 % 2 ^ 32 else 1024)

/-- `_slab_free`; `realloc` is the answer of the system if the free list has to grow. -/
def slabFree (c : SlabConfig) (realloc : Bool) (ptr : ℕ) (s : SlabState) :
    FreeOutcome × SlabState :=
  if ptr = 0 then
    (.ignored, s)
  else
    let head := ptr - c.headSize
    let size := (s.heads head).size
    if c.needDebug ∧ (s.heads head).magicHead ≠ 0xfeedbeef then
      (.aborted, s)
    else if (s.heads head).isMalloc then
      (.released, { s with memory := s.memory.release head })
    else
      -- the class is an `unsigned char`
      let id := c.table.slabClsid size % 256
      let p := s.slabclass id
      if id < powerSmallest then
        (.ignored, s)
      else if p.slCurr = p.slTotal then
        if reallocates realloc (toSizeT p.newSlots * 8 % 2 ^ 64) then
          (.listed, pushSlot c id head (p.newSlots % 2 ^ 32).toNat s)
        else
          (.dropped, s)
      else
        (.listed, pushSlot c id head p.slTotal s)

end Linglongta.Slab
