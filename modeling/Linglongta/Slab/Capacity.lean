import Linglongta.Slab.Partition

/-!
# The memory behind a payload pointer

`_slab_alloc` adds the size of the header to the size it is asked for, as a `size_t`.  If the sum
wraps around, the class is that of a few bytes, and the caller gets a small chunk for a huge
request. `slab_capacity_iff` says that this is the only way to get too little memory.
-/

namespace Linglongta.Slab

/-- In every state that calls of the allocator lead to, the memory that `_slab_alloc` returns for a
size has room for the header and for as many bytes behind it. -/
def CoversRequest (c : SlabConfig) (size : ℕ) : Prop :=
  ∀ (heads : ℕ → SlabHead) (l : List SlabCall) (answers : SlabAnswers) (ptr : ℕ) (s : SlabState),
    slabAlloc c answers size ((SlabRun.init heads).calls c l).state = (some ptr, s) →
      ∃ a total, ptr = a + c.headSize ∧ Backed c s a total ∧ size + c.headSize ≤ total

section Capacity

variable {c : SlabConfig} {size : ℕ}

/-- A header is of some size, and of sixteen bytes at most. -/
lemma SlabConfig.headSize_bounds (c : SlabConfig) : 0 < c.headSize ∧ c.headSize ≤ 16 := by
  unfold SlabConfig.headSize
  split <;> decide

/-- No memory is larger than the address space. -/
lemma Backed.le_userSpace {s : SlabState} {a total : ℕ} (h : Backed c s a total) :
    total ≤ userSpace := by
  rcases h with ⟨id, hid, hle, -, rfl⟩ | ⟨hreg, -⟩
  · exact (c.size_le_powerBlock hid hle).trans (by decide)
  · have hend := (s.memory.within _ hreg).2
    simp only at hend
    omega

/-- A request whose sum with the header is a `size_t` gets enough memory. -/
lemma coversRequest_of_le (h : size + c.headSize ≤ 2 ^ 64) : CoversRequest c size := by
  intro heads l answers ptr s hres
  have hinv := (SlabRun.Inv.init c heads).calls (c := c) l
  obtain ⟨a, total, hptr, hback, hsize⟩ := (hinv.slabAlloc answers size).1 ptr (by rw [hres])
  rw [hres] at hback
  rcases h.eq_or_lt with heq | hlt
  · -- the sum wraps around to zero, and the call fails
    unfold slabAlloc at hres
    simp only [heq, Nat.mod_self, ClassTable.slabClsid_zero] at hres
    cases hres
  · rw [Nat.mod_eq_of_lt hlt] at hsize
    exact ⟨a, total, hptr, hback, hsize⟩

/-- A class without slabs gets one. -/
lemma doSlabsNewslab_init (c : SlabConfig) (heads : ℕ → SlabHead) (id : ℕ) :
    ∃ s, doSlabsNewslab c ⟨true, some 4096⟩ id (SlabState.init heads) = (true, s) ∧
      (s.slabclass id).slCurr = 0 ∧ (s.slabclass id).endPagePtr = 4096 := by
  have hgrow : growSlabList ⟨true, some 4096⟩ id (SlabState.init heads) =
      (true, (SlabState.init heads).setClass id { SlabClass.zero with listSize := 16 }) := rfl
  have hfree : (AddressSpace.empty userSpace).Free ⟨4096, powerBlock⟩ :=
    ⟨⟨by decide, by decide⟩, fun _ h => absurd h List.not_mem_nil⟩
  obtain ⟨m, hm⟩ := AddressSpace.grant_of_free hfree
  unfold doSlabsNewslab
  rw [if_neg (by simp [SlabState.init, SlabClass.zero]), hgrow]
  have hmem : ((SlabState.init heads).setClass id { SlabClass.zero with listSize := 16 }).memory =
      AddressSpace.empty userSpace := rfl
  simp only [Bool.true_eq_false, if_false, hmem, hm]
  refine ⟨_, rfl, ?_, ?_⟩
  · simp [SlabState.setClass, SlabState.init, SlabClass.zero]
  · simp [SlabState.setClass]

/-- The first allocation of a process is successful if the system has memory. -/
lemma slabAlloc_init (c : SlabConfig) (heads : ℕ → SlabHead) (size : ℕ)
    (hpos : 0 < (size + c.headSize) % 2 ^ 64)
    (hsmall : (size + c.headSize) % 2 ^ 64 ≤ powerBlock) :
    ∃ ptr s, slabAlloc c ⟨true, some 4096⟩ size (SlabState.init heads) = (some ptr, s) := by
  have hclass := c.table.slabClsid_isClass hpos
  have hone : powerSmallest ≤ c.table.slabClsid ((size + c.headSize) % 2 ^ 64) := by
    by_contra hlt
    unfold powerSmallest at hlt
    have hle := hclass.size_le (by omega)
    rw [show c.table.slabClsid ((size + c.headSize) % 2 ^ 64) = 0 by omega,
      c.table.size_zero] at hle
    omega
  unfold slabAlloc
  simp only
  rw [if_neg (by omega)]
  split_ifs with hlarge
  · have hfree : (AddressSpace.empty userSpace).Free ⟨4096, (size + c.headSize) % 2 ^ 64⟩ := by
      refine ⟨⟨Nat.succ_pos _, ?_⟩, fun _ h => absurd h List.not_mem_nil⟩
      unfold powerBlock at hsmall
      unfold userSpace
      simp only
      omega
    obtain ⟨m, hm⟩ := AddressSpace.grant_of_free hfree
    have hmem : (SlabState.init heads).memory = AddressSpace.empty userSpace := rfl
    unfold allocByMalloc
    rw [hmem, hm]
    exact ⟨_, _, rfl⟩
  · obtain ⟨s, hs, hcurr, hptr⟩ := doSlabsNewslab_init c heads
      (c.table.slabClsid ((size + c.headSize) % 2 ^ 64))
    have hroom : findRoom c ⟨true, some 4096⟩ (c.table.slabClsid ((size + c.headSize) % 2 ^ 64))
        (SlabState.init heads) = (true, s) := by
      unfold findRoom
      rw [if_neg (by simp [SlabState.init, SlabClass.zero]), hs]
    unfold allocFromClass
    simp only [hroom, Bool.true_eq_false, if_false]
    rw [if_neg (by omega), if_pos (by omega)]
    exact ⟨_, _, rfl⟩

/-- A request whose sum with the header wraps around gets too little memory, in the first call
already. -/
lemma not_coversRequest_of_wrap (hsize : size < 2 ^ 64) (hwrap : 2 ^ 64 < size + c.headSize) :
    ¬CoversRequest c size := by
  intro hcovers
  have hhead := c.headSize_bounds
  have hblock : 16 ≤ powerBlock := by decide
  obtain ⟨ptr, s, hres⟩ := slabAlloc_init c (fun _ => SlabHead.wiped) size (by omega) (by omega)
  obtain ⟨a, total, -, hback, hle⟩ := hcovers _ [] _ ptr s hres
  have htotal := hback.le_userSpace
  unfold userSpace at htotal
  omega

end Capacity

/-- Allocated capacity covers the request if and only if the size of the header can be added to the
size without exceeding the range of a `size_t`.  At the end of the range the call fails. -/
theorem slab_capacity_iff (c : SlabConfig) {size : ℕ} (hsize : size < 2 ^ 64) :
    CoversRequest c size ↔ size + c.headSize ≤ 2 ^ 64 := by
  constructor
  · intro hcovers
    by_contra hwrap
    exact not_coversRequest_of_wrap hsize (by omega) hcovers
  · exact coversRequest_of_le

/-- The allocator of the server covers a request of a hundred bytes. -/
theorem slab_capacity_hundred : CoversRequest serverSlab 100 ↔ 100 + serverSlab.headSize ≤ 2 ^ 64 :=
  slab_capacity_iff serverSlab (by decide)

/-- The allocator of the server does not cover a request of `2 ^ 64 - 1` bytes: with the header
these are seven bytes, for which there is a chunk of sixteen. -/
theorem slab_request_wraps : ¬CoversRequest serverSlab (2 ^ 64 - 1) :=
  not_coversRequest_of_wrap (by decide) (by decide)

end Linglongta.Slab
