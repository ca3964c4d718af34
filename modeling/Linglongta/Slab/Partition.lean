import Linglongta.Slab.Chunks

/-!
# The chunks of a class are partitioned

`_slab_alloc` and `_slab_free` keep the invariant of a run.  The chunks of a class are therefore
always divided into those that are live, those on the free list, those not yet carved and those that
were dropped.
-/

namespace Linglongta.Slab

open scoped List

/-! ## Growing the lists of a class -/

section Growing

variable {c : SlabConfig} {r : SlabRun} {id : ℕ}

/-- `grow_slab_list` changes nothing but the size of the list.  It has room for another slab if the
call is successful. -/
lemma growSlabList_spec {s : SlabState} (h : (s.slabclass id).Inv s.memory)
    (answers : SlabAnswers) :
    ∃ n, (growSlabList answers id s).2 = s.setClass id { s.slabclass id with listSize := n } ∧
      (s.slabclass id).slabs ≤ n ∧
      ((growSlabList answers id s).1 = true → (s.slabclass id).slabs < n) := by
  have hbound := h.slabs_bound
  have hle := h.slabs_le
  have hsame : s = s.setClass id { s.slabclass id with listSize := (s.slabclass id).listSize } := by
    unfold SlabState.setClass
    rw [Function.update_eq_self]
  unfold growSlabList
  simp only
  split_ifs with hfull hok
  · have hlt : (s.slabclass id).slabs < (s.slabclass id).newListSize := by
      unfold SlabClass.newListSize
      split <;> omega
    exact ⟨_, rfl, hlt.le, fun _ => hlt⟩
  · exact ⟨_, hsame, hle, fun hfalse => by cases hfalse⟩
  · exact ⟨_, hsame, hle, fun _ => lt_of_le_of_ne hle hfull⟩

/-- Growing the list of slabs keeps the invariant. -/
lemma SlabRun.Inv.grown (h : r.Inv c) {n : ℕ} (hn : (r.state.slabclass id).slabs ≤ n) :
    SlabRun.Inv c
      ⟨r.state.setClass id { r.state.slabclass id with listSize := n }, r.live, r.dropped⟩ := by
  refine h.of_same (SlabState.sameSlabs_setClass h.classes ?_ rfl) rfl ?_
  · exact { h.classes id with slabs_le := hn }
  · exact SlabState.forall_setClass (P := fun i p => p.freeList ++ p.uncarved (c.table.size i) =
      r.state.spare c i) rfl fun _ _ => rfl

/-- A new slab for a class that has nothing left to carve. -/
lemma SlabRun.Inv.add_slab (h : r.Inv c) {ptr mm : ℕ} {m : AddressSpace userSpace}
    (hnull : (r.state.slabclass id).endPageFree = 0)
    (hroom : (r.state.slabclass id).slabs < (r.state.slabclass id).listSize)
    (hfree : r.state.memory.Free ⟨ptr, powerBlock⟩)
    (hregions : m.regions = ⟨ptr, powerBlock⟩ :: r.state.memory.regions)
    (hperslab : 0 < c.perslab id) :
    SlabRun.Inv c ⟨{ r.state with
        memMalloced := mm, heads := wipeSlab c ptr r.state.heads, memory := m }.setClass id
        { r.state.slabclass id with
          endPagePtr := ptr
          endPageFree := c.perslab id
          slabList :=
            Function.update (r.state.slabclass id).slabList (r.state.slabclass id).slabs ptr
          slabs := ((r.state.slabclass id).slabs + 1) % 2 ^ 32 }, r.live, r.dropped⟩ := by
  have hclass := h.classes id
  have hbound := hclass.slabs_bound
  have hmod : ((r.state.slabclass id).slabs + 1) % 2 ^ 32 = (r.state.slabclass id).slabs + 1 := by
    omega
  have hself : (⟨ptr, powerBlock⟩ : Region).Contains ptr := ⟨le_rfl, by simp [powerBlock]⟩
  have hmem : ∀ g ∈ r.state.memory.regions, g ∈ m.regions := by
    intro g hg
    rw [hregions]
    exact List.mem_cons_of_mem _ hg
  have hbases := (r.state.slabclass id).slabBases_append ptr
  have hclasses : ∀ i, i ≠ id → (r.state.slabclass i).Inv m := fun i _ =>
    (h.classes i).mono fun _ _ hb => hmem _ hb
  rw [hmod]
  refine h.new_slab id hfree hregions ?_ ?_ ?_ ?_ ?_
  · refine SlabState.forall_setClass (P := fun _ p => p.Inv m) ?_ hclasses
    refine ⟨?_, ?_, ?_, Nat.div_le_self _ _, hroom, hclass.slCurr_le, hclass.slTotal_eq⟩
    · unfold SlabClass.slabBases
      simp only [hbases, List.mem_append, List.mem_singleton]
      rintro b (hb | rfl)
      · exact hmem _ (hclass.slab_mem b hb)
      · rw [hregions]
        exact List.mem_cons_self
    · unfold SlabClass.slabBases
      simp only [hbases]
      refine List.Nodup.append hclass.slabs_nodup (List.nodup_singleton ptr) ?_
      rw [List.disjoint_singleton]
      exact fun hb => (hfree.2 _ (hclass.slab_mem ptr hb)).not_contains hself hself
    · exact iff_of_false hfree.1.1.ne' hperslab.ne'
  · simp only [SlabState.setClass, Function.update_self]
    exact hbases
  · exact fun i hi => Function.update_of_ne hi _ _
  · intro a ha
    refine if_neg fun hin => ha ?_
    exact hin.2
  · unfold SlabState.spare SlabClass.uncarved
    simp only [SlabState.setClass, Function.update_self, hnull]
    rw [show chunksFrom (c.table.size id) 0 (r.state.slabclass id).endPagePtr = [] from rfl,
      List.append_nil]
    exact List.Perm.refl _

/-- `do_slabs_newslab` keeps the invariant. -/
lemma SlabRun.Inv.newslab (h : r.Inv c) (answers : SlabAnswers)
    (hnull : (r.state.slabclass id).endPagePtr = 0) (hperslab : 0 < c.perslab id) :
    SlabRun.Inv c ⟨(doSlabsNewslab c answers id r.state).2, r.live, r.dropped⟩ := by
  obtain ⟨n, hstate, hle, hlt⟩ := growSlabList_spec (h.classes id) answers
  have hgrown := h.grown hle
  unfold doSlabsNewslab
  split_ifs with hlimit
  · exact h
  cases hg : growSlabList answers id r.state with
  | mk ok s₁ =>
    rw [hg] at hstate hlt
    simp only at hstate hlt
    subst hstate
    cases ok with
    | false => exact hgrown
    | true =>
      simp only [Bool.true_eq_false, if_false]
      split
      · exact hgrown
      · next ptr m hgrant =>
        obtain ⟨-, hfree, hregions⟩ := AddressSpace.grant_spec hgrant
        refine hgrown.add_slab ?_ ?_ hfree hregions hperslab
        · simp only [SlabState.setClass, Function.update_self]
          exact (h.classes id).endPage.1 hnull
        · simp only [SlabState.setClass, Function.update_self]
          exact hlt rfl

end Growing

/-! ## Allocating -/

section Allocating

variable {c : SlabConfig} {r : SlabRun} {id size : ℕ}

/-- The memory from a header on: a chunk of a class, or a region from `malloc`. -/
def Backed (c : SlabConfig) (s : SlabState) (a total : ℕ) : Prop :=
  (∃ id, 1 ≤ id ∧ id ≤ c.table.powerLargest ∧ a ∈ s.chunks c id ∧ total = c.table.size id) ∨
    ((⟨a, total⟩ : Region) ∈ s.memory.regions ∧ ∀ id, a ∉ (s.slabclass id).slabBases)

/-- An allocation has been successful with enough memory, or it has failed; in either case the
invariant holds afterwards. -/
def SlabRun.Granted (c : SlabConfig) (r : SlabRun) (size : ℕ) (result : Option ℕ × SlabState) :
    Prop :=
  (∀ ptr, result.1 = some ptr →
    ∃ a total, ptr = a + c.headSize ∧ Backed c result.2 a total ∧ size ≤ total) ∧
  (r.answered result).Inv c

/-- A spare chunk of a class is handed out. -/
lemma SlabRun.Inv.handed (h : r.Inv c) (hid : 1 ≤ id) (hle : id ≤ c.table.powerLargest)
    (hclass : c.table.slabClsid (size % 2 ^ 32) = id) (hsize : size ≤ c.table.size id)
    {p : SlabClass} {a : ℕ} (hbases : p.slabBases = (r.state.slabclass id).slabBases)
    (hinv : p.Inv r.state.memory)
    (hspare : r.state.spare c id ~ a :: (p.freeList ++ p.uncarved (c.table.size id))) :
    r.Granted c size (some (a + c.headSize),
      (r.state.setClass id p).setHead a (newHead c false size (r.state.heads a))) := by
  have hs : r.state.SameSlabs
      ((r.state.setClass id p).setHead a (newHead c false size (r.state.heads a))) :=
    (SlabState.sameSlabs_setClass h.classes hinv hbases).withHeads _
  have hmem : a ∈ r.state.chunks c id :=
    h.mem_chunks_of_mem_spare (hspare.symm.subset List.mem_cons_self)
  refine ⟨?_, h.hand_out hid hle hclass hs rfl ?_ ?_⟩
  · rintro _ ⟨⟩
    exact ⟨a, _, rfl, Or.inl ⟨id, hid, hle, (hs.chunks id).symm ▸ hmem, rfl⟩, hsize⟩
  · simpa only [SlabState.spare, SlabState.setHead, SlabState.setClass, Function.update_self]
      using hspare
  · intro i hi
    simp only [SlabState.spare, SlabState.setHead, SlabState.setClass, Function.update_of_ne hi]

/-- The last chunk of the free list is handed out. -/
lemma SlabRun.Inv.from_slots (h : r.Inv c) (hid : 1 ≤ id) (hle : id ≤ c.table.powerLargest)
    (hclass : c.table.slabClsid (size % 2 ^ 32) = id) (hsize : size ≤ c.table.size id)
    (hcurr : (r.state.slabclass id).slCurr ≠ 0) :
    r.Granted c size (allocFromSlots c id size r.state) := by
  obtain ⟨n, hn⟩ := Nat.exists_eq_succ_of_ne_zero hcurr
  have hinv := h.classes id
  have hlist : (r.state.slabclass id).freeList =
      (List.range n).map (r.state.slabclass id).slots ++ [(r.state.slabclass id).slots n] := by
    unfold SlabClass.freeList
    rw [hn, List.range_succ, List.map_append, List.map_singleton]
  unfold allocFromSlots
  simp only [show (r.state.slabclass id).slCurr - 1 = n by omega]
  refine h.handed hid hle hclass hsize rfl ?_ ?_
  · exact { hinv with slCurr_le := by have := hinv.slCurr_le; simp only; omega }
  · unfold SlabState.spare
    rw [hlist, List.append_assoc]
    exact List.perm_middle

/-- The next chunk of the last slab is handed out. -/
lemma SlabRun.Inv.from_page (h : r.Inv c) (hid : 1 ≤ id) (hle : id ≤ c.table.powerLargest)
    (hclass : c.table.slabClsid (size % 2 ^ 32) = id) (hsize : size ≤ c.table.size id)
    (hptr : (r.state.slabclass id).endPagePtr ≠ 0) :
    r.Granted c size (allocFromPage c id size r.state) := by
  have hinv := h.classes id
  have hle' := hinv.endPageFree_le
  obtain ⟨n, hn⟩ := Nat.exists_eq_succ_of_ne_zero fun hzero => hptr (hinv.endPage.2 hzero)
  have hleft : ((r.state.slabclass id).endPageFree + (2 ^ 32 - 1)) % 2 ^ 32 = n := by
    unfold powerBlock at hle'
    omega
  have huncarved : (r.state.slabclass id).uncarved (c.table.size id) =
      (r.state.slabclass id).endPagePtr ::
        chunksFrom (c.table.size id) n ((r.state.slabclass id).endPagePtr + c.table.size id) := by
    unfold SlabClass.uncarved
    rw [hn, chunksFrom_succ]
  unfold allocFromPage
  simp only [hleft]
  refine h.handed hid hle hclass hsize rfl ?_ ?_
  · refine { hinv with endPage := ?_, endPageFree_le := by simp only; omega }
    simp only
    split_ifs with hn'
    · exact iff_of_false (by omega) hn'
    · exact iff_of_true rfl (not_not.1 hn')
  · unfold SlabState.spare
    rw [huncarved]
    refine List.perm_middle.trans (List.Perm.cons _ (List.Perm.append_left _ ?_))
    unfold SlabClass.uncarved
    split_ifs with hn'
    · exact List.Perm.refl _
    · simp only [not_not.1 hn']
      exact List.Perm.refl _

/-- The allocation has failed. -/
lemma SlabRun.Inv.failed {s : SlabState} (h : SlabRun.Inv c ⟨s, r.live, r.dropped⟩) :
    r.Granted c size (none, s) :=
  ⟨fun _ hptr => absurd hptr (Option.some_ne_none _).symm, h⟩

/-- The part of `_slab_alloc` for a size in a class. -/
lemma SlabRun.Inv.from_class (h : r.Inv c) (answers : SlabAnswers) (hid : 1 ≤ id)
    (hle : id ≤ c.table.powerLargest) (hclass : c.table.slabClsid (size % 2 ^ 32) = id)
    (hsize : size ≤ c.table.size id) :
    r.Granted c size (allocFromClass c answers id size r.state) := by
  -- the state in which a chunk is looked for
  have hroom : SlabRun.Inv c ⟨(findRoom c answers id r.state).2, r.live, r.dropped⟩ := by
    unfold findRoom
    split_ifs with hcond
    · exact h
    · exact h.newslab answers (by_contra fun hne => hcond (Or.inl hne)) (c.perslab_pos hid hle)
  unfold allocFromClass
  cases hfind : findRoom c answers id r.state with
  | mk room s =>
    rw [hfind] at hroom
    simp only
    split_ifs with hfalse hcurr hptr
    · exact hroom.failed
    · exact hroom.from_slots hid hle hclass hsize hcurr
    · exact hroom.from_page hid hle hclass hsize hptr
    · exact hroom.failed

/-- The part of `_slab_alloc` for a size beyond the classes. -/
lemma SlabRun.Inv.by_malloc (h : r.Inv c) (answers : SlabAnswers) (hsize : 0 < size) :
    r.Granted c size (allocByMalloc c answers size r.state) := by
  unfold allocByMalloc
  split
  · exact h.failed
  · next a m hgrant =>
    obtain ⟨-, hfree, hregions⟩ := AddressSpace.grant_spec hgrant
    refine ⟨?_, h.malloced hsize hfree hregions⟩
    rintro _ ⟨⟩
    refine ⟨a, size, rfl, Or.inr ⟨?_, h.not_mem_slabBases hsize hfree⟩, le_rfl⟩
    change (⟨a, size⟩ : Region) ∈ m.regions
    rw [hregions]
    exact List.mem_cons_self

/-- `_slab_alloc` returns memory for the header and the size, if the sum does not wrap around, and
keeps the invariant. -/
lemma SlabRun.Inv.slabAlloc (h : r.Inv c) (answers : SlabAnswers) (size : ℕ) :
    r.Granted c ((size + c.headSize) % 2 ^ 64) (slabAlloc c answers size r.state) := by
  unfold Slab.slabAlloc
  simp only
  generalize (size + c.headSize) % 2 ^ 64 = total
  rcases Nat.eq_zero_or_pos total with rfl | hpos
  · rw [ClassTable.slabClsid_zero, if_pos (by decide)]
    exact h.failed
  have hclass := c.table.slabClsid_isClass hpos
  split_ifs with hsmall hlarge
  · exact h.failed
  · exact h.by_malloc answers hpos
  · unfold powerSmallest at hsmall
    have hle := hclass.size_le (by omega)
    have hblock : c.table.size (c.table.slabClsid total) ≤ powerBlock :=
      c.size_le_powerBlock (by omega) (by omega)
    have hmod : total % 2 ^ 32 = total := by
      unfold powerBlock at hblock
      omega
    exact h.from_class answers (by omega) (by omega) (by rw [hmod]) hle

end Allocating

/-! ## Freeing -/

section Freeing

variable {c : SlabConfig} {r : SlabRun} {id a : ℕ}

/-- When the free list grows it doubles.  Beyond the range of an `int` the request is larger than
the address space. -/
lemma SlabClass.Inv.newSlots_spec {p : SlabClass} {m : AddressSpace userSpace} (h : p.Inv m)
    {answer : Bool}
    (hok : reallocates answer (toSizeT p.newSlots * 8 % 2 ^ 64) = true) :
    p.slTotal < (p.newSlots % 2 ^ 32).toNat ∧ ∃ k ≤ 30, (p.newSlots % 2 ^ 32).toNat = 2 ^ k := by
  rcases h.slTotal_eq with hzero | ⟨k, hk, htotal⟩
  · have hnew : p.newSlots = 1024 := by
      unfold SlabClass.newSlots
      rw [hzero]
      rfl
    rw [hnew, hzero]
    exact ⟨by decide, 10, by decide, rfl⟩
  · have hpos : p.slTotal ≠ 0 := by
      rw [htotal]
      positivity
    have hnew : p.newSlots = toInt32 (p.slTotal * 2 % 2 ^ 32) := by
      unfold SlabClass.newSlots
      rw [if_pos hpos]
    rcases hk.eq_or_lt with rfl | hlt
    · rw [hnew, htotal] at hok
      have hfalse :
          reallocates answer (toSizeT (toInt32 (2 ^ 30 * 2 % 2 ^ 32)) * 8 % 2 ^ 64) = false := by
        unfold reallocates
        rw [Bool.and_eq_false_iff]
        exact Or.inr (by decide)
      rw [hfalse] at hok
      cases hok
    · have hpow : 2 ^ (k + 1) ≤ 2 ^ 30 := Nat.pow_le_pow_right (by decide) hlt
      have hdouble : p.slTotal * 2 = 2 ^ (k + 1) := by rw [htotal, pow_succ]
      have hval : p.newSlots = ((2 ^ (k + 1) : ℕ) : Int) := by
        rw [hnew, hdouble, Nat.mod_eq_of_lt (by omega), toInt32_of_lt (by omega)]
      have hnat : (p.newSlots % 2 ^ 32).toNat = 2 ^ (k + 1) := by
        rw [hval]
        omega
      exact ⟨by omega, k + 1, hlt, hnat⟩

/-- A chunk goes to the free list of its class. -/
lemma SlabRun.Inv.pushed (h : r.Inv c) {total : ℕ} (hptr : a + c.headSize ∈ r.live)
    (hchunk : a ∈ r.state.chunks c id) (hroom : (r.state.slabclass id).slCurr < total)
    (htotal : ∃ k ≤ 30, total = 2 ^ k) :
    SlabRun.Inv c ⟨pushSlot c id a total r.state, r.live.erase (a + c.headSize), r.dropped⟩ := by
  have hinv := h.classes id
  have hbound : total ≤ 2 ^ 30 := by
    obtain ⟨k, hk, rfl⟩ := htotal
    exact Nat.pow_le_pow_right (by decide) hk
  have hmod : ((r.state.slabclass id).slCurr + 1) % 2 ^ 32 = (r.state.slabclass id).slCurr + 1 := by
    omega
  have hlist := (r.state.slabclass id).freeList_append a
  have hstate : ∃ heads, (∀ b, b ≠ a → heads b = r.state.heads b) ∧
      pushSlot c id a total r.state = { r.state with heads := heads }.setClass id
        { r.state.slabclass id with
          slots := Function.update (r.state.slabclass id).slots (r.state.slabclass id).slCurr a
          slCurr := (r.state.slabclass id).slCurr + 1
          slTotal := total } := by
    unfold pushSlot
    simp only [hmod]
    split
    · exact ⟨Function.update r.state.heads a SlabHead.wiped,
        fun b hb => Function.update_of_ne hb _ _, rfl⟩
    · exact ⟨r.state.heads, fun _ _ => rfl, rfl⟩
  obtain ⟨heads, hheads, hpush⟩ := hstate
  rw [hpush]
  have hclass : SlabClass.Inv { r.state.slabclass id with
      slots := Function.update (r.state.slabclass id).slots (r.state.slabclass id).slCurr a
      slCurr := (r.state.slabclass id).slCurr + 1
      slTotal := total } r.state.memory :=
    { hinv with slCurr_le := hroom, slTotal_eq := Or.inr htotal }
  have hs := (SlabState.sameSlabs_setClass h.classes hclass rfl).withHeads heads
  refine h.taken_back hptr hchunk hs hheads (fun b hb => Or.inr hb) ?_ ?_
  · unfold SlabState.spare SlabClass.freeList
    simp only [SlabState.setClass, Function.update_self]
    rw [hlist]
    simp only [List.append_assoc]
    exact List.perm_middle
  · intro i hi
    simp only [SlabState.spare, SlabState.setClass, Function.update_of_ne hi]
    rfl

/-- `_slab_free` of memory from `malloc`. -/
lemma slabFree_of_malloc {s : SlabState} (realloc : Bool) (hhead : s.LiveHead c a)
    (hmalloc : (s.heads a).isMalloc = true) :
    slabFree c realloc (a + c.headSize) s =
      (.released, { s with memory := s.memory.release a }) := by
  unfold slabFree
  have hpos := hhead.pos
  rw [if_neg (by omega)]
  simp only [Nat.add_sub_cancel]
  rw [if_neg, if_pos hmalloc]
  rintro ⟨hdebug, hmagic⟩
  exact hmagic (hhead.magic hdebug)

/-- `_slab_free` of a chunk: the header leads to the class it was carved from. -/
lemma slabFree_of_chunk {s : SlabState} (realloc : Bool) (hhead : s.LiveHead c a)
    (hchunk : (s.heads a).isMalloc = false) (hid : 1 ≤ id) (hle : id ≤ c.table.powerLargest)
    (hclass : c.table.slabClsid (s.heads a).size = id) :
    slabFree c realloc (a + c.headSize) s =
      if (s.slabclass id).slCurr = (s.slabclass id).slTotal then
        if reallocates realloc (toSizeT (s.slabclass id).newSlots * 8 % 2 ^ 64) then
          (.listed, pushSlot c id a ((s.slabclass id).newSlots % 2 ^ 32).toNat s)
        else
          (.dropped, s)
      else
        (.listed, pushSlot c id a (s.slabclass id).slTotal s) := by
  have hpos := hhead.pos
  have hbyte : id % 256 = id := by
    have hlargest := c.powerLargest_le
    unfold powerLargestIndex at hlargest
    omega
  unfold slabFree
  rw [if_neg (by omega)]
  simp only [Nat.add_sub_cancel, hclass, hbyte]
  rw [if_neg, if_neg (by rw [hchunk]; exact Bool.false_ne_true),
    if_neg (by unfold powerSmallest; omega)]
  rintro ⟨hdebug, hmagic⟩
  exact hmagic (hhead.magic hdebug)

/-- What becomes of a live chunk when it is freed: it goes to the end of the free list of the class
it was carved from, or this list is full and cannot grow. -/
def Returned (s : SlabState) (id a : ℕ) (realloc : Bool)
    (result : FreeOutcome × SlabState) : Prop :=
  (result.1 = .listed ∧ (result.2.slabclass id).freeList = (s.slabclass id).freeList ++ [a]) ∨
    (result = (.dropped, s) ∧ (s.slabclass id).slCurr = (s.slabclass id).slTotal ∧
      reallocates realloc (toSizeT (s.slabclass id).newSlots * 8 % 2 ^ 64) = false)

lemma freeList_pushSlot {s : SlabState} {total : ℕ} (h : (s.slabclass id).slCurr < 2 ^ 30) :
    ((pushSlot c id a total s).slabclass id).freeList = (s.slabclass id).freeList ++ [a] := by
  have hmod : ((s.slabclass id).slCurr + 1) % 2 ^ 32 = (s.slabclass id).slCurr + 1 := by omega
  rw [← SlabClass.freeList_append]
  unfold pushSlot SlabClass.freeList
  split <;> simp only [SlabState.setHead, SlabState.setClass, Function.update_self, hmod]

/-- A live chunk is freed. -/
lemma SlabRun.Inv.chunk_freed (h : r.Inv c) (hptr : a + c.headSize ∈ r.live)
    (hchunk : a ∈ r.state.chunks c id) (realloc : Bool) :
    (r.free c (a + c.headSize) realloc).Inv c ∧
      Returned r.state id a realloc (slabFree c realloc (a + c.headSize) r.state) := by
  obtain ⟨a', ha', hhead⟩ := h.live_head _ hptr
  obtain rfl : a = a' := Nat.add_right_cancel ha'
  have hkind : (r.state.heads a).isMalloc = false := by
    by_contra hne
    exact h.not_mem_chunks_of_malloc (Bool.of_not_eq_false hne) hhead id hchunk
  obtain ⟨id', hid, hle, hmem, hclass⟩ := hhead.chunk hkind
  obtain rfl := h.chunk_class hmem hchunk
  have hinv := h.classes id'
  have htotal : (r.state.slabclass id').slTotal ≤ 2 ^ 30 := by
    rcases hinv.slTotal_eq with hzero | ⟨k, hk, heq⟩
    · omega
    · rw [heq]
      exact Nat.pow_le_pow_right (by decide) hk
  have hcurr := hinv.slCurr_le
  unfold SlabRun.free
  rw [slabFree_of_chunk realloc hhead hkind hid hle hclass]
  split_ifs with hfull hok
  · obtain ⟨hlt, k, hk, heq⟩ := hinv.newSlots_spec hok
    have hlt' : (r.state.slabclass id').slTotal < 2 ^ 30 :=
      hlt.trans_le (heq ▸ Nat.pow_le_pow_right (by decide) hk)
    exact ⟨h.pushed hptr hchunk (by omega) ⟨k, hk, heq⟩,
      Or.inl ⟨rfl, freeList_pushSlot (by omega)⟩⟩
  · refine ⟨?_, Or.inr ⟨rfl, hfull, Bool.eq_false_of_not_eq_true hok⟩⟩
    refine h.taken_back hptr hchunk ⟨fun _ => rfl, h.classes, rfl⟩ (fun _ _ => rfl) ?_ ?_ ?_
    · intro b hb
      rw [Nat.add_sub_cancel] at hb
      exact List.mem_cons.1 hb
    · rw [Nat.add_sub_cancel, List.filter_cons_of_pos (by simpa using hchunk)]
      exact List.perm_middle
    · intro i hi
      have hnot : a ∉ r.state.chunks c i := fun hmem' => hi (h.chunk_class hmem' hchunk)
      rw [Nat.add_sub_cancel, List.filter_cons_of_neg (by simpa using hnot)]
      rfl
  · have hlt := lt_of_le_of_ne hcurr hfull
    refine ⟨h.pushed hptr hchunk hlt ?_, Or.inl ⟨rfl, freeList_pushSlot (by omega)⟩⟩
    exact hinv.slTotal_eq.resolve_left (by omega)

/-- `_slab_free` of a live pointer keeps the invariant. -/
lemma SlabRun.Inv.free (h : r.Inv c) {ptr : ℕ} (hptr : ptr ∈ r.live) (realloc : Bool) :
    (r.free c ptr realloc).Inv c := by
  obtain ⟨a, rfl, hhead⟩ := h.live_head ptr hptr
  cases hkind : (r.state.heads a).isMalloc with
  | false =>
    obtain ⟨id, -, -, hchunk, -⟩ := hhead.chunk hkind
    exact (h.chunk_freed hptr hchunk realloc).1
  | true =>
    unfold SlabRun.free
    rw [slabFree_of_malloc realloc hhead hkind]
    exact h.released hptr hkind hhead

end Freeing

/-! ## Every sequence of calls -/

namespace SlabRun

variable {c : SlabConfig} {r : SlabRun}

/-- Nothing has been allocated. -/
lemma Inv.init (c : SlabConfig) (heads : ℕ → SlabHead) : (SlabRun.init heads).Inv c where
  classes _ :=
    { slab_mem := fun _ h => absurd h List.not_mem_nil
      slabs_nodup := List.nodup_nil
      endPage := Iff.rfl
      endPageFree_le := Nat.zero_le _
      slabs_le := le_rfl
      slCurr_le := le_rfl
      slTotal_eq := Or.inl rfl }
  slab_class _ _ _ h := absurd h List.not_mem_nil
  live_head _ h := absurd h List.not_mem_nil
  live_nodup := List.nodup_nil
  dropped_mem _ h := absurd h List.not_mem_nil
  account _ := List.Perm.refl []

/-- One call keeps the invariant. -/
lemma Inv.call (h : r.Inv c) (x : SlabCall) : (r.call c x).Inv c := by
  cases x with
  | alloc size answers => exact (h.slabAlloc answers size).2
  | free ptr realloc =>
    simp only [SlabRun.call]
    split_ifs with hptr
    · exact h.free hptr realloc
    · exact h

/-- Every sequence of calls keeps the invariant. -/
lemma Inv.calls (h : r.Inv c) (l : List SlabCall) : (r.calls c l).Inv c := by
  induction l generalizing r with
  | nil => exact h
  | cons x l ih => exact ih (h.call x)

/-- The chunks of a class are divided into the live ones, those on the free list, those not yet
carved and those that were dropped. -/
structure Partitioned (c : SlabConfig) (r : SlabRun) (id : ℕ) : Prop where
  /-- No chunk of the slabs is counted twice, -/
  chunks_nodup : (r.state.chunks c id).Nodup
  /-- and each of them is at one of the four places. -/
  places : r.liveOf c id ++ (r.state.slabclass id).freeList ++
    (r.state.slabclass id).uncarved (c.table.size id) ++ r.droppedOf c id ~ r.state.chunks c id
  /-- `end_page_ptr` is null if nothing is left to carve. -/
  endPage : (r.state.slabclass id).endPagePtr = 0 ↔
    (r.state.slabclass id).uncarved (c.table.size id) = []
  /-- The four counts. -/
  count : (r.state.slabclass id).slabs * c.perslab id =
    (r.liveOf c id).length + (r.state.slabclass id).slCurr + (r.state.slabclass id).endPageFree +
      (r.droppedOf c id).length

lemma Inv.partitioned (h : r.Inv c) (id : ℕ) : r.Partitioned c id := by
  have hacc := h.account id
  unfold SlabState.spare at hacc
  rw [← List.append_assoc, ← List.append_assoc] at hacc
  refine ⟨h.chunks_nodup id, hacc, ?_, ?_⟩
  · rw [(h.classes id).endPage, ← List.length_eq_zero_iff, SlabClass.uncarved, length_chunksFrom]
  · have hlen := hacc.length_eq
    have htotal : (r.state.chunks c id).length = (r.state.slabclass id).slabs * c.perslab id := by
      unfold SlabState.chunks SlabClass.slabBases
      simp [List.length_flatMap, Function.comp_def]
    rw [htotal] at hlen
    simp only [List.length_append] at hlen
    rw [SlabClass.uncarved, length_chunksFrom, SlabClass.freeList, List.length_map,
      List.length_range] at hlen
    exact hlen.symm

end SlabRun

/-- Slab chunks are partitioned.  After every sequence of allocations and of frees of live pointers,
whatever the system answers, each chunk of each slab of a class is live, on the free list, not yet
carved or dropped, and it is so once.  The memory that `_slab_alloc` then returns is not live, a
live pointer leads to a chunk of one class or to memory from `malloc`, and a chunk that is freed
goes to the free list of the class it was carved from, unless this list is full and cannot grow. -/
theorem slab_chunks_partitioned (c : SlabConfig) (heads : ℕ → SlabHead) (l : List SlabCall) :
    let r := (SlabRun.init heads).calls c l
    (∀ id, r.Partitioned c id) ∧
    (∀ id id' a, a ∈ r.state.chunks c id → a ∈ r.state.chunks c id' → id = id') ∧
    (∀ size answers ptr, (slabAlloc c answers size r.state).1 = some ptr → ptr ∉ r.live) ∧
    (∀ ptr ∈ r.live, (r.state.heads (ptr - c.headSize)).isMalloc = true ∨
      ∃ id, ptr - c.headSize ∈ r.state.chunks c id) ∧
    (∀ ptr ∈ r.live, ∀ id, ptr - c.headSize ∈ r.state.chunks c id → ∀ realloc,
      Returned r.state id (ptr - c.headSize) realloc (slabFree c realloc ptr r.state)) := by
  intro r
  have h : r.Inv c := (SlabRun.Inv.init c heads).calls l
  refine ⟨h.partitioned, fun _ _ _ => h.chunk_class, ?_, ?_, ?_⟩
  · intro size answers ptr hptr
    have hinv := (h.slabAlloc answers size).2
    cases hres : slabAlloc c answers size r.state with
    | mk res s =>
      rw [hres] at hptr hinv
      obtain rfl : res = some ptr := hptr
      exact (List.nodup_cons.1 hinv.live_nodup).1
  · intro ptr hptr
    obtain ⟨a, rfl, hhead⟩ := h.live_head ptr hptr
    rw [Nat.add_sub_cancel]
    cases hkind : (r.state.heads a).isMalloc with
    | true => exact Or.inl rfl
    | false =>
      obtain ⟨id, -, -, hchunk, -⟩ := hhead.chunk hkind
      exact Or.inr ⟨id, hchunk⟩
  · intro ptr hptr id hchunk realloc
    obtain ⟨a, rfl, hhead⟩ := h.live_head ptr hptr
    rw [Nat.add_sub_cancel] at hchunk ⊢
    exact (h.chunk_freed hptr hchunk realloc).2

end Linglongta.Slab
