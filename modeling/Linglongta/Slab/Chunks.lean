import Linglongta.Slab.Allocator

/-!
# Where the chunks of a class are

Every slab is cut into chunks, and a chunk is handed out, freed and handed out again.  The class of
a chunk is not stored: `_slab_free` computes it from the size that was last written to the header.

A `SlabRun` follows the allocator through a sequence of calls.  Beside the state it knows which
pointers are live and which chunks have been dropped because a free list could not grow.
`SlabRun.Inv` is the invariant: in every class the live chunks, the free list, the part of the last
slab that is not yet carved and the dropped chunks are together the chunks of the slabs, each once,
and the header of a live chunk leads back to the class it was carved from.
-/

namespace Linglongta.Slab

open scoped List

/-! ## The chunks of a slab -/

/-- Chunks of one size from an address on. -/
def chunksFrom (size n ptr : ℕ) : List ℕ :=
  (List.range n).map fun k => ptr + k * size

lemma mem_chunksFrom {size n ptr a : ℕ} :
    a ∈ chunksFrom size n ptr ↔ ∃ k < n, ptr + k * size = a := by
  simp [chunksFrom]

@[simp] lemma length_chunksFrom (size n ptr : ℕ) : (chunksFrom size n ptr).length = n := by
  simp [chunksFrom]

lemma chunksFrom_succ (size n ptr : ℕ) :
    chunksFrom size (n + 1) ptr = ptr :: chunksFrom size n (ptr + size) := by
  unfold chunksFrom
  rw [List.range_succ_eq_map, List.map_cons, List.map_map]
  congr 1
  · ring
  · refine List.map_congr_left fun k _ => ?_
    simp only [Function.comp_apply, Nat.succ_eq_add_one]
    ring

lemma nodup_chunksFrom {size : ℕ} (hsize : 0 < size) (n ptr : ℕ) :
    (chunksFrom size n ptr).Nodup := by
  refine List.nodup_range.map fun k k' h => ?_
  exact Nat.eq_of_mul_eq_mul_right hsize (Nat.add_left_cancel h)

namespace SlabClass

/-- The slabs of the class. -/
def slabBases (p : SlabClass) : List ℕ := (List.range p.slabs).map p.slabList

/-- `slots[0..sl_curr)`. -/
def freeList (p : SlabClass) : List ℕ := (List.range p.slCurr).map p.slots

/-- The `end_page_free` chunks from `end_page_ptr` on. -/
def uncarved (p : SlabClass) (size : ℕ) : List ℕ := chunksFrom size p.endPageFree p.endPagePtr

/-- A slab is added. -/
lemma slabBases_append (p : SlabClass) (ptr : ℕ) :
    (List.range (p.slabs + 1)).map (Function.update p.slabList p.slabs ptr) =
      p.slabBases ++ [ptr] := by
  rw [List.range_succ, List.map_append, List.map_singleton, Function.update_self]
  congr 1
  refine List.map_congr_left fun i hi => Function.update_of_ne ?_ _ _
  exact (List.mem_range.1 hi).ne

/-- A chunk is pushed on the free list. -/
lemma freeList_append (p : SlabClass) (a : ℕ) :
    (List.range (p.slCurr + 1)).map (Function.update p.slots p.slCurr a) = p.freeList ++ [a] := by
  rw [List.range_succ, List.map_append, List.map_singleton, Function.update_self]
  congr 1
  refine List.map_congr_left fun i hi => Function.update_of_ne ?_ _ _
  exact (List.mem_range.1 hi).ne

/-- What holds of the counters and of the slabs of a class, in the memory that the system has
granted. -/
structure Inv (p : SlabClass) (m : AddressSpace userSpace) : Prop where
  /-- The system has granted each of the slabs, -/
  slab_mem : ∀ b ∈ p.slabBases, (⟨b, powerBlock⟩ : Region) ∈ m.regions
  /-- and no slab is listed twice. -/
  slabs_nodup : p.slabBases.Nodup
  /-- The pointer into the last slab is null if nothing is left there. -/
  endPage : p.endPagePtr = 0 ↔ p.endPageFree = 0
  /-- No more is left there than a slab has. -/
  endPageFree_le : p.endPageFree ≤ powerBlock
  /-- The list of the slabs has room for them. -/
  slabs_le : p.slabs ≤ p.listSize
  /-- The free list has room for its chunks. -/
  slCurr_le : p.slCurr ≤ p.slTotal
  /-- The free list doubles when it grows, as long as an `int` holds its size. -/
  slTotal_eq : p.slTotal = 0 ∨ ∃ k ≤ 30, p.slTotal = 2 ^ k

/-- A class stays in order while its slabs are held. -/
lemma Inv.mono {p : SlabClass} {m m' : AddressSpace userSpace} (h : p.Inv m)
    (hmem : ∀ b ∈ p.slabBases, (⟨b, powerBlock⟩ : Region) ∈ m.regions →
      (⟨b, powerBlock⟩ : Region) ∈ m'.regions) : p.Inv m' :=
  { h with slab_mem := fun b hb => hmem b hb (h.slab_mem b hb) }

/-- The address space bounds the slabs of a class. -/
lemma Inv.slabs_bound {p : SlabClass} {m : AddressSpace userSpace} (h : p.Inv m) :
    p.slabs ≤ 2 ^ 25 := by
  have hcount := m.length_mul_le h.slabs_nodup h.slab_mem
  unfold slabBases at hcount
  rw [List.length_map, List.length_range] at hcount
  unfold userSpace powerBlock at hcount
  omega

end SlabClass

namespace SlabState

variable (c : SlabConfig) (s : SlabState)

/-- The chunks of the slabs of a class. -/
def chunks (id : ℕ) : List ℕ :=
  (s.slabclass id).slabBases.flatMap (chunksFrom (c.table.size id) (c.perslab id))

/-- The chunks of a class that may be handed out: its free list and the part of its last slab that
is not yet carved. -/
def spare (id : ℕ) : List ℕ :=
  (s.slabclass id).freeList ++ (s.slabclass id).uncarved (c.table.size id)

/-- What holds of the header in front of a live payload. -/
structure LiveHead (a : ℕ) : Prop where
  /-- It is not the null address. -/
  pos : 0 < a
  /-- The assertion of `_slab_free` holds. -/
  magic : c.needDebug = true → (s.heads a).magicHead = 0xfeedbeef
  /-- A chunk of a class is marked as such, and its size leads back to the class. -/
  chunk : (s.heads a).isMalloc = false →
    ∃ id, 1 ≤ id ∧ id ≤ c.table.powerLargest ∧ a ∈ s.chunks c id ∧
      c.table.slabClsid (s.heads a).size = id
  /-- Else it stands at the beginning of a region that is not a slab. -/
  malloc : (s.heads a).isMalloc = true →
    ∃ len, 0 < len ∧ (⟨a, len⟩ : Region) ∈ s.memory.regions ∧
      ∀ id, a ∉ (s.slabclass id).slabBases

variable {c s}

/-- The chunks depend on the slabs only. -/
lemma chunks_congr {s' : SlabState} {id : ℕ}
    (h : (s'.slabclass id).slabBases = (s.slabclass id).slabBases) :
    s'.chunks c id = s.chunks c id := by
  unfold chunks
  rw [h]

/-- A live header that is not touched stays in order, while no slab is placed over it and its memory
is held. -/
lemma LiveHead.of_eq {s' : SlabState} {a : ℕ} (h : s.LiveHead c a) (hhead : s'.heads a = s.heads a)
    (hchunks : ∀ id, a ∈ s.chunks c id → a ∈ s'.chunks c id)
    (hmalloc : (s.heads a).isMalloc = true → ∀ len, (⟨a, len⟩ : Region) ∈ s.memory.regions →
      (⟨a, len⟩ : Region) ∈ s'.memory.regions)
    (hbases : ∀ len, 0 < len → (⟨a, len⟩ : Region) ∈ s.memory.regions →
      ∀ id, a ∈ (s'.slabclass id).slabBases → a ∈ (s.slabclass id).slabBases) :
    s'.LiveHead c a where
  pos := h.pos
  magic := by
    rw [hhead]
    exact h.magic
  chunk := by
    rw [hhead]
    intro hchunk
    obtain ⟨id, hid, hle, ha, hsize⟩ := h.chunk hchunk
    exact ⟨id, hid, hle, hchunks id ha, hsize⟩
  malloc := by
    rw [hhead]
    intro hmal
    obtain ⟨len, hlen, hreg, hnot⟩ := h.malloc hmal
    exact ⟨len, hlen, hmalloc hmal len hreg, fun id ha => hnot id (hbases len hlen hreg id ha)⟩

/-- The state `s'` has the slabs and the memory of `s`, and its classes are in order. -/
structure SameSlabs (s s' : SlabState) : Prop where
  /-- The slabs of each class. -/
  bases : ∀ id, (s'.slabclass id).slabBases = (s.slabclass id).slabBases
  /-- The counters of each class. -/
  classes : ∀ id, (s'.slabclass id).Inv s'.memory
  /-- The memory. -/
  memory : s'.memory = s.memory

lemma SameSlabs.chunks {s' : SlabState} (hs : s.SameSlabs s') (id : ℕ) :
    s'.chunks c id = s.chunks c id :=
  chunks_congr (hs.bases id)

/-- A live header that is not touched stays in order. -/
lemma SameSlabs.liveHead {s' : SlabState} {a : ℕ} (hs : s.SameSlabs s') (h : s.LiveHead c a)
    (hhead : s'.heads a = s.heads a) : s'.LiveHead c a := by
  refine h.of_eq hhead ?_ ?_ ?_
  · exact fun i hi => (hs.chunks i).symm ▸ hi
  · exact fun _ len hlen => hs.memory.symm ▸ hlen
  · intro len _ _ i hi
    rwa [hs.bases] at hi

/-- The headers do not matter. -/
lemma SameSlabs.withHeads {s' : SlabState} (hs : s.SameSlabs s') (heads : ℕ → SlabHead) :
    s.SameSlabs { s' with heads := heads } :=
  ⟨hs.bases, hs.classes, hs.memory⟩

/-- One class is replaced by one with the same slabs. -/
lemma sameSlabs_setClass {id : ℕ} {p : SlabClass}
    (hclasses : ∀ i, (s.slabclass i).Inv s.memory) (hinv : p.Inv s.memory)
    (hbases : p.slabBases = (s.slabclass id).slabBases) :
    s.SameSlabs (s.setClass id p) where
  bases := forall_setClass (P := fun i q => q.slabBases = (s.slabclass i).slabBases) hbases
    fun _ _ => rfl
  classes := forall_setClass (P := fun _ q => q.Inv s.memory) hinv fun i _ => hclasses i
  memory := rfl

lemma mem_chunks {id a : ℕ} :
    a ∈ s.chunks c id ↔ ∃ b ∈ (s.slabclass id).slabBases,
      a ∈ chunksFrom (c.table.size id) (c.perslab id) b := by
  simp [chunks]

end SlabState

/-- A chunk of a slab lies in the slab, and with it its whole size. -/
lemma contains_of_mem_chunksFrom {c : SlabConfig} {id a b : ℕ}
    (h : a ∈ chunksFrom (c.table.size id) (c.perslab id) b) :
    b ≤ a ∧ 0 < c.table.size id ∧ a + c.table.size id ≤ b + powerBlock := by
  obtain ⟨k, hk, rfl⟩ := mem_chunksFrom.1 h
  have hpos : 0 < c.table.size id := by
    rcases Nat.eq_zero_or_pos (c.table.size id) with hzero | hpos
    · rw [SlabConfig.perslab, hzero, Nat.div_zero] at hk
      exact absurd hk (Nat.not_lt_zero k)
    · exact hpos
  have hmul : (k + 1) * c.table.size id ≤ powerBlock :=
    (Nat.mul_le_mul_right _ hk).trans (Nat.div_mul_le_self _ _)
  rw [Nat.succ_mul] at hmul
  exact ⟨by omega, hpos, by omega⟩

/-! ## Runs -/

/-- The allocator with what its callers know: the live pointers, and the chunks that were freed when
the free list of their class could not grow. -/
structure SlabRun where
  /-- The state of the allocator. -/
  state : SlabState
  /-- The payload pointers that have been returned and not been freed. -/
  live : List ℕ
  /-- The chunks that are lost. -/
  dropped : List ℕ

/-- A call of the allocator, with what the system answers. -/
inductive SlabCall
  /-- `_slab_alloc`. -/
  | alloc (size : ℕ) (answers : SlabAnswers)
  /-- `_slab_free`. -/
  | free (ptr : ℕ) (realloc : Bool)

namespace SlabRun

/-- The run at its beginning. -/
def init (heads : ℕ → SlabHead) : SlabRun := ⟨SlabState.init heads, [], []⟩

/-- The run after an allocation with some result. -/
def answered (r : SlabRun) : Option ℕ × SlabState → SlabRun
  | (some ptr, s) => ⟨s, ptr :: r.live, r.dropped⟩
  | (none, s) => ⟨s, r.live, r.dropped⟩

/-- `_slab_alloc` in a run. -/
def alloc (c : SlabConfig) (r : SlabRun) (size : ℕ) (answers : SlabAnswers) : SlabRun :=
  r.answered (slabAlloc c answers size r.state)

/-- `_slab_free` of a live pointer in a run. -/
def free (c : SlabConfig) (r : SlabRun) (ptr : ℕ) (realloc : Bool) : SlabRun :=
  match slabFree c realloc ptr r.state with
  | (.dropped, s) => ⟨s, r.live.erase ptr, (ptr - c.headSize) :: r.dropped⟩
  | (_, s) => ⟨s, r.live.erase ptr, r.dropped⟩

/-- One call.  Callers free live pointers only. -/
def call (c : SlabConfig) (r : SlabRun) : SlabCall → SlabRun
  | .alloc size answers => r.alloc c size answers
  | .free ptr realloc => if ptr ∈ r.live then r.free c ptr realloc else r

/-- A sequence of calls. -/
def calls (c : SlabConfig) (r : SlabRun) (l : List SlabCall) : SlabRun := l.foldl (call c) r

variable (c : SlabConfig) (r : SlabRun)

/-- The headers in front of the live payloads. -/
def liveHeads : List ℕ := r.live.map fun ptr => ptr - c.headSize

/-- The live chunks of a class. -/
def liveOf (id : ℕ) : List ℕ := (r.liveHeads c).filter fun a => a ∈ r.state.chunks c id

/-- The dropped chunks of a class. -/
def droppedOf (id : ℕ) : List ℕ := r.dropped.filter fun a => a ∈ r.state.chunks c id

/-- The invariant of a run. -/
structure Inv : Prop where
  /-- The slabs and the counters of each class are in order, -/
  classes : ∀ id, (r.state.slabclass id).Inv r.state.memory
  /-- and no slab belongs to two classes. -/
  slab_class : ∀ id id' b, b ∈ (r.state.slabclass id).slabBases →
    b ∈ (r.state.slabclass id').slabBases → id = id'
  /-- A header stands in front of every live payload. -/
  live_head : ∀ ptr ∈ r.live, ∃ a, ptr = a + c.headSize ∧ r.state.LiveHead c a
  /-- No pointer is live twice. -/
  live_nodup : r.live.Nodup
  /-- What was dropped is a chunk. -/
  dropped_mem : ∀ a ∈ r.dropped, ∃ id, a ∈ r.state.chunks c id
  /-- The chunks of a class are in one of their places each. -/
  account : ∀ id, (r.liveOf c id ++ (r.state.spare c id ++ r.droppedOf c id)).Perm
    (r.state.chunks c id)

variable {c r}

lemma mem_liveHeads {a : ℕ} (ha : a + c.headSize ∈ r.live) : a ∈ r.liveHeads c :=
  List.mem_map.2 ⟨_, ha, Nat.add_sub_cancel _ _⟩

namespace Inv

variable {id id' a : ℕ}

/-- A chunk lies in a slab of its class. -/
lemma exists_slab (h : r.Inv c) (ha : a ∈ r.state.chunks c id) :
    ∃ b ∈ (r.state.slabclass id).slabBases, a ∈ chunksFrom (c.table.size id) (c.perslab id) b ∧
      (⟨b, powerBlock⟩ : Region) ∈ r.state.memory.regions ∧
      (⟨b, powerBlock⟩ : Region).Contains a := by
  obtain ⟨b, hb, hab⟩ := SlabState.mem_chunks.1 ha
  obtain ⟨hle, hpos, hend⟩ := contains_of_mem_chunksFrom hab
  exact ⟨b, hb, hab, (h.classes id).slab_mem b hb, hle, by simp only; omega⟩

/-- A chunk belongs to one class. -/
lemma chunk_class (h : r.Inv c) (ha : a ∈ r.state.chunks c id) (ha' : a ∈ r.state.chunks c id') :
    id = id' := by
  obtain ⟨b, hb, -, hmem, hcon⟩ := h.exists_slab ha
  obtain ⟨b', hb', -, hmem', hcon'⟩ := h.exists_slab ha'
  have heq := r.state.memory.eq_of_contains hmem hmem' hcon hcon'
  obtain rfl : b = b' := congrArg Region.base heq
  exact h.slab_class id id' b hb hb'

/-- No chunk is listed twice. -/
lemma chunks_nodup (h : r.Inv c) (id : ℕ) : (r.state.chunks c id).Nodup := by
  refine List.nodup_flatMap.2 ⟨fun b hb => ?_, ?_⟩
  · rcases Nat.eq_zero_or_pos (c.table.size id) with hzero | hpos
    · rw [SlabConfig.perslab, hzero, Nat.div_zero]
      exact List.nodup_nil
    · exact nodup_chunksFrom hpos _ _
  · refine (h.classes id).slabs_nodup.pairwise_of_forall_ne fun b hb b' hb' hne => ?_
    intro a ha ha'
    obtain ⟨hle, hpos, hend⟩ := contains_of_mem_chunksFrom ha
    obtain ⟨hle', -, hend'⟩ := contains_of_mem_chunksFrom ha'
    have heq := r.state.memory.eq_of_contains ((h.classes id).slab_mem b hb)
      ((h.classes id).slab_mem b' hb') (a := a) ⟨hle, by simp only; omega⟩
      ⟨hle', by simp only; omega⟩
    exact hne (congrArg Region.base heq)

/-- A spare chunk is a chunk of its class. -/
lemma mem_chunks_of_mem_spare (h : r.Inv c) (ha : a ∈ r.state.spare c id) :
    a ∈ r.state.chunks c id :=
  (h.account id).subset (List.mem_append_right _ (List.mem_append_left _ ha))

/-- A spare chunk is not live. -/
lemma not_mem_liveHeads_of_mem_spare (h : r.Inv c) (ha : a ∈ r.state.spare c id) :
    a ∉ r.liveHeads c := by
  intro hlive
  have hchunk := h.mem_chunks_of_mem_spare ha
  have hmem : a ∈ r.liveOf c id := List.mem_filter.2 ⟨hlive, by simpa using hchunk⟩
  have hnodup := (h.account id).nodup_iff.2 (h.chunks_nodup id)
  exact (List.nodup_append.1 hnodup).2.2 a hmem a (List.mem_append_left _ ha) rfl

/-- Every live header lies in a region that the system has granted. -/
lemma exists_region (h : r.Inv c) (ha : a ∈ r.liveHeads c) :
    ∃ g ∈ r.state.memory.regions, g.Contains a := by
  obtain ⟨ptr, hptr, rfl⟩ := List.mem_map.1 ha
  obtain ⟨a, rfl, hhead⟩ := h.live_head ptr hptr
  rw [Nat.add_sub_cancel]
  cases hkind : (r.state.heads a).isMalloc with
  | false =>
    obtain ⟨id, -, -, hchunk, -⟩ := hhead.chunk hkind
    obtain ⟨b, -, -, hmem, hcon⟩ := h.exists_slab hchunk
    exact ⟨_, hmem, hcon⟩
  | true =>
    obtain ⟨len, hlen, hmem, -⟩ := hhead.malloc hkind
    exact ⟨_, hmem, le_rfl, by simp only; omega⟩

/-- A region that is free contains no live header. -/
lemma not_contains_of_free (h : r.Inv c) {g : Region} (hg : r.state.memory.Free g)
    (ha : a ∈ r.liveHeads c) : ¬g.Contains a := by
  obtain ⟨g', hmem, hcon⟩ := h.exists_region ha
  exact fun hcon' => (hg.2 g' hmem).not_contains hcon' hcon

/-- A region that is free contains no chunk. -/
lemma not_contains_chunk (h : r.Inv c) {g : Region} (hg : r.state.memory.Free g)
    (ha : a ∈ r.state.chunks c id) : ¬g.Contains a := by
  obtain ⟨b, -, -, hmem, hcon⟩ := h.exists_slab ha
  exact fun hcon' => (hg.2 _ hmem).not_contains hcon' hcon

/-! ## Handing out a chunk -/

/-- No slab belongs to two classes as long as the slabs are the same. -/
lemma slab_class_of_same (h : r.Inv c) {s' : SlabState} (hs : r.state.SameSlabs s') (i i' b : ℕ)
    (hb : b ∈ (s'.slabclass i).slabBases) (hb' : b ∈ (s'.slabclass i').slabBases) : i = i' := by
  rw [hs.bases] at hb hb'
  exact h.slab_class i i' b hb hb'

/-- What was dropped stays a chunk. -/
lemma dropped_mem_of_same (h : r.Inv c) {s' : SlabState} (hs : r.state.SameSlabs s') {b : ℕ}
    (hb : b ∈ r.dropped) : ∃ i, b ∈ s'.chunks c i := by
  obtain ⟨i, hi⟩ := h.dropped_mem b hb
  exact ⟨i, (hs.chunks i).symm ▸ hi⟩

/-- A state with the same slabs, spare chunks and headers. -/
lemma of_same (h : r.Inv c) {s' : SlabState} (hs : r.state.SameSlabs s')
    (hheads : s'.heads = r.state.heads) (hspare : ∀ i, s'.spare c i = r.state.spare c i) :
    Inv c ⟨s', r.live, r.dropped⟩ := by
  refine ⟨hs.classes, h.slab_class_of_same hs, ?_, h.live_nodup,
    fun b hb => h.dropped_mem_of_same hs hb, ?_⟩
  · intro ptr hptr
    obtain ⟨a, rfl, hhead⟩ := h.live_head ptr hptr
    exact ⟨a, rfl, hs.liveHead hhead (congrFun hheads a)⟩
  · intro i
    have hacc := h.account i
    unfold liveOf droppedOf liveHeads at *
    simp only [hs.chunks, hspare]
    exact hacc

/-- A spare chunk becomes live. -/
lemma hand_out (h : r.Inv c) {s' : SlabState} {size : ℕ} (hid : 1 ≤ id)
    (hle : id ≤ c.table.powerLargest) (hsize : c.table.slabClsid (size % 2 ^ 32) = id)
    (hs : r.state.SameSlabs s')
    (hheads : s'.heads = Function.update r.state.heads a (newHead c false size (r.state.heads a)))
    (hspare : (r.state.spare c id).Perm (a :: s'.spare c id))
    (hother : ∀ i, i ≠ id → s'.spare c i = r.state.spare c i) :
    Inv c ⟨s', (a + c.headSize) :: r.live, r.dropped⟩ := by
  have ha : a ∈ r.state.spare c id := hspare.symm.subset List.mem_cons_self
  have hchunk := h.mem_chunks_of_mem_spare ha
  have hnot := h.not_mem_liveHeads_of_mem_spare ha
  have hnotlive : a + c.headSize ∉ r.live := fun hmem => hnot (mem_liveHeads hmem)
  refine ⟨hs.classes, h.slab_class_of_same hs, ?_, List.nodup_cons.2 ⟨hnotlive, h.live_nodup⟩,
    fun b hb => h.dropped_mem_of_same hs hb, ?_⟩
  · intro ptr hptr
    rcases List.mem_cons.1 hptr with rfl | hptr
    · refine ⟨a, rfl, ?_⟩
      obtain ⟨b, -, -, hmem, hcon⟩ := h.exists_slab hchunk
      have hhead : s'.heads a = newHead c false size (r.state.heads a) := by
        rw [hheads, Function.update_self]
      refine ⟨(r.state.memory.within _ hmem).1.trans_le hcon.1, ?_, ?_, ?_⟩
      · intro hdebug
        rw [hhead]
        exact if_pos hdebug
      · intro _
        rw [hhead]
        exact ⟨id, hid, hle, (hs.chunks id).symm ▸ hchunk, hsize⟩
      · intro hmal
        rw [hhead] at hmal
        cases hmal
    · obtain ⟨a', rfl, hhead⟩ := h.live_head ptr hptr
      have hne : a' ≠ a := fun heq => hnotlive (heq ▸ hptr)
      refine ⟨a', rfl, hs.liveHead hhead ?_⟩
      rw [hheads, Function.update_of_ne hne]
  · intro i
    have hacc := h.account i
    unfold liveOf droppedOf liveHeads at *
    simp only [hs.chunks, List.map_cons, Nat.add_sub_cancel]
    by_cases hi : i = id
    · subst hi
      rw [List.filter_cons_of_pos (by simpa using hchunk)]
      refine List.Perm.trans ?_ hacc
      refine (List.perm_middle.symm.trans ?_)
      refine List.Perm.append_left _ ?_
      exact (hspare.append_right _).symm
    · have hnotchunk : a ∉ r.state.chunks c i := fun hmem => hi (h.chunk_class hmem hchunk)
      rw [List.filter_cons_of_neg (by simpa using hnotchunk), hother i hi]
      exact hacc

/-! ## New memory -/

/-- The chunks of a class are accounted for when a slab in new memory is added to it. -/
lemma account_new_slab (h : r.Inv c) {s' : SlabState} {ptr : ℕ}
    (hfree : r.state.memory.Free ⟨ptr, powerBlock⟩)
    (hchunks : s'.chunks c id =
      r.state.chunks c id ++ chunksFrom (c.table.size id) (c.perslab id) ptr)
    (hspare : (s'.spare c id).Perm
      (r.state.spare c id ++ chunksFrom (c.table.size id) (c.perslab id) ptr)) :
    (liveOf c ⟨s', r.live, r.dropped⟩ id ++
      (s'.spare c id ++ droppedOf c ⟨s', r.live, r.dropped⟩ id)).Perm (s'.chunks c id) := by
  have hnew : ∀ b, b ∈ chunksFrom (c.table.size id) (c.perslab id) ptr →
      (⟨ptr, powerBlock⟩ : Region).Contains b := by
    intro b hb
    obtain ⟨hle, hpos, hend⟩ := contains_of_mem_chunksFrom hb
    exact ⟨hle, by simp only; omega⟩
  -- no chunk of the new slab is live or was dropped
  have hlive : liveOf c ⟨s', r.live, r.dropped⟩ id = r.liveOf c id := by
    refine List.filter_congr fun b hb => decide_eq_decide.2 ?_
    simp only [hchunks, List.mem_append]
    exact or_iff_left fun hb' => h.not_contains_of_free hfree hb (hnew b hb')
  have hdrop : droppedOf c ⟨s', r.live, r.dropped⟩ id = r.droppedOf c id := by
    refine List.filter_congr fun b hb => decide_eq_decide.2 ?_
    obtain ⟨j, hj⟩ := h.dropped_mem b hb
    simp only [hchunks, List.mem_append]
    exact or_iff_left fun hb' => h.not_contains_chunk hfree hj (hnew b hb')
  rw [hlive, hdrop, hchunks]
  calc r.liveOf c id ++ (s'.spare c id ++ r.droppedOf c id)
      ~ r.liveOf c id ++ ((r.state.spare c id ++
          chunksFrom (c.table.size id) (c.perslab id) ptr) ++ r.droppedOf c id) :=
        (hspare.append_right _).append_left _
    _ ~ r.liveOf c id ++ (r.state.spare c id ++ r.droppedOf c id) ++
          chunksFrom (c.table.size id) (c.perslab id) ptr := by
        simp only [List.append_assoc]
        exact (List.perm_append_comm.append_left _).append_left _
    _ ~ r.state.chunks c id ++ chunksFrom (c.table.size id) (c.perslab id) ptr :=
        (h.account id).append_right _

/-- A slab is added to a class that has no chunk left to carve. -/
lemma new_slab (h : r.Inv c) (id : ℕ) {s' : SlabState} {ptr : ℕ}
    (hfree : r.state.memory.Free ⟨ptr, powerBlock⟩)
    (hregions : s'.memory.regions = ⟨ptr, powerBlock⟩ :: r.state.memory.regions)
    (hclass : ∀ i, (s'.slabclass i).Inv s'.memory)
    (hbases : (s'.slabclass id).slabBases = (r.state.slabclass id).slabBases ++ [ptr])
    (hother : ∀ i, i ≠ id → s'.slabclass i = r.state.slabclass i)
    (hheads : ∀ a, ¬(⟨ptr, powerBlock⟩ : Region).Contains a → s'.heads a = r.state.heads a)
    (hspare : (s'.spare c id).Perm
      (r.state.spare c id ++ chunksFrom (c.table.size id) (c.perslab id) ptr)) :
    Inv c ⟨s', r.live, r.dropped⟩ := by
  have hchunks : s'.chunks c id =
      r.state.chunks c id ++ chunksFrom (c.table.size id) (c.perslab id) ptr := by
    unfold SlabState.chunks
    rw [hbases, List.flatMap_append, List.flatMap_singleton]
  have hchunks' : ∀ i, i ≠ id → s'.chunks c i = r.state.chunks c i := fun i hi =>
    SlabState.chunks_congr (by rw [hother i hi])
  have hsub : ∀ i b, b ∈ r.state.chunks c i → b ∈ s'.chunks c i := by
    intro i b hb
    by_cases hi : i = id
    · subst hi
      rw [hchunks]
      exact List.mem_append_left _ hb
    · rwa [hchunks' i hi]
  have hself : (⟨ptr, powerBlock⟩ : Region).Contains ptr := ⟨le_rfl, by simp [powerBlock]⟩
  -- the new slab is not yet listed
  have hptr : ∀ i, ptr ∉ (r.state.slabclass i).slabBases := fun i hi =>
    (hfree.2 _ ((h.classes i).slab_mem ptr hi)).not_contains hself hself
  have hcases : ∀ i b, b ∈ (s'.slabclass i).slabBases →
      b ∈ (r.state.slabclass i).slabBases ∨ (i = id ∧ b = ptr) := by
    intro i b hb
    by_cases hi : i = id
    · subst hi
      rw [hbases, List.mem_append, List.mem_singleton] at hb
      exact hb.imp id fun hb => ⟨rfl, hb⟩
    · rw [hother i hi] at hb
      exact Or.inl hb
  refine ⟨hclass, ?_, ?_, h.live_nodup, ?_, ?_⟩
  · intro i i' b hb hb'
    rcases hcases i b hb with hold | ⟨hi, hbp⟩ <;> rcases hcases i' b hb' with hold' | ⟨hi', hbp'⟩
    · exact h.slab_class i i' b hold hold'
    · exact absurd (hbp' ▸ hold) (hptr i)
    · exact absurd (hbp ▸ hold') (hptr i')
    · rw [hi, hi']
  · intro p hp
    obtain ⟨a, rfl, hhead⟩ := h.live_head p hp
    have hout := h.not_contains_of_free hfree (mem_liveHeads hp)
    refine ⟨a, rfl, hhead.of_eq (hheads a hout) (fun i => hsub i a) ?_ ?_⟩
    · intro _ len hlen
      rw [hregions]
      exact List.mem_cons_of_mem _ hlen
    · intro len hlen hreg i hi
      rcases hcases i a hi with hold | ⟨-, rfl⟩
      · exact hold
      · exact absurd hself hout
  · intro b hb
    obtain ⟨i, hi⟩ := h.dropped_mem b hb
    exact ⟨i, hsub i b hi⟩
  · intro i
    have hacc := h.account i
    by_cases hi : i = id
    · subst hi
      exact h.account_new_slab hfree hchunks hspare
    · have hspare' : s'.spare c i = r.state.spare c i := by
        unfold SlabState.spare
        rw [hother i hi]
      unfold liveOf droppedOf liveHeads at *
      simp only [hchunks' i hi, hspare']
      exact hacc

/-- A region that is free does not begin where a slab does. -/
lemma not_mem_slabBases (h : r.Inv c) {len : ℕ} (hlen : 0 < len)
    (hfree : r.state.memory.Free ⟨a, len⟩) (id : ℕ) : a ∉ (r.state.slabclass id).slabBases := by
  intro hmem
  have hslab := (h.classes id).slab_mem a hmem
  refine (hfree.2 _ hslab).not_contains (a := a) ⟨le_rfl, ?_⟩ ⟨le_rfl, ?_⟩
  · simp only
    omega
  · simp [powerBlock]

/-- Memory from `malloc` becomes live. -/
lemma malloced (h : r.Inv c) {m : AddressSpace userSpace} {len size : ℕ} (hlen : 0 < len)
    (hfree : r.state.memory.Free ⟨a, len⟩)
    (hregions : m.regions = ⟨a, len⟩ :: r.state.memory.regions) :
    Inv c ⟨{ r.state with memory := m }.setHead a (newHead c true size (r.state.heads a)),
      (a + c.headSize) :: r.live, r.dropped⟩ := by
  have hself : (⟨a, len⟩ : Region).Contains a := ⟨le_rfl, by simp only; omega⟩
  have hnotlive : a + c.headSize ∉ r.live := fun hmem =>
    h.not_contains_of_free hfree (mem_liveHeads hmem) hself
  have hmem : ∀ g ∈ r.state.memory.regions, g ∈ m.regions := by
    intro g hg
    rw [hregions]
    exact List.mem_cons_of_mem _ hg
  refine ⟨fun i => (h.classes i).mono fun b _ hb => hmem _ hb, h.slab_class, ?_,
    List.nodup_cons.2 ⟨hnotlive, h.live_nodup⟩, h.dropped_mem, ?_⟩
  · intro ptr hptr
    rcases List.mem_cons.1 hptr with rfl | hptr
    · refine ⟨a, rfl, hfree.1.1, ?_, ?_, ?_⟩
      · intro hdebug
        simp only [SlabState.setHead, Function.update_self]
        exact if_pos hdebug
      · intro hchunk
        simp only [SlabState.setHead, Function.update_self] at hchunk
        cases hchunk
      · intro _
        refine ⟨len, hlen, ?_, h.not_mem_slabBases hlen hfree⟩
        simp only [SlabState.setHead, hregions]
        exact List.mem_cons_self
    · obtain ⟨a', rfl, hhead⟩ := h.live_head ptr hptr
      have hne : a' ≠ a := fun heq => hnotlive (heq ▸ hptr)
      refine ⟨a', rfl, hhead.of_eq ?_ (fun _ hi => hi) (fun _ _ hreg => hmem _ hreg)
        fun _ _ _ _ hi => hi⟩
      simp only [SlabState.setHead, Function.update_of_ne hne]
  · intro i
    have hnotchunk : a ∉ r.state.chunks c i := fun hi => h.not_contains_chunk hfree hi hself
    have hacc := h.account i
    unfold liveOf liveHeads at *
    rw [List.map_cons, Nat.add_sub_cancel, List.filter_cons_of_neg]
    · exact hacc
    · exact fun hi => hnotchunk (of_decide_eq_true hi)

/-! ## Taking a chunk back -/

section Free

variable {ptr : ℕ}

/-- The live chunks of a class before and after a pointer has been freed. -/
lemma filter_erase (hptr : ptr ∈ r.live) (l : List ℕ) :
    ((r.liveHeads c).filter fun a => a ∈ l) ~
      ((ptr - c.headSize) :: (r.live.erase ptr).map fun p => p - c.headSize).filter
        fun a => a ∈ l := by
  refine List.Perm.filter _ ?_
  exact (List.perm_cons_erase hptr).map _

/-- The pointers that are still live after one has been freed. -/
lemma live_head_erase (h : r.Inv c) {p : ℕ}
    (hp : p ∈ r.live.erase (a + c.headSize)) :
    ∃ a', p = a' + c.headSize ∧ a' ≠ a ∧ r.state.LiveHead c a' := by
  obtain ⟨hne, hp'⟩ := (h.live_nodup.mem_erase_iff).1 hp
  obtain ⟨a', rfl, hhead⟩ := h.live_head p hp'
  exact ⟨a', rfl, fun heq => hne (heq ▸ rfl), hhead⟩

/-- Memory from `malloc` is not a chunk. -/
lemma not_mem_chunks_of_malloc (h : r.Inv c) (hmalloc : (r.state.heads a).isMalloc = true)
    (hhead : r.state.LiveHead c a) (id : ℕ) : a ∉ r.state.chunks c id := by
  obtain ⟨len, hlen, hreg, hnot⟩ := hhead.malloc hmalloc
  intro hmem
  obtain ⟨b, hb, -, hslab, hcon⟩ := h.exists_slab hmem
  have heq := r.state.memory.eq_of_contains hslab hreg hcon ⟨le_rfl, by simp only; omega⟩
  obtain rfl : b = a := congrArg Region.base heq
  exact hnot id hb

/-- Memory from `malloc` goes back to the system. -/
lemma released (h : r.Inv c) (hptr : a + c.headSize ∈ r.live)
    (hmalloc : (r.state.heads a).isMalloc = true) (hhead : r.state.LiveHead c a) :
    Inv c ⟨{ r.state with memory := r.state.memory.release a }, r.live.erase (a + c.headSize),
      r.dropped⟩ := by
  obtain ⟨-, -, -, hnot⟩ := hhead.malloc hmalloc
  refine ⟨fun i => (h.classes i).mono fun b hb hmem => ?_, h.slab_class, ?_,
    h.live_nodup.erase _, h.dropped_mem, ?_⟩
  · refine AddressSpace.mem_release.2 ⟨hmem, fun heq => hnot i ?_⟩
    rwa [← show b = a from heq]
  · intro p hp
    obtain ⟨a', rfl, hne, hhead'⟩ := h.live_head_erase hp
    refine ⟨a', rfl, hhead'.of_eq rfl (fun _ hi => hi) (fun _ _ hreg => ?_) fun _ _ _ _ hi => hi⟩
    exact AddressSpace.mem_release.2 ⟨hreg, hne⟩
  · intro i
    have hnotchunk := h.not_mem_chunks_of_malloc hmalloc hhead i
    have hperm := filter_erase (c := c) hptr (r.state.chunks c i)
    rw [Nat.add_sub_cancel, List.filter_cons_of_neg (by simpa using hnotchunk)] at hperm
    exact (hperm.symm.append_right _).trans (h.account i)

/-- A chunk goes back to its class, or is dropped. -/
lemma taken_back (h : r.Inv c) {s' : SlabState} {dropped : List ℕ} (hptr : a + c.headSize ∈ r.live)
    (hchunk : a ∈ r.state.chunks c id) (hs : r.state.SameSlabs s')
    (hheads : ∀ b, b ≠ a → s'.heads b = r.state.heads b)
    (hdropped : ∀ b ∈ dropped, b = a ∨ b ∈ r.dropped)
    (hback : s'.spare c id ++ dropped.filter (fun b => b ∈ r.state.chunks c id) ~
      a :: (r.state.spare c id ++ r.droppedOf c id))
    (hother : ∀ i, i ≠ id → s'.spare c i ++ dropped.filter (fun b => b ∈ r.state.chunks c i) =
      r.state.spare c i ++ r.droppedOf c i) :
    Inv c ⟨s', r.live.erase (a + c.headSize), dropped⟩ := by
  refine ⟨hs.classes, h.slab_class_of_same hs, ?_, h.live_nodup.erase _, ?_, ?_⟩
  · intro p hp
    obtain ⟨a', rfl, hne, hhead⟩ := h.live_head_erase hp
    exact ⟨a', rfl, hs.liveHead hhead (hheads a' hne)⟩
  · intro b hb
    rcases hdropped b hb with rfl | hb
    · exact ⟨id, (hs.chunks id).symm ▸ hchunk⟩
    · exact h.dropped_mem_of_same hs hb
  · intro i
    have hacc := h.account i
    have hperm := filter_erase (c := c) hptr (r.state.chunks c i)
    rw [Nat.add_sub_cancel] at hperm
    unfold liveOf at *
    unfold droppedOf liveHeads at *
    simp only [hs.chunks]
    by_cases hi : i = id
    · subst hi
      rw [List.filter_cons_of_pos (by simpa using hchunk)] at hperm
      refine ((hback.append_left _).trans List.perm_middle).trans ?_
      exact (hperm.symm.append_right _).trans hacc
    · have hnotchunk : a ∉ r.state.chunks c i := fun hmem => hi (h.chunk_class hmem hchunk)
      rw [List.filter_cons_of_neg (by simpa using hnotchunk)] at hperm
      rw [hother i hi]
      exact (hperm.symm.append_right _).trans hacc

end Free

end Inv

end SlabRun

end Linglongta.Slab
