import Linglongta.Slab.Partition

/-!
# The memory of live objects

The memory of an object begins with its header and has the length of its chunk, or of its region if
it comes from `malloc`: this is `Backed`.  Two objects have no address in common
(`Inv.backed_apart`), and a call of the allocator changes the memory and the headers only at the
header of the object it is about and in the regions that the system gives or takes
(`SlabState.Changes`).
-/

namespace Linglongta.Slab

open scoped List

/-! ## Objects are apart -/

namespace SlabRun.Inv

variable {c : SlabConfig} {r : SlabRun} {a a' total total' : ℕ}

/-- Chunks of one slab are apart. -/
lemma chunksFrom_apart {size n b : ℕ} (ha : a ∈ chunksFrom size n b)
    (ha' : a' ∈ chunksFrom size n b) (hne : a ≠ a') : a + size ≤ a' ∨ a' + size ≤ a := by
  obtain ⟨k, -, rfl⟩ := mem_chunksFrom.1 ha
  obtain ⟨k', -, rfl⟩ := mem_chunksFrom.1 ha'
  rcases Nat.lt_trichotomy k k' with hlt | rfl | hlt
  · have := Nat.mul_le_mul_right size hlt
    rw [Nat.succ_mul] at this
    omega
  · exact absurd rfl hne
  · have := Nat.mul_le_mul_right size hlt
    rw [Nat.succ_mul] at this
    omega

/-- A chunk and memory from `malloc` have no address in common. -/
lemma chunk_apart_malloc (h : r.Inv c) {id x : ℕ} (hchunk : a ∈ r.state.chunks c id)
    (hx : a ≤ x) (hx' : x < a + c.table.size id)
    (hreg : (⟨a', total'⟩ : Region) ∈ r.state.memory.regions)
    (hnot : ∀ id, a' ∉ (r.state.slabclass id).slabBases) : ¬(a' ≤ x ∧ x < a' + total') := by
  obtain ⟨b, hb, hmem, hslab, -⟩ := h.exists_slab hchunk
  obtain ⟨hle, -, hend⟩ := contains_of_mem_chunksFrom hmem
  rintro ⟨hin, hin'⟩
  have heq := r.state.memory.eq_of_contains hslab hreg (a := x) ⟨by simp only; omega,
    by simp only; omega⟩ ⟨hin, hin'⟩
  obtain rfl : b = a' := congrArg Region.base heq
  exact hnot id hb

/-- Two objects have no address in common. -/
lemma backed_apart (h : r.Inv c) (hb : Backed c r.state a total)
    (hb' : Backed c r.state a' total') (hne : a ≠ a') {x : ℕ} (hx : a ≤ x) (hx' : x < a + total) :
    ¬(a' ≤ x ∧ x < a' + total') := by
  rcases hb with ⟨id, -, -, hchunk, rfl⟩ | ⟨hreg, hnot⟩
  · rcases hb' with ⟨id', -, -, hchunk', rfl⟩ | ⟨hreg', hnot'⟩
    · obtain ⟨b, hb, hmem, hslab, -⟩ := h.exists_slab hchunk
      obtain ⟨b', hb', hmem', hslab', -⟩ := h.exists_slab hchunk'
      obtain ⟨hle, -, hend⟩ := contains_of_mem_chunksFrom hmem
      obtain ⟨hle', -, hend'⟩ := contains_of_mem_chunksFrom hmem'
      rintro ⟨hin, hin'⟩
      -- both lie in the slab that contains the address, and are chunks of the same class
      have heq := r.state.memory.eq_of_contains hslab hslab' (a := x)
        ⟨by simp only; omega, by simp only; omega⟩ ⟨by simp only; omega, by simp only; omega⟩
      obtain rfl : b = b' := congrArg Region.base heq
      obtain rfl := h.slab_class id id' b hb hb'
      have := chunksFrom_apart hmem hmem' hne
      omega
    · exact h.chunk_apart_malloc hchunk hx hx' hreg' hnot'
  · rcases hb' with ⟨id', -, -, hchunk', rfl⟩ | ⟨hreg', -⟩
    · rintro ⟨hin, hin'⟩
      exact h.chunk_apart_malloc hchunk' hin hin' hreg hnot ⟨hx, hx'⟩
    · intro hin
      have heq := r.state.memory.eq_of_contains hreg hreg' (a := x) ⟨hx, hx'⟩ hin
      exact hne (congrArg Region.base heq)

end SlabRun.Inv

/-! ## What a call changes -/

/-- What a call may write to: the header of the object it is about, if there is one, and what the
system has given or taken. -/
def Touches (c : SlabConfig) (s s' : SlabState) (ptr : Option ℕ) (x : ℕ) : Prop :=
  (∃ p ∈ ptr, p ≤ x + c.headSize ∧ x < p) ∨
  (∃ g ∈ s'.memory.regions, g ∉ s.memory.regions ∧ g.Contains x) ∨
  ∃ g ∈ s.memory.regions, g ∉ s'.memory.regions ∧ g.Contains x

instance containsDecidable (g : Region) (x : ℕ) : Decidable (g.Contains x) :=
  inferInstanceAs (Decidable (_ ∧ _))

instance touchesDecidable (c : SlabConfig) (s s' : SlabState) (ptr : Option ℕ) (x : ℕ) :
    Decidable (Touches c s s' ptr x) :=
  inferInstanceAs (Decidable (_ ∨ _ ∨ _))

/-- What a call of the allocator leaves of the memory and of the headers. -/
structure Changes (c : SlabConfig) (s s' : SlabState) (ptr : Option ℕ) : Prop where
  /-- The slabs are kept, -/
  bases : ∀ id, ∀ b ∈ (s.slabclass id).slabBases, b ∈ (s'.slabclass id).slabBases
  /-- and a new slab is placed where nothing was. -/
  fresh : ∀ id, ∀ b ∈ (s'.slabclass id).slabBases,
    b ∈ (s.slabclass id).slabBases ∨ s.memory.Free ⟨b, powerBlock⟩
  /-- The regions are kept, but for that of the object. -/
  regions : ∀ g ∈ s.memory.regions,
    g ∈ s'.memory.regions ∨ ∃ p, ptr = some p ∧ g.base + c.headSize = p
  /-- The headers are kept where the call does not write to. -/
  heads : ∀ x, ¬Touches c s s' ptr x → s'.heads x = s.heads x

lemma Changes.refl (c : SlabConfig) (s : SlabState) (ptr : Option ℕ) : Changes c s s ptr where
  bases _ _ h := h
  fresh _ _ h := Or.inl h
  regions _ h := Or.inl h
  heads _ _ := rfl

section Allocating

variable {c : SlabConfig} {s s₁ s' : SlabState} {r : SlabRun} {id a : ℕ}

/-- A region that is free is not held. -/
lemma not_mem_of_free {m : AddressSpace userSpace} {g : Region} (hlen : 0 < g.len)
    (hfree : m.Free g) : g ∉ m.regions := by
  intro hmem
  rcases hfree.2 g hmem with h | h <;> omega

/-- After the search for room, the header of the chunk that is found is written. -/
lemma Changes.then_head (h : Changes c s s₁ none) (hmem : s'.memory = s₁.memory)
    (hbases : ∀ id, (s'.slabclass id).slabBases = (s₁.slabclass id).slabBases)
    (hheads : ∀ x, x ≠ a → s'.heads x = s₁.heads x) : Changes c s s' (some (a + c.headSize)) where
  bases id b hb := (hbases id).symm ▸ h.bases id b hb
  fresh id b hb := h.fresh id b (hbases id ▸ hb)
  regions g hg := by
    rcases h.regions g hg with hg | ⟨p, hp, -⟩
    · exact Or.inl (hmem.symm ▸ hg)
    · cases hp
  heads x hx := by
    have hxa : x ≠ a := by
      rintro rfl
      refine hx (Or.inl ⟨_, rfl, le_rfl, ?_⟩)
      unfold SlabConfig.headSize
      split <;> omega
    rw [hheads x hxa]
    refine h.heads x fun htouch => hx ?_
    rcases htouch with ⟨p, hp, -⟩ | hnew | hold
    · cases hp
    · exact Or.inr (Or.inl (hmem.symm ▸ hnew))
    · exact Or.inr (Or.inr (hmem.symm ▸ hold))

/-- A new region is held. -/
lemma Changes.granted {ptr : Option ℕ} {g : Region} (hlen : 0 < g.len) (hfree : s.memory.Free g)
    (hregions : s'.memory.regions = g :: s.memory.regions)
    (hbases : ∀ id, ∀ b ∈ (s.slabclass id).slabBases, b ∈ (s'.slabclass id).slabBases)
    (hfresh : ∀ id, ∀ b ∈ (s'.slabclass id).slabBases,
      b ∈ (s.slabclass id).slabBases ∨ s.memory.Free ⟨b, powerBlock⟩)
    (hheads : ∀ x, ¬g.Contains x → s'.heads x = s.heads x) : Changes c s s' ptr where
  bases := hbases
  fresh := hfresh
  regions g' hg' := Or.inl (hregions ▸ List.mem_cons_of_mem g hg')
  heads x hx := by
    refine hheads x fun hcon => hx (Or.inr (Or.inl ⟨g, ?_, not_mem_of_free hlen hfree, hcon⟩))
    rw [hregions]
    exact List.mem_cons_self

/-- `do_slabs_newslab` gets a new slab, or it changes at most the size of the list of slabs.  A class
that has a slab gets another one only within the limit. -/
lemma doSlabsNewslab_cases (c : SlabConfig) (hinv : (s.slabclass id).Inv s.memory)
    (answers : SlabAnswers) :
    (∃ n, doSlabsNewslab c answers id s =
      (false, s.setClass id { s.slabclass id with listSize := n })) ∨
    ∃ ptr m p, doSlabsNewslab c answers id s =
        (true, { s with
          memMalloced := (s.memMalloced + powerBlock) % 2 ^ 64
          heads := wipeSlab c ptr s.heads
          memory := m }.setClass id p) ∧
      s.memory.Free ⟨ptr, powerBlock⟩ ∧ m.regions = ⟨ptr, powerBlock⟩ :: s.memory.regions ∧
      p.slabBases = (s.slabclass id).slabBases ++ [ptr] ∧ p.slabs = (s.slabclass id).slabs + 1 ∧
      (c.memLimit = 0 ∨ (s.memMalloced + powerBlock) % 2 ^ 64 ≤ c.memLimit ∨
        (s.slabclass id).slabs = 0) := by
  obtain ⟨n, hstate, -, -⟩ := growSlabList_spec hinv answers
  have hsame : s = s.setClass id { s.slabclass id with listSize := (s.slabclass id).listSize } := by
    unfold SlabState.setClass
    rw [Function.update_eq_self]
  unfold doSlabsNewslab
  split_ifs with hlimit
  · exact Or.inl ⟨_, congrArg _ hsame⟩
  have hwithin : c.memLimit = 0 ∨ (s.memMalloced + powerBlock) % 2 ^ 64 ≤ c.memLimit ∨
      (s.slabclass id).slabs = 0 := by omega
  cases hg : growSlabList answers id s with
  | mk ok s₁ =>
    rw [hg] at hstate
    simp only at hstate
    subst hstate
    cases ok with
    | false => exact Or.inl ⟨n, rfl⟩
    | true =>
      simp only [Bool.true_eq_false, if_false]
      split
      · exact Or.inl ⟨n, rfl⟩
      · next ptr m hgrant =>
        obtain ⟨-, hfree, hregions⟩ := AddressSpace.grant_spec hgrant
        have hmod : ((s.slabclass id).slabs + 1) % 2 ^ 32 = (s.slabclass id).slabs + 1 := by
          have := hinv.slabs_bound
          omega
        refine Or.inr ⟨ptr, m,
          { s.slabclass id with
            listSize := n
            endPagePtr := ptr
            endPageFree := c.perslab id
            slabList := Function.update (s.slabclass id).slabList (s.slabclass id).slabs ptr
            slabs := (s.slabclass id).slabs + 1 }, ?_, hfree, hregions,
          (s.slabclass id).slabBases_append ptr, rfl, hwithin⟩
        simp only [SlabState.setClass, Function.update_self, Function.update_idem, hmod]

/-- One class is replaced by one with the same slabs. -/
lemma setClass_slabBases {p : SlabClass} (hp : p.slabBases = (s.slabclass id).slabBases) (i : ℕ) :
    ((s.setClass id p).slabclass i).slabBases = (s.slabclass i).slabBases :=
  SlabState.forall_setClass (P := fun i q => q.slabBases = (s.slabclass i).slabBases) hp
    (fun _ _ => rfl) i

lemma doSlabsNewslab_changes (hinv : (s.slabclass id).Inv s.memory) (answers : SlabAnswers) :
    Changes c s (doSlabsNewslab c answers id s).2 none := by
  rcases doSlabsNewslab_cases c hinv answers with ⟨n, hres⟩ |
    ⟨ptr, m, p, hres, hfree, hregions, hbases, -, -⟩
  · rw [hres]
    have hsame := setClass_slabBases
      (show ({ s.slabclass id with listSize := n } : SlabClass).slabBases = _ from rfl)
    exact ⟨fun i b hb => (hsame i).symm ▸ hb, fun i b hb => Or.inl (hsame i ▸ hb),
      fun g hg => Or.inl hg, fun _ _ => rfl⟩
  · rw [hres]
    refine Changes.granted (by simp [powerBlock]) hfree hregions ?_ ?_ ?_
    · refine SlabState.forall_setClass (P := fun i q => ∀ b ∈ (s.slabclass i).slabBases,
        b ∈ q.slabBases) (fun b hb => ?_) fun _ _ _ hb => hb
      rw [hbases]
      exact List.mem_append_left _ hb
    · refine SlabState.forall_setClass (P := fun i q => ∀ b ∈ q.slabBases,
        b ∈ (s.slabclass i).slabBases ∨ s.memory.Free ⟨b, powerBlock⟩) (fun b hb => ?_)
        fun _ _ _ hb => Or.inl hb
      rw [hbases, List.mem_append, List.mem_singleton] at hb
      rcases hb with hb | rfl
      · exact Or.inl hb
      · exact Or.inr hfree
    · intro x hx
      simp only [SlabState.setClass, wipeSlab]
      exact if_neg fun h => hx h.2

/-- The next chunk of the last slab is handed out: the slabs stay as they are. -/
lemma allocFromPage_eq (c : SlabConfig) (id size : ℕ) (s : SlabState) :
    ∃ p : SlabClass, p.slabBases = (s.slabclass id).slabBases ∧
      allocFromPage c id size s = (some ((s.slabclass id).endPagePtr + c.headSize),
        (s.setClass id p).setHead (s.slabclass id).endPagePtr
          (newHead c false size (s.heads (s.slabclass id).endPagePtr))) := by
  unfold allocFromPage
  refine ⟨_, ?_, rfl⟩
  unfold SlabClass.slabBases
  rfl

/-- A chunk of a class is handed out. -/
lemma allocFromClass_changes (hinv : (s.slabclass id).Inv s.memory) (answers : SlabAnswers)
    (size : ℕ) :
    Changes c s (allocFromClass c answers id size s).2 (allocFromClass c answers id size s).1 := by
  have hroom : Changes c s (findRoom c answers id s).2 none := by
    unfold findRoom
    split_ifs
    · exact Changes.refl c s none
    · exact doSlabsNewslab_changes hinv answers
  unfold allocFromClass
  cases hfind : findRoom c answers id s with
  | mk room s₁ =>
    rw [hfind] at hroom
    simp only
    split_ifs
    · exact hroom
    · exact hroom.then_head rfl (setClass_slabBases rfl) fun x hx => Function.update_of_ne hx _ _
    · obtain ⟨p, hp, hres⟩ := allocFromPage_eq c id size s₁
      rw [hres]
      exact hroom.then_head rfl (setClass_slabBases hp) fun x hx => Function.update_of_ne hx _ _
    · exact hroom

/-- `_slab_alloc` changes what belongs to nobody. -/
lemma SlabRun.Inv.slabAlloc_changes (h : r.Inv c) (answers : SlabAnswers) (size : ℕ) :
    Changes c r.state (Slab.slabAlloc c answers size r.state).2
      (Slab.slabAlloc c answers size r.state).1 := by
  unfold Slab.slabAlloc
  simp only
  generalize htotal : (size + c.headSize) % 2 ^ 64 = total
  split_ifs with hsmall hlarge
  · exact Changes.refl c r.state none
  · have hpos : 0 < total := by
      by_contra hzero
      rw [show total = 0 by omega, ClassTable.slabClsid_zero] at hsmall
      exact hsmall (by decide)
    unfold allocByMalloc
    split
    · exact Changes.refl c r.state none
    · next a m hgrant =>
      obtain ⟨-, hfree, hregions⟩ := AddressSpace.grant_spec hgrant
      refine Changes.granted hpos hfree hregions (fun _ _ hb => hb) (fun _ _ hb => Or.inl hb) ?_
      intro x hx
      refine Function.update_of_ne (fun hxa => hx ?_) _ _
      rw [hxa]
      exact ⟨le_rfl, by simp only; omega⟩
  · exact allocFromClass_changes (h.classes _) answers total

/-- The free list of a class takes a chunk: the slabs stay as they are. -/
lemma pushSlot_eq (c : SlabConfig) (id a total : ℕ) (s : SlabState) :
    ∃ (p : SlabClass) (heads : ℕ → SlabHead), p.slabBases = (s.slabclass id).slabBases ∧
      (∀ x, x ≠ a → heads x = s.heads x) ∧
      pushSlot c id a total s = { s with heads := heads }.setClass id p := by
  unfold pushSlot
  dsimp only
  split
  · refine ⟨_, Function.update s.heads a SlabHead.wiped, ?_,
      fun x hx => Function.update_of_ne hx _ _, rfl⟩
    unfold SlabClass.slabBases
    rfl
  · refine ⟨_, s.heads, ?_, fun _ _ => rfl, rfl⟩
    unfold SlabClass.slabBases
    rfl

/-- `_slab_free` of a live pointer changes what belongs to its object. -/
lemma SlabRun.Inv.slabFree_changes (h : r.Inv c) {ptr : ℕ} (hptr : ptr ∈ r.live) (realloc : Bool) :
    Changes c r.state (slabFree c realloc ptr r.state).2 (some ptr) := by
  obtain ⟨a, rfl, hhead⟩ := h.live_head ptr hptr
  have hpush : ∀ id total, Changes c r.state (pushSlot c id a total r.state)
      (some (a + c.headSize)) := by
    intro id total
    obtain ⟨p, heads, hbases, hheads, hpush⟩ := pushSlot_eq c id a total r.state
    rw [hpush]
    exact (Changes.refl c r.state none).then_head rfl (setClass_slabBases hbases) hheads
  cases hkind : (r.state.heads a).isMalloc with
  | true =>
    rw [slabFree_of_malloc realloc hhead hkind]
    refine ⟨fun _ _ hb => hb, fun _ _ hb => Or.inl hb, fun g hg => ?_, fun _ _ => rfl⟩
    by_cases hbase : g.base = a
    · exact Or.inr ⟨_, rfl, by rw [hbase]⟩
    · exact Or.inl (AddressSpace.mem_release.2 ⟨hg, hbase⟩)
  | false =>
    obtain ⟨id, hid, hle, -, hclass⟩ := hhead.chunk hkind
    rw [slabFree_of_chunk realloc hhead hkind hid hle hclass]
    split_ifs
    · exact hpush id _
    · exact Changes.refl c r.state _
    · exact hpush id _

/-- An object that is not the one of the call keeps its memory. -/
lemma Changes.backed {ptr : Option ℕ} {total : ℕ} (hch : Changes c s s' ptr)
    (hb : Backed c s a total) (htotal : 0 < total) (hne : ptr ≠ some (a + c.headSize)) :
    Backed c s' a total := by
  rcases hb with ⟨id, hid, hle, hchunk, rfl⟩ | ⟨hreg, hnot⟩
  · refine Or.inl ⟨id, hid, hle, ?_, rfl⟩
    obtain ⟨b, hbase, hmem⟩ := SlabState.mem_chunks.1 hchunk
    exact SlabState.mem_chunks.2 ⟨b, hch.bases id b hbase, hmem⟩
  · refine Or.inr ⟨?_, fun id hbase => ?_⟩
    · rcases hch.regions _ hreg with hreg | ⟨p, hp, hbase⟩
      · exact hreg
      · exact absurd (hbase ▸ hp) hne
    · rcases hch.fresh id a hbase with hold | hfree
      · exact hnot id hold
      · refine (hfree.2 _ hreg).not_contains (a := a) ⟨le_rfl, ?_⟩ ⟨le_rfl, ?_⟩
        · simp [powerBlock]
        · simp only
          omega

/-- A call writes to no other object but the one it is about. -/
lemma Changes.not_touches {r' : SlabRun} {ptr : Option ℕ} {total x : ℕ}
    (hch : Changes c r.state r'.state ptr) (h : r.Inv c) (h' : r'.Inv c)
    (hb : Backed c r.state a total) (hne : ptr ≠ some (a + c.headSize)) (hx : a ≤ x)
    (hx' : x < a + total) (hhead : ∀ p ∈ ptr, ¬(p ≤ x + c.headSize ∧ x < p)) :
    ¬Touches c r.state r'.state ptr x := by
  -- the region of the object is held before and after the call
  obtain ⟨g, hg, hg', hcon⟩ : ∃ g ∈ r.state.memory.regions, g ∈ r'.state.memory.regions ∧
      g.Contains x := by
    rcases hb with ⟨id, -, -, hchunk, rfl⟩ | ⟨hreg, -⟩
    · obtain ⟨b, hbase, hmem, hslab, -⟩ := h.exists_slab hchunk
      obtain ⟨hle, -, hend⟩ := contains_of_mem_chunksFrom hmem
      exact ⟨_, hslab, (h'.classes id).slab_mem b (hch.bases id b hbase), by simp only; omega,
        by simp only; omega⟩
    · rcases hch.regions _ hreg with hreg' | ⟨p, hp, hbase⟩
      · exact ⟨_, hreg, hreg', hx, hx'⟩
      · exact absurd (hbase ▸ hp) hne
  rintro (⟨p, hp, hin⟩ | ⟨k, hk, hnot, hkx⟩ | ⟨k, hk, hnot, hkx⟩)
  · exact hhead p hp hin
  · exact hnot (r'.state.memory.eq_of_contains hg' hk hcon hkx ▸ hg)
  · exact hnot (r.state.memory.eq_of_contains hg hk hcon hkx ▸ hg')

end Allocating

end Linglongta.Slab
