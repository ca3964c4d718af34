import Linglongta.Slab.Extents

/-!
# The memory limit

`mem_malloced` counts the slabs, and `do_slabs_newslab` refuses a slab beyond `mem_limit`, unless the
class has none yet.  `slab_memory_limit` says what this comes to along every sequence of calls: the
counter is exact, and the limit may be exceeded by one slab for each class in use.  Memory from
`malloc`, for sizes beyond the largest class, is neither counted nor limited.
-/

namespace Linglongta.Slab

/-- The sum of a number over the classes. -/
def tally (c : SlabConfig) (F : SlabClass → ℕ) (s : SlabState) : ℕ :=
  ∑ id ∈ Finset.Icc 1 c.table.powerLargest, F (s.slabclass id)

/-- The number of the slabs. -/
def slabCount (c : SlabConfig) (s : SlabState) : ℕ := tally c SlabClass.slabs s

/-- The number of the classes that have a slab. -/
def classesInUse (c : SlabConfig) (s : SlabState) : ℕ :=
  tally c (fun p => if 0 < p.slabs then 1 else 0) s

section Tally

variable {c : SlabConfig} {F : SlabClass → ℕ} {s s' : SlabState}

lemma tally_congr (h : ∀ id, F (s'.slabclass id) = F (s.slabclass id)) :
    tally c F s' = tally c F s :=
  Finset.sum_congr rfl fun id _ => h id

/-- The sum after one class has changed. -/
lemma tally_update {id : ℕ} {p : SlabClass} (hid : 1 ≤ id) (hle : id ≤ c.table.powerLargest)
    (h : s'.slabclass = Function.update s.slabclass id p) :
    tally c F s' + F (s.slabclass id) = tally c F s + F p := by
  have hmem : id ∈ Finset.Icc 1 c.table.powerLargest := Finset.mem_Icc.2 ⟨hid, hle⟩
  unfold tally
  rw [h, ← Finset.add_sum_erase _ _ hmem,
    ← Finset.add_sum_erase _ (fun i => F (s.slabclass i)) hmem, Function.update_self]
  have hrest : ∑ i ∈ (Finset.Icc 1 c.table.powerLargest).erase id,
      F (Function.update s.slabclass id p i) =
      ∑ i ∈ (Finset.Icc 1 c.table.powerLargest).erase id, F (s.slabclass i) :=
    Finset.sum_congr rfl fun i hi => by rw [Function.update_of_ne (Finset.ne_of_mem_erase hi)]
  rw [hrest]
  omega

end Tally

/-- The slabs of all classes fit in the address space. -/
lemma SlabRun.Inv.slabCount_le {c : SlabConfig} {r : SlabRun} (h : r.Inv c) :
    slabCount c r.state * powerBlock ≤ userSpace := by
  set ids := (Finset.Icc 1 c.table.powerLargest).toList with hids
  have hlen : (ids.flatMap fun id => (r.state.slabclass id).slabBases).length =
      slabCount c r.state := by
    rw [List.length_flatMap, slabCount, tally, Finset.sum_eq_multiset_sum, ← Finset.coe_toList]
    simp [SlabClass.slabBases, hids]
  rw [← hlen]
  refine r.state.memory.length_mul_le (List.nodup_flatMap.2 ⟨fun id _ => ?_, ?_⟩) fun b hb => ?_
  · exact (h.classes id).slabs_nodup
  · refine (Finset.nodup_toList _).pairwise_of_forall_ne fun id _ id' _ hne => ?_
    exact fun b hb hb' => hne (h.slab_class id id' b hb hb')
  · obtain ⟨id, -, hb⟩ := List.mem_flatMap.1 hb
    exact (h.classes id).slab_mem b hb

/-- What the counter of the memory says, and how far it may exceed the limit. -/
structure Limited (c : SlabConfig) (s : SlabState) : Prop where
  /-- The counter counts the slabs. -/
  counted : s.memMalloced = powerBlock * slabCount c s
  /-- It exceeds the limit by no more than a slab for each class in use. -/
  limited : c.memLimit ≠ 0 → s.memMalloced ≤ c.memLimit + powerBlock * classesInUse c s

section Runs

variable {c : SlabConfig} {s s' : SlabState} {r : SlabRun} {id : ℕ}

/-- No slab has been added. -/
lemma Limited.of_same (h : Limited c s) (hmem : s'.memMalloced = s.memMalloced)
    (hslabs : ∀ i, (s'.slabclass i).slabs = (s.slabclass i).slabs) : Limited c s' where
  counted := by
    rw [hmem, slabCount, tally_congr hslabs]
    exact h.counted
  limited hlimit := by
    have hsame : classesInUse c s' = classesInUse c s :=
      tally_congr fun i => by rw [hslabs]
    rw [hmem, hsame]
    exact h.limited hlimit

lemma setClass_slabs {p : SlabClass} (hp : p.slabs = (s.slabclass id).slabs) (i : ℕ) :
    ((s.setClass id p).slabclass i).slabs = (s.slabclass i).slabs :=
  SlabState.forall_setClass (P := fun i q => q.slabs = (s.slabclass i).slabs) hp (fun _ _ => rfl) i

/-- A slab has been added, within the limit or as the first one of its class. -/
lemma Limited.added (h : Limited c s) {p : SlabClass} (hid : 1 ≤ id)
    (hle : id ≤ c.table.powerLargest) (hmem : s'.memMalloced = s.memMalloced + powerBlock)
    (hclass : s'.slabclass = Function.update s.slabclass id p)
    (hslabs : p.slabs = (s.slabclass id).slabs + 1)
    (hwithin : c.memLimit = 0 ∨ s.memMalloced + powerBlock ≤ c.memLimit ∨
      (s.slabclass id).slabs = 0) : Limited c s' := by
  have hcount : slabCount c s' = slabCount c s + 1 := by
    have := tally_update (F := SlabClass.slabs) hid hle hclass
    unfold slabCount
    omega
  refine ⟨?_, fun hlimit => ?_⟩
  · rw [hmem, hcount, h.counted, Nat.mul_succ]
  · rcases hwithin with hzero | hwithin | hfirst
    · exact absurd hzero hlimit
    · omega
    · have huse : classesInUse c s' = classesInUse c s + 1 := by
        have := tally_update (F := fun p => if 0 < p.slabs then 1 else 0) hid hle hclass
        simp only [hslabs, hfirst, lt_irrefl, if_false, Nat.zero_add, Nat.one_pos, if_true] at this
        exact this
      have hold := h.limited hlimit
      rw [hmem, huse, Nat.mul_succ]
      omega

/-- `do_slabs_newslab` stays within the limit, or gives a class its first slab. -/
lemma Limited.newslab (hlim : Limited c r.state) (h : r.Inv c) (hid : 1 ≤ id)
    (hle : id ≤ c.table.powerLargest) (answers : SlabAnswers) :
    Limited c (doSlabsNewslab c answers id r.state).2 := by
  rcases doSlabsNewslab_cases c (h.classes id) answers with ⟨n, hres⟩ |
    ⟨ptr, m, p, hres, -, -, -, hslabs, hwithin⟩
  · rw [hres]
    exact hlim.of_same rfl (setClass_slabs rfl)
  · -- the counter does not wrap around, since the slabs fit in the address space
    have hspace := h.slabCount_le
    have hmod : (r.state.memMalloced + powerBlock) % 2 ^ 64 = r.state.memMalloced + powerBlock := by
      rw [hlim.counted, Nat.mul_comm]
      unfold userSpace at hspace
      have hblock : powerBlock = 2 ^ 22 := by decide
      omega
    rw [hres, hmod]
    rw [hmod] at hwithin
    exact hlim.added hid hle rfl rfl hslabs hwithin

/-- `_slab_alloc` keeps the counter and the limit. -/
lemma Limited.alloc (hlim : Limited c r.state) (h : r.Inv c) (answers : SlabAnswers) (size : ℕ) :
    Limited c (slabAlloc c answers size r.state).2 := by
  unfold slabAlloc
  simp only
  generalize (size + c.headSize) % 2 ^ 64 = total
  split_ifs with hsmall hlarge
  · exact hlim
  · unfold allocByMalloc
    split
    · exact hlim
    · exact hlim.of_same rfl fun _ => rfl
  · have hroom : Limited c (findRoom c answers (c.table.slabClsid total) r.state).2 := by
      unfold findRoom
      split_ifs
      · exact hlim
      · exact hlim.newslab h (Nat.not_lt.1 hsmall) (Nat.not_lt.1 hlarge) answers
    unfold allocFromClass
    cases hfind : findRoom c answers (c.table.slabClsid total) r.state with
    | mk room s₁ =>
      rw [hfind] at hroom
      simp only
      split_ifs
      · exact hroom
      · exact hroom.of_same rfl (setClass_slabs rfl)
      · exact hroom.of_same rfl (setClass_slabs rfl)
      · exact hroom

/-- `_slab_free` gives no slab back. -/
lemma Limited.free (hlim : Limited c r.state) (ptr : ℕ) (realloc : Bool) :
    Limited c (slabFree c realloc ptr r.state).2 := by
  have hpush : ∀ id head total, Limited c (pushSlot c id head total r.state) := by
    intro id head total
    unfold pushSlot
    dsimp only
    split
    · exact hlim.of_same rfl (setClass_slabs rfl)
    · exact hlim.of_same rfl (setClass_slabs rfl)
  unfold slabFree
  dsimp only
  split_ifs
  · exact hlim
  · exact hlim
  · exact hlim.of_same rfl fun _ => rfl
  · exact hlim
  · exact hpush _ _ _
  · exact hlim
  · exact hpush _ _ _

/-- One call keeps the counter and the limit. -/
lemma Limited.call (hlim : Limited c r.state) (h : r.Inv c) (x : SlabCall) :
    Limited c (r.call c x).state := by
  cases x with
  | alloc size answers =>
    have halloc := hlim.alloc h answers size
    simp only [SlabRun.call, SlabRun.alloc]
    cases hres : slabAlloc c answers size r.state with
    | mk res s₁ =>
      rw [hres] at halloc
      cases res <;> exact halloc
  | free ptr realloc =>
    simp only [SlabRun.call]
    split_ifs
    · have hfree := hlim.free ptr realloc
      unfold SlabRun.free
      split <;> simp_all
    · exact hlim

/-- Every sequence of calls keeps the counter and the limit. -/
lemma Limited.calls (hlim : Limited c r.state) (h : r.Inv c) (l : List SlabCall) :
    Limited c (r.calls c l).state := by
  induction l generalizing r with
  | nil => exact hlim
  | cons x l ih => exact ih (hlim.call h x) (h.call x)

end Runs

/-- The memory limit.  After every sequence of allocations and of frees of live pointers, whatever the
system answers, `mem_malloced` is the size of all slabs that are held; and if there is a limit, it is
exceeded by no more than one slab for each class that has one, hence by no more than one for each
class. -/
theorem slab_memory_limit (c : SlabConfig) (heads : ℕ → SlabHead) (l : List SlabCall) :
    let s := ((SlabRun.init heads).calls c l).state
    s.memMalloced = powerBlock * slabCount c s ∧
    (c.memLimit ≠ 0 → s.memMalloced ≤ c.memLimit + powerBlock * classesInUse c s) ∧
    classesInUse c s ≤ c.table.powerLargest := by
  intro s
  have hinit : Limited c (SlabRun.init heads).state := by
    have hzero : ∀ F : SlabClass → ℕ, F SlabClass.zero = 0 →
        tally c F (SlabState.init heads) = 0 := fun F hF => Finset.sum_eq_zero fun _ _ => hF
    refine ⟨?_, fun _ => Nat.zero_le _⟩
    change 0 = powerBlock * tally c SlabClass.slabs (SlabState.init heads)
    rw [hzero _ rfl, Nat.mul_zero]
  have hlim : Limited c s := hinit.calls (SlabRun.Inv.init c heads) l
  refine ⟨hlim.counted, hlim.limited, ?_⟩
  have hone : ∀ id ∈ Finset.Icc 1 c.table.powerLargest,
      (if 0 < (s.slabclass id).slabs then 1 else 0) ≤ 1 := fun id _ => by split <;> omega
  calc classesInUse c s ≤ ∑ _id ∈ Finset.Icc 1 c.table.powerLargest, 1 := Finset.sum_le_sum hone
    _ = c.table.powerLargest := by simp

end Linglongta.Slab
