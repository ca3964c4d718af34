import Linglongta.Slab.Extents
import Mathlib.Data.List.GetD

/-!
# What the owners have written

`_slab_calloc` and `_slab_realloc` stand on `_slab_alloc` and `_slab_free` and work on the bytes of
the objects.  A `Heap` is the allocator with the bytes of the memory and, for every live object,
what its owner may rely on: a list as long as the size it asked for, with the bytes that have been
written and holes where nothing has been.  A call writes headers, and the system may have left or may
leave anything in the memory it gives and takes: these bytes are an argument of each call.

`slab_contents_kept` says that along every sequence of calls and writes each live object holds what
its owner relies on.  `_slab_realloc` copies as many bytes as the header says, which is the size of
the old object together with its header, as a `uint32_t`.
-/

namespace Linglongta.Slab

/-- The bytes of the memory. -/
abbrev Memory := ℕ → UInt8

/-- The memory after a call of the allocator: what the call or the system has overwritten is
`junk`. -/
def overwritten (c : SlabConfig) (s s' : SlabState) (ptr : Option ℕ) (junk mem : Memory) : Memory :=
  fun x => if Touches c s s' ptr x then junk x else mem x

/-- `memset(p, v, n)`. -/
def memset (mem : Memory) (p : ℕ) (v : UInt8) (n : ℕ) : Memory :=
  fun x => if p ≤ x ∧ x < p + n then v else mem x

/-- `memcpy(dst, src, n)`. -/
def memcpy (mem : Memory) (dst src n : ℕ) : Memory :=
  fun x => if dst ≤ x ∧ x < dst + n then mem (src + (x - dst)) else mem x

/-- `_slab_calloc`, with the memory. -/
def slabCalloc (c : SlabConfig) (answers : SlabAnswers) (junk : Memory) (size : ℕ) (s : SlabState)
    (mem : Memory) : Option ℕ × SlabState × Memory :=
  let (ptr, s') := slabAlloc c answers size s
  let mem := overwritten c s s' ptr junk mem
  match ptr with
  | none => (none, s', mem)
  | some p => (some p, s', memset mem p 0 size)

/-- What `_slab_realloc` returns, or the failure of its assertion. -/
inductive ReallocOutcome
  /-- The assertion on `magic_head` fails. -/
  | aborted
  /-- The pointer that is returned, none if it is null. -/
  | returned (ptr : Option ℕ)
deriving DecidableEq

/-- `_slab_realloc`, with the memory; `grow` is the answer of the system if the free list of the old
object has to grow. -/
def slabRealloc (c : SlabConfig) (answers : SlabAnswers) (grow : Bool) (junk junk' : Memory)
    (ptr size : ℕ) (s : SlabState) (mem : Memory) : ReallocOutcome × SlabState × Memory :=
  if size = 0 then
    (.returned none, s, mem)
  else
    let (new, s₁) := slabAlloc c answers size s
    let mem₁ := overwritten c s s₁ new junk mem
    if ptr = 0 then
      (.returned new, s₁, mem₁)
    else
      match new with
      | none => (.returned none, s₁, mem₁)
      | some p =>
        let head := s₁.heads (ptr - c.headSize)
        if c.needDebug ∧ head.magicHead ≠ 0xfeedbeef then
          (.aborted, s₁, mem₁)
        else
          let newSize := if size < head.size then size else head.size
          let mem₂ := memcpy mem₁ p ptr newSize
          let (_, s₂) := slabFree c grow ptr s₁
          (.returned (some p), s₂, overwritten c s₁ s₂ (some ptr) junk' mem₂)

/-! ## The heap and its owners -/

/-- The allocator, the memory, and what the owners of the live objects rely on. -/
structure Heap where
  /-- The allocator. -/
  run : SlabRun
  /-- The memory. -/
  mem : Memory
  /-- What the owner of the object at a pointer has written; a byte that has not been written is
  `none`. -/
  objs : ℕ → Option (List (Option UInt8))

/-- A call of the allocator, or a write of an owner. -/
inductive HeapCall
  /-- `_slab_alloc`. -/
  | alloc (size : ℕ) (answers : SlabAnswers) (junk : Memory)
  /-- `_slab_calloc`. -/
  | calloc (size : ℕ) (answers : SlabAnswers) (junk : Memory)
  /-- `_slab_realloc`. -/
  | realloc (ptr size : ℕ) (answers : SlabAnswers) (grow : Bool) (junk junk' : Memory)
  /-- `_slab_free`. -/
  | free (ptr : ℕ) (grow : Bool) (junk : Memory)
  /-- The owner of an object writes bytes to it, from an offset on. -/
  | write (ptr off : ℕ) (bytes : List UInt8)

/-- The bytes of an object after its owner has written to it. -/
def written (bs : List (Option UInt8)) (off : ℕ) (bytes : List UInt8) : List (Option UInt8) :=
  (List.range bs.length).map fun i =>
    if off ≤ i ∧ i < off + bytes.length then bytes[i - off]? else (bs[i]?).join

/-- The bytes of an object whose first `n` bytes have been taken from another one. -/
def carried (bs : List (Option UInt8)) (n size : ℕ) : List (Option UInt8) :=
  (List.range size).map fun i => if i < n then (bs[i]?).join else none

namespace Heap

/-- Nothing has been allocated. -/
def init (heads : ℕ → SlabHead) (mem : Memory) : Heap where
  run := SlabRun.init heads
  mem := mem
  objs := fun _ => none

/-- An object has a new owner, if the call has returned one. -/
def own (objs : ℕ → Option (List (Option UInt8))) (ptr : Option ℕ) (bs : List (Option UInt8)) :
    ℕ → Option (List (Option UInt8)) :=
  match ptr with
  | none => objs
  | some p => Function.update objs p (some bs)

/-- One call.  Callers ask for sizes that the size of a header can be added to, free and resize
live pointers only, and write within the size they have asked for.  To resize the null pointer is to
allocate. -/
def call (c : SlabConfig) (h : Heap) : HeapCall → Heap
  | .alloc size answers junk =>
    if size + c.headSize ≤ 2 ^ 64 then
      let r := slabAlloc c answers size h.run.state
      { run := h.run.answered r
        mem := overwritten c h.run.state r.2 r.1 junk h.mem
        objs := own h.objs r.1 (List.replicate size none) }
    else h
  | .calloc size answers junk =>
    if size + c.headSize ≤ 2 ^ 64 then
      let r := slabCalloc c answers junk size h.run.state h.mem
      { run := h.run.answered (r.1, r.2.1)
        mem := r.2.2
        objs := own h.objs r.1 (List.replicate size (some 0)) }
    else h
  | .realloc ptr size answers grow junk junk' =>
    match h.objs ptr with
    | none => h
    | some bs =>
      if size + c.headSize ≤ 2 ^ 64 then
        let r := slabRealloc c answers grow junk junk' ptr size h.run.state h.mem
        match r.1 with
        | .aborted => h
        | .returned none => { h with run := h.run.answered (none, r.2.1), mem := r.2.2 }
        | .returned (some p) =>
          { run := (h.run.answered (slabAlloc c answers size h.run.state)).free c ptr grow
            mem := r.2.2
            objs := own (Function.update h.objs ptr none) (some p)
              (carried bs (min size ((bs.length + c.headSize) % 2 ^ 32)) size) }
      else h
  | .free ptr grow junk =>
    if ptr ∈ h.run.live then
      { run := h.run.free c ptr grow
        mem := overwritten c h.run.state (slabFree c grow ptr h.run.state).2 (some ptr) junk h.mem
        objs := Function.update h.objs ptr none }
    else h
  | .write ptr off bytes =>
    match h.objs ptr with
    | none => h
    | some bs =>
      if off + bytes.length ≤ bs.length then
        { h with
          mem := fun x => if ptr + off ≤ x ∧ x < ptr + off + bytes.length then
            bytes.getD (x - (ptr + off)) 0 else h.mem x
          objs := Function.update h.objs ptr (some (written bs off bytes)) }
      else h

/-- A sequence of calls. -/
def calls (c : SlabConfig) (h : Heap) (l : List HeapCall) : Heap := l.foldl (call c) h

/-- Every live object has its memory and its header, and holds what its owner relies on. -/
structure Inv (c : SlabConfig) (h : Heap) : Prop where
  /-- The allocator is in order. -/
  run : h.run.Inv c
  /-- The objects that have an owner are the live ones. -/
  live : ∀ ptr, ptr ∈ h.run.live ↔ (h.objs ptr).isSome
  /-- The memory of an object has room for its header and its bytes, and the header has its size. -/
  backed : ∀ ptr bs, h.objs ptr = some bs → ∃ a total, ptr = a + c.headSize ∧
    Backed c h.run.state a total ∧ bs.length + c.headSize ≤ total ∧
    (h.run.state.heads a).size = (bs.length + c.headSize) % 2 ^ 32
  /-- The bytes are there. -/
  holds : ∀ ptr bs, h.objs ptr = some bs → ∀ i v, bs[i]? = some (some v) → h.mem (ptr + i) = v

variable {c : SlabConfig} {h : Heap}

lemma Inv.init (c : SlabConfig) (heads : ℕ → SlabHead) (mem : Memory) :
    (Heap.init heads mem).Inv c where
  run := SlabRun.Inv.init c heads
  live ptr := by simp [Heap.init, SlabRun.init]
  backed ptr bs hobj := by cases hobj
  holds ptr bs hobj := by cases hobj

lemma headSize_pos (c : SlabConfig) : 0 < c.headSize := by
  unfold SlabConfig.headSize
  split <;> omega

/-- The memory of the object of a call, before or after it, with room for a header; all of what the
call writes beside headers is in `W`. -/
def About (c : SlabConfig) (s s' : SlabState) (W : ℕ → Prop) (p : ℕ) : Prop :=
  ∃ a total, p = a + c.headSize ∧ c.headSize ≤ total ∧ (Backed c s a total ∨ Backed c s' a total) ∧
    ∀ x, W x → a ≤ x ∧ x < a + total

/-- An object that is not the one of a call keeps its memory, its header and its bytes. -/
lemma Inv.kept (hinv : h.Inv c) (run' : SlabRun) (mem' : Memory) {ptr : Option ℕ} (W : ℕ → Prop)
    (hrun : run'.Inv c) (hch : Changes c h.run.state run'.state ptr)
    (hmem : ∀ x, ¬Touches c h.run.state run'.state ptr x → ¬W x → mem' x = h.mem x)
    (hnone : ptr = none → ∀ x, ¬W x)
    (habout : ∀ p ∈ ptr, About c h.run.state run'.state W p) (q : ℕ) (bs : List (Option UInt8))
    (hq : h.objs q = some bs) (hne : ptr ≠ some q) :
    (∃ a total, q = a + c.headSize ∧ Backed c run'.state a total ∧ bs.length + c.headSize ≤ total ∧
      (run'.state.heads a).size = (bs.length + c.headSize) % 2 ^ 32) ∧
    ∀ i v, bs[i]? = some (some v) → mem' (q + i) = v := by
  obtain ⟨a, total, rfl, hb, hsize, hhd⟩ := hinv.backed q bs hq
  have hpos := headSize_pos c
  have hb' := hch.backed hb (by omega) hne
  -- no address of the object is one of the object of the call
  have hapart : ∀ p ∈ ptr, ∀ x, a ≤ x → x < a + total →
      ¬(p ≤ x + c.headSize ∧ x < p) ∧ ¬W x := by
    intro p hp x hx hx'
    obtain ⟨a', total', rfl, hle, hbacked, hW⟩ := habout p hp
    have haa : a ≠ a' := by
      rintro rfl
      exact hne hp
    have hnot : ¬(a' ≤ x ∧ x < a' + total') := by
      rcases hbacked with hbacked | hbacked
      · exact hinv.run.backed_apart hb hbacked haa hx hx'
      · exact hrun.backed_apart hb' hbacked haa hx hx'
    exact ⟨fun hin => hnot ⟨by omega, by omega⟩, fun hin => hnot (hW x hin)⟩
  have htouch : ∀ x, a ≤ x → x < a + total → ¬Touches c h.run.state run'.state ptr x :=
    fun x hx hx' => hch.not_touches hinv.run hrun hb hne hx hx' fun p hp =>
      (hapart p hp x hx hx').1
  have hW : ∀ x, a ≤ x → x < a + total → ¬W x := by
    intro x hx hx'
    cases hptr : ptr with
    | none => exact hnone hptr x
    | some p => exact (hapart p hptr x hx hx').2
  refine ⟨⟨a, total, rfl, hb', hsize, ?_⟩, fun i v hi => ?_⟩
  · rw [hch.heads a (htouch a le_rfl (by omega))]
    exact hhd
  · have hlen : i < bs.length := (List.getElem?_eq_some_iff.1 hi).1
    rw [hmem _ (htouch _ (by omega) (by omega)) (hW _ (by omega) (by omega))]
    exact hinv.holds _ bs hq i v hi

/-- Where one entry has been replaced, an owner is that of the entry or it is an old one. -/
lemma update_eq_some {objs : ℕ → Option (List (Option UInt8))} {v : Option (List (Option UInt8))}
    {p q : ℕ} {bs : List (Option UInt8)} (hq : Function.update objs p v q = some bs) :
    q = p ∧ v = some bs ∨ objs q = some bs ∧ some p ≠ some q := by
  by_cases hqp : q = p
  · rw [hqp, Function.update_self] at hq
    exact Or.inl ⟨hqp, hq⟩
  · rw [Function.update_of_ne hqp] at hq
    exact Or.inr ⟨hq, fun heq => hqp (Option.some.inj heq).symm⟩

/-! ## Allocating -/

end Heap

/-- The header of a new object has its size. -/
lemma slabAlloc_head {c : SlabConfig} {answers : SlabAnswers} {size p : ℕ} {s s' : SlabState}
    (hres : slabAlloc c answers size s = (some p, s')) :
    (s'.heads (p - c.headSize)).size = (size + c.headSize) % 2 ^ 64 % 2 ^ 32 := by
  unfold slabAlloc at hres
  simp only at hres
  generalize (size + c.headSize) % 2 ^ 64 = total at hres ⊢
  split_ifs at hres with hsmall hlarge
  · cases hres
  · unfold allocByMalloc at hres
    split at hres
    · cases hres
    · cases hres
      rw [Nat.add_sub_cancel]
      simp [SlabState.setHead, newHead]
  · unfold allocFromClass at hres
    cases hfind : findRoom c answers (c.table.slabClsid total) s with
    | mk room s₁ =>
      rw [hfind] at hres
      simp only at hres
      split_ifs at hres
      · cases hres
      · unfold allocFromSlots at hres
        cases hres
        rw [Nat.add_sub_cancel]
        simp [SlabState.setHead, newHead]
      · obtain ⟨q, -, hpage⟩ := allocFromPage_eq c (c.table.slabClsid total) total s₁
        rw [hpage] at hres
        cases hres
        rw [Nat.add_sub_cancel]
        simp [SlabState.setHead, newHead]
      · cases hres

/-- A request for so many bytes that the sum with the header is zero fails. -/
lemma slabAlloc_lt {c : SlabConfig} {answers : SlabAnswers} {size p : ℕ} {s s' : SlabState}
    (hsize : size + c.headSize ≤ 2 ^ 64) (hres : slabAlloc c answers size s = (some p, s')) :
    size + c.headSize < 2 ^ 64 := by
  refine lt_of_le_of_ne hsize fun heq => ?_
  unfold slabAlloc at hres
  simp only [heq, Nat.mod_self, ClassTable.slabClsid_zero] at hres
  cases hres

namespace Heap

variable {c : SlabConfig} {h : Heap}

/-- An allocation gives its caller an object whose bytes are `bs`; what the caller writes on top of
the new memory stays within the object. -/
lemma Inv.allocated (hinv : h.Inv c) (answers : SlabAnswers) {size : ℕ} (mem' : Memory)
    (bs : List (Option UInt8)) (hsize : size + c.headSize ≤ 2 ^ 64) (hlen : bs.length = size)
    (hmem : ∀ x, ¬Touches c h.run.state (slabAlloc c answers size h.run.state).2
        (slabAlloc c answers size h.run.state).1 x →
      ¬(∃ p ∈ (slabAlloc c answers size h.run.state).1, p ≤ x ∧ x < p + size) → mem' x = h.mem x)
    (hbs : ∀ p ∈ (slabAlloc c answers size h.run.state).1, ∀ i v, bs[i]? = some (some v) →
      mem' (p + i) = v) :
    Inv c ⟨h.run.answered (slabAlloc c answers size h.run.state), mem',
      own h.objs (slabAlloc c answers size h.run.state).1 bs⟩ := by
  obtain ⟨hgranted, hrun⟩ := hinv.run.slabAlloc answers size
  have hch := hinv.run.slabAlloc_changes answers size
  cases hres : slabAlloc c answers size h.run.state with
  | mk res s' =>
    rw [hres] at hgranted hrun hch hmem hbs
    cases res with
    | none =>
      have hkept := hinv.kept ⟨s', h.run.live, h.run.dropped⟩ mem' (fun _ => False) hrun hch
        (fun x hx _ => hmem x hx (by simp)) (fun _ _ => id) (by simp)
      exact ⟨hrun, hinv.live, fun q bs hq => (hkept q bs hq (by simp)).1,
        fun q bs hq => (hkept q bs hq (by simp)).2⟩
    | some p =>
      obtain ⟨a, total, rfl, hb, hle⟩ := hgranted p rfl
      have hlt := slabAlloc_lt hsize hres
      have hhd := slabAlloc_head hres
      rw [Nat.mod_eq_of_lt hlt] at hle hhd
      rw [Nat.add_sub_cancel] at hhd
      have hnew : h.objs (a + c.headSize) = none := by
        have hnot := (List.nodup_cons.1 hrun.live_nodup).1
        rw [hinv.live] at hnot
        simpa using hnot
      have habout : ∀ q ∈ some (a + c.headSize), About c h.run.state s'
          (fun x => a + c.headSize ≤ x ∧ x < a + c.headSize + size) q := by
        rintro _ ⟨⟩
        exact ⟨a, total, rfl, by omega, Or.inr hb, fun x hx => ⟨by omega, by omega⟩⟩
      have hkept := hinv.kept ⟨s', (a + c.headSize) :: h.run.live, h.run.dropped⟩ mem' _ hrun hch
        (fun x hx hW => hmem x hx (by simpa using hW)) (by simp) habout
      refine ⟨hrun, fun q => ?_, fun q bs' hq => ?_, fun q bs' hq => ?_⟩
      · by_cases hqa : q = a + c.headSize
        · simp [SlabRun.answered, own, hqa]
        · simp [SlabRun.answered, own, hqa, Function.update_of_ne, hinv.live]
      · rcases update_eq_some hq with ⟨rfl, ⟨⟩⟩ | ⟨hq, hne⟩
        · exact ⟨a, total, rfl, hb, by omega, by rw [hlen]; exact hhd⟩
        · exact (hkept q bs' hq hne).1
      · rcases update_eq_some hq with ⟨rfl, ⟨⟩⟩ | ⟨hq, hne⟩
        · exact hbs _ rfl
        · exact (hkept q bs' hq hne).2

/-- `_slab_alloc` keeps what the owners rely on. -/
lemma Inv.alloc (hinv : h.Inv c) (size : ℕ) (answers : SlabAnswers) (junk : Memory) :
    (h.call c (.alloc size answers junk)).Inv c := by
  simp only [call]
  split_ifs with hsize
  · refine hinv.allocated answers _ _ hsize (List.length_replicate ..) (fun x hx _ => if_neg hx) ?_
    intro p _ i v hi
    simp [List.getElem?_replicate] at hi
  · exact hinv

/-- `_slab_calloc` keeps what the owners rely on, and the new object is filled with zeros. -/
lemma Inv.calloc (hinv : h.Inv c) (size : ℕ) (answers : SlabAnswers) (junk : Memory) :
    (h.call c (.calloc size answers junk)).Inv c := by
  simp only [call, slabCalloc]
  split_ifs with hsize
  · have halloc := fun mem' => hinv.allocated answers mem' (List.replicate size (some 0)) hsize
      (List.length_replicate ..)
    cases hres : slabAlloc c answers size h.run.state with
    | mk res s' =>
      rw [hres] at halloc
      cases res with
      | none => exact halloc _ (fun x hx _ => if_neg hx) (by simp)
      | some p =>
        refine halloc _ (fun x hx hW => ?_) ?_
        · have hW' : ¬(p ≤ x ∧ x < p + size) := by simpa using hW
          simp only [memset, if_neg hW', overwritten, if_neg hx]
        · rintro _ ⟨⟩ i v hi
          simp only [List.getElem?_replicate] at hi
          split_ifs at hi with hlt
          cases hi
          simp [memset, hlt]
  · exact hinv

/-! ## Freeing and writing -/

lemma free_state (c : SlabConfig) (r : SlabRun) (ptr : ℕ) (grow : Bool) :
    (r.free c ptr grow).state = (slabFree c grow ptr r.state).2 := by
  unfold SlabRun.free
  split <;> simp_all

lemma free_live (c : SlabConfig) (r : SlabRun) (ptr : ℕ) (grow : Bool) :
    (r.free c ptr grow).live = r.live.erase ptr := by
  unfold SlabRun.free
  split <;> rfl

/-- `_slab_free` keeps what the other owners rely on. -/
lemma Inv.freed (hinv : h.Inv c) {ptr : ℕ} (hptr : ptr ∈ h.run.live) (grow : Bool) (junk : Memory) :
    Inv c ⟨h.run.free c ptr grow,
      overwritten c h.run.state (slabFree c grow ptr h.run.state).2 (some ptr) junk h.mem,
      Function.update h.objs ptr none⟩ := by
  have hrun := hinv.run.free hptr grow
  have hch := hinv.run.slabFree_changes hptr grow
  rw [← free_state] at hch
  obtain ⟨bs, hobj⟩ := Option.isSome_iff_exists.1 ((hinv.live ptr).1 hptr)
  obtain ⟨a, total, hpa, hb, hsize, -⟩ := hinv.backed ptr bs hobj
  have habout : ∀ q ∈ some ptr, About c h.run.state (h.run.free c ptr grow).state
      (fun _ => False) q := by
    rintro _ ⟨⟩
    exact ⟨a, total, hpa, by omega, Or.inl hb, fun _ => False.elim⟩
  have hkept := hinv.kept (h.run.free c ptr grow)
    (overwritten c h.run.state (slabFree c grow ptr h.run.state).2 (some ptr) junk h.mem) _
    hrun hch (fun x hx _ => if_neg (by rwa [← free_state])) (by simp) habout
  refine ⟨hrun, fun q => ?_, fun q bs hq => ?_, fun q bs hq => ?_⟩
  · rw [free_live, hinv.run.live_nodup.mem_erase_iff, hinv.live]
    by_cases hq : q = ptr
    · simp [hq]
    · simp [hq, Function.update_of_ne]
  · obtain ⟨-, ⟨⟩⟩ | ⟨hq, hne⟩ := update_eq_some hq
    exact (hkept q bs hq hne).1
  · obtain ⟨-, ⟨⟩⟩ | ⟨hq, hne⟩ := update_eq_some hq
    exact (hkept q bs hq hne).2

lemma getElem?_written {bs : List (Option UInt8)} {off i : ℕ} {bytes : List UInt8} {v : UInt8}
    (hi : (written bs off bytes)[i]? = some (some v)) :
    i < bs.length ∧ if off ≤ i ∧ i < off + bytes.length then bytes[i - off]? = some v
      else bs[i]? = some (some v) := by
  obtain ⟨hlt, hval⟩ := List.getElem?_eq_some_iff.1 hi
  simp only [written, List.length_map, List.length_range] at hlt
  simp only [written, List.getElem_map, List.getElem_range] at hval
  refine ⟨hlt, ?_⟩
  split_ifs at hval ⊢
  · exact hval
  · simpa [Option.join_eq_some_iff] using hval

/-- An owner that writes to its object changes no other one. -/
lemma Inv.write (hinv : h.Inv c) (ptr off : ℕ) (bytes : List UInt8) :
    (h.call c (.write ptr off bytes)).Inv c := by
  simp only [call]
  cases hobj : h.objs ptr with
  | none => exact hinv
  | some bs =>
    simp only
    split_ifs with hlen
    · obtain ⟨a, total, hpa, hb, hsize, hhd⟩ := hinv.backed ptr bs hobj
      have habout : ∀ q ∈ some ptr, About c h.run.state h.run.state
          (fun x => ptr + off ≤ x ∧ x < ptr + off + bytes.length) q := by
        rintro _ ⟨⟩
        exact ⟨a, total, hpa, by omega, Or.inl hb, fun x hx => ⟨by omega, by omega⟩⟩
      have hkept := hinv.kept h.run (fun x => if ptr + off ≤ x ∧ x < ptr + off + bytes.length then
          bytes.getD (x - (ptr + off)) 0 else h.mem x) _ hinv.run
        (Changes.refl c h.run.state (some ptr)) (fun x _ hW => if_neg hW) (by simp) habout
      refine ⟨hinv.run, fun q => ?_, fun q bs' hq => ?_, fun q bs' hq => ?_⟩
      · rw [hinv.live]
        by_cases hqp : q = ptr
        · simp [hqp, hobj]
        · simp [Function.update_of_ne hqp]
      · rcases update_eq_some hq with ⟨rfl, ⟨⟩⟩ | ⟨hq, hne⟩
        · have hwritten : (written bs off bytes).length = bs.length := by simp [written]
          exact ⟨a, total, hpa, hb, by omega, by rwa [hwritten]⟩
        · exact (hkept q bs' hq hne).1
      · rcases update_eq_some hq with ⟨rfl, ⟨⟩⟩ | ⟨hq, hne⟩
        · intro i v hi
          obtain ⟨hlt, hval⟩ := getElem?_written hi
          dsimp only
          split_ifs at hval with hin
          · obtain ⟨hlt', rfl⟩ := List.getElem?_eq_some_iff.1 hval
            rw [if_pos ⟨by omega, by omega⟩, show q + i - (q + off) = i - off by omega,
              List.getD_eq_getElem _ _ hlt']
          · rw [if_neg (by omega)]
            exact hinv.holds q bs hobj i v hval
        · exact (hkept q bs' hq hne).2
    · exact hinv

/-! ## Resizing -/

lemma getElem?_carried {bs : List (Option UInt8)} {n size i : ℕ} {v : UInt8}
    (hi : (carried bs n size)[i]? = some (some v)) : i < n ∧ i < size ∧ bs[i]? = some (some v) := by
  obtain ⟨hlt, hval⟩ := List.getElem?_eq_some_iff.1 hi
  simp only [carried, List.length_map, List.length_range] at hlt
  simp only [carried, List.getElem_map, List.getElem_range] at hval
  split_ifs at hval with hn
  exact ⟨hn, hlt, by simpa [Option.join_eq_some_iff] using hval⟩

/-- The heap after the first call of `_slab_alloc` in `_slab_realloc`, and after the bytes of the old
object have been copied to the new one. -/
lemma Inv.copied (hinv : h.Inv c) {answers : SlabAnswers} {ptr size p n : ℕ} {s₁ : SlabState}
    {bs : List (Option UInt8)} (hobj : h.objs ptr = some bs) (hsize : size + c.headSize ≤ 2 ^ 64)
    (hres : slabAlloc c answers size h.run.state = (some p, s₁)) (hn : n ≤ size) (junk : Memory) :
    Inv c ⟨⟨s₁, p :: h.run.live, h.run.dropped⟩,
      memcpy (overwritten c h.run.state s₁ (some p) junk h.mem) p ptr n,
      Function.update h.objs p (some (carried bs n size))⟩ ∧ ptr ≠ p := by
  have halloc := fun mem' bs => hinv.allocated answers mem' bs hsize
  rw [hres] at halloc
  have hplain := halloc (overwritten c h.run.state s₁ (some p) junk h.mem)
    (List.replicate size none) (List.length_replicate ..) (fun x hx _ => if_neg hx)
    (fun _ _ i v hi => by simp [List.getElem?_replicate] at hi)
  have hne : ptr ≠ p := by
    rintro rfl
    have hnot := (List.nodup_cons.1 hplain.run.live_nodup).1
    rw [hinv.live, hobj] at hnot
    exact hnot rfl
  have hold : ∀ i v, bs[i]? = some (some v) →
      overwritten c h.run.state s₁ (some p) junk h.mem (ptr + i) = v :=
    hplain.holds ptr bs (by simp [own, Function.update_of_ne hne, hobj])
  refine ⟨halloc _ (carried bs n size) (by simp [carried]) (fun x hx hW => ?_) ?_, hne⟩
  · have hW' : ¬(p ≤ x ∧ x < p + n) := by
      rintro ⟨hle, hlt⟩
      exact hW ⟨p, rfl, hle, by omega⟩
    simp only [memcpy, if_neg hW', overwritten, if_neg hx]
  · rintro _ ⟨⟩ i v hi
    obtain ⟨hin, -, hval⟩ := getElem?_carried hi
    simp only [memcpy]
    rw [if_pos ⟨by omega, by omega⟩, Nat.add_sub_cancel_left]
    exact hold i v hval

/-- `_slab_realloc` of a live pointer: its assertion holds, and the call fails and keeps the object,
or it moves the first bytes of the object to a new one and frees it. -/
lemma Inv.slabRealloc_cases (hinv : h.Inv c) {ptr size : ℕ} {bs : List (Option UInt8)}
    (hobj : h.objs ptr = some bs) (hsize : size + c.headSize ≤ 2 ^ 64) (answers : SlabAnswers)
    (grow : Bool) (junk junk' : Memory) :
    slabRealloc c answers grow junk junk' ptr size h.run.state h.mem =
      (.returned none, h.run.state, h.mem) ∨
    (∃ s₁, slabAlloc c answers size h.run.state = (none, s₁) ∧
      slabRealloc c answers grow junk junk' ptr size h.run.state h.mem =
        (.returned none, s₁, overwritten c h.run.state s₁ none junk h.mem)) ∨
    ∃ p s₁, slabAlloc c answers size h.run.state = (some p, s₁) ∧
      slabRealloc c answers grow junk junk' ptr size h.run.state h.mem =
        (.returned (some p), (slabFree c grow ptr s₁).2,
          overwritten c s₁ (slabFree c grow ptr s₁).2 (some ptr) junk'
            (memcpy (overwritten c h.run.state s₁ (some p) junk h.mem) p ptr
              (min size ((bs.length + c.headSize) % 2 ^ 32)))) := by
  unfold slabRealloc
  by_cases hzero : size = 0
  · rw [if_pos hzero]
    exact Or.inl rfl
  rw [if_neg hzero]
  obtain ⟨a, total, hpa, -, -, -⟩ := hinv.backed ptr bs hobj
  have hpos := headSize_pos c
  cases hres : slabAlloc c answers size h.run.state with
  | mk res s₁ =>
    simp only
    rw [if_neg (show ¬ptr = 0 by omega)]
    cases res with
    | none => exact Or.inr (Or.inl ⟨s₁, rfl, rfl⟩)
    | some p =>
      obtain ⟨hcopied, hne⟩ := hinv.copied hobj hsize hres (Nat.zero_le size) junk
      have hobj' : Function.update h.objs p (some (carried bs 0 size)) ptr = some bs := by
        rw [Function.update_of_ne hne, hobj]
      obtain ⟨a', total', hpa', -, -, hhd⟩ := hcopied.backed ptr bs hobj'
      obtain ⟨a'', hpa'', hlive⟩ := hcopied.run.live_head ptr
        ((hcopied.live ptr).2 (by simp [hobj']))
      obtain rfl : a' = a := by omega
      obtain rfl : a'' = a' := by omega
      refine Or.inr (Or.inr ⟨p, s₁, rfl, ?_⟩)
      have hmagic : ¬(c.needDebug = true ∧ (s₁.heads a'').magicHead ≠ 0xfeedbeef) :=
        fun hbad => hbad.2 (hlive.magic hbad.1)
      have hhead : ptr - c.headSize = a'' := by omega
      have hmin : (if size < (s₁.heads a'').size then size else (s₁.heads a'').size) =
          min size ((bs.length + c.headSize) % 2 ^ 32) := by
        have hhd' : (s₁.heads a'').size = (bs.length + c.headSize) % 2 ^ 32 := hhd
        rw [hhd', Nat.min_def]
        split_ifs <;> omega
      simp only [hhead]
      rw [if_neg hmagic, hmin]

/-- `_slab_realloc` keeps what the other owners rely on, and moves the first bytes of its object. -/
lemma Inv.realloc (hinv : h.Inv c) (ptr size : ℕ) (answers : SlabAnswers) (grow : Bool)
    (junk junk' : Memory) : (h.call c (.realloc ptr size answers grow junk junk')).Inv c := by
  simp only [call]
  cases hobj : h.objs ptr with
  | none => exact hinv
  | some bs =>
    simp only
    split_ifs with hsize
    · rcases hinv.slabRealloc_cases hobj hsize answers grow junk junk' with hres | ⟨s₁, hall, hres⟩ |
        ⟨p, s₁, hall, hres⟩
      · rw [hres]
        exact hinv
      · rw [hres]
        have halloc := hinv.allocated answers (overwritten c h.run.state s₁ none junk h.mem)
          (List.replicate size none) hsize (List.length_replicate ..)
        rw [hall] at halloc
        exact halloc (fun x hx _ => if_neg hx) (by simp)
      · rw [hres, hall]
        obtain ⟨hcopied, hne⟩ := hinv.copied hobj hsize hall (Nat.min_le_left size
          ((bs.length + c.headSize) % 2 ^ 32)) junk
        have hlive : ptr ∈ p :: h.run.live :=
          List.mem_cons_of_mem p ((hinv.live ptr).2 (by simp [hobj]))
        have hfreed := hcopied.freed hlive grow junk'
        simp only [own]
        rw [Function.update_comm hne]
        exact hfreed
    · exact hinv

/-- One call keeps what the owners rely on. -/
lemma Inv.call (hinv : h.Inv c) (x : HeapCall) : (h.call c x).Inv c := by
  cases x with
  | alloc size answers junk => exact hinv.alloc size answers junk
  | calloc size answers junk => exact hinv.calloc size answers junk
  | realloc ptr size answers grow junk junk' => exact hinv.realloc ptr size answers grow junk junk'
  | free ptr grow junk =>
    simp only [Heap.call]
    split_ifs with hptr
    · exact hinv.freed hptr grow junk
    · exact hinv
  | write ptr off bytes => exact hinv.write ptr off bytes

/-- Every sequence of calls keeps what the owners rely on. -/
lemma Inv.calls (hinv : h.Inv c) (l : List HeapCall) : (h.calls c l).Inv c := by
  induction l generalizing h with
  | nil => exact hinv
  | cons x l ih => exact ih (hinv.call x)

end Heap

end Linglongta.Slab
