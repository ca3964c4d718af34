import Mathlib.Tactic

/-!
# The size classes of the slab allocator

`slab_init` fills a table of chunk sizes, and `slab_clsid` looks up the class of a size.  It has two
versions: a binary search (`BSEARCH_BLOCK`, the one that is compiled) and a linear one.

A `ClassTable` is any table with an empty class `0` and increasing sizes behind it.  A read of the
table outside of the indices `0..power_largest` makes the model of the search return `none`, and so
does a loop that is still running when its fuel is spent.  `clsid_searches_agree` says that neither
happens and that both searches find the class of the size: the least index whose chunks are large
enough.

The bounds of the binary search stay between `0` and `power_largest + 1`, so for the 201 classes of
the array their sum is far from the end of an `int`; the model computes with integers.
-/

namespace Linglongta

/-- `POWER_SMALLEST`. -/
def powerSmallest : ℕ := 1

/-- `POWER_LARGEST`: the last index of the array `slabclass`. -/
def powerLargestIndex : ℕ := 200

/-- `POWER_BLOCK`. -/
def powerBlock : ℕ := 1024 * 1024 * 4

/-- `CHUNK_ALIGN_BYTES`. -/
def chunkAlignBytes : ℕ := 8

/-- `TINY_SIZE`. -/
def tinySize : ℕ := 16

/-- The sizes of the classes: `power_largest` and `slabclass[i].size`. -/
structure ClassTable where
  /-- `power_largest`. -/
  powerLargest : ℕ
  /-- `slabclass[i].size`. -/
  size : ℕ → ℕ
  /-- There is a class. -/
  one_le_powerLargest : 1 ≤ powerLargest
  /-- No class stands at index `0`. -/
  size_zero : size 0 = 0
  /-- The sizes increase. -/
  size_lt : ∀ i, 1 ≤ i → i < powerLargest → size i < size (i + 1)

namespace ClassTable

variable {t : ClassTable} {size : ℕ}

/-- A larger class has larger chunks. -/
lemma size_lt_size (t : ClassTable) {i j : ℕ} (hi : 1 ≤ i) (hij : i < j)
    (hj : j ≤ t.powerLargest) : t.size i < t.size j := by
  induction j, hij using Nat.le_induction with
  | base => exact t.size_lt i hi (by omega)
  | succ j hij ih => exact (ih (by omega)).trans (t.size_lt j (by omega) (by omega))

/-- The chunks of class `1` are no larger than those of any class. -/
lemma size_one_le (t : ClassTable) {i : ℕ} (hi : 1 ≤ i) (hle : i ≤ t.powerLargest) :
    t.size 1 ≤ t.size i := by
  rcases hi.eq_or_lt with rfl | hlt
  · exact le_rfl
  · exact (t.size_lt_size le_rfl hlt hle).le

/-- `slabclass[i].size`, for an index that a search may read. -/
def read (t : ClassTable) (i : Int) : Option ℕ :=
  if 0 ≤ i ∧ i ≤ t.powerLargest then some (t.size i.toNat) else none

lemma read_natCast (t : ClassTable) {i : ℕ} (hi : i ≤ t.powerLargest) :
    t.read (i : Int) = some (t.size i) := by
  unfold read
  rw [if_pos ⟨by omega, by omega⟩, Int.toNat_natCast]

/-! ## The two searches -/

/-- The loop of the binary search. -/
def bsearchLoop (t : ClassTable) (size : ℕ) : ℕ → Int → Int → Int → Option ℕ
  | 0, _, _, _ => none
  | fuel + 1, left, right, res =>
    if left ≤ right then do
      let chunk ← t.read res
      if size < chunk then do
        let below ← t.read (res - 1)
        if below < size then
          some res.toNat
        else
          t.bsearchLoop size fuel left (res - 1) ((left + (res - 1)).tdiv 2)
      else if chunk < size then
        t.bsearchLoop size fuel (res + 1) right ((res + 1 + right).tdiv 2)
      else
        some res.toNat
    else
      some (t.powerLargest + 1)

/-- `slab_clsid` with `BSEARCH_BLOCK`. -/
def slabClsidBsearch (t : ClassTable) (fuel size : ℕ) : Option ℕ :=
  if size = 0 then
    some 0
  else
    t.bsearchLoop size fuel 1 t.powerLargest ((1 + (t.powerLargest : Int)).tdiv 2)

/-- The loop of the linear search. -/
def linearLoop (t : ClassTable) (size : ℕ) : ℕ → Int → Option ℕ
  | 0, _ => none
  | fuel + 1, res => do
    let chunk ← t.read res
    if chunk < size then
      if res = t.powerLargest then some (t.powerLargest + 1) else t.linearLoop size fuel (res + 1)
    else
      some res.toNat

/-- `slab_clsid` without `BSEARCH_BLOCK`. -/
def slabClsidLinear (t : ClassTable) (fuel size : ℕ) : Option ℕ :=
  if size = 0 then some 0 else t.linearLoop size fuel powerSmallest

/-! ## What they search for -/

/-- The class of a size: the least index whose chunks are large enough, or the one behind the last
index if there is none. -/
structure IsClass (t : ClassTable) (size id : ℕ) : Prop where
  /-- The index is one of the table, or the next. -/
  le_succ : id ≤ t.powerLargest + 1
  /-- The chunks of the class are large enough. -/
  size_le : id ≤ t.powerLargest → size ≤ t.size id
  /-- Those of the classes before it are not. -/
  lt_size : ∀ j < id, t.size j < size

/-- A size has one class. -/
lemma IsClass.unique {id id' : ℕ} (h : t.IsClass size id) (h' : t.IsClass size id') : id = id' := by
  rcases lt_trichotomy id id' with hlt | heq | hlt
  · have hle := h.size_le (by have := h'.le_succ; omega)
    exact absurd (h'.lt_size id hlt) (by omega)
  · exact heq
  · have hle := h'.size_le (by have := h.le_succ; omega)
    exact absurd (h.lt_size id' hlt) (by omega)

/-- What the binary search knows about its bounds: the chunks below `left` are too small, and those
at `right` are large enough if `right` has been moved. -/
structure Bracket (t : ClassTable) (size : ℕ) (left right : ℕ) : Prop where
  one_le_left : 1 ≤ left
  right_le : right ≤ t.powerLargest
  left_le : left ≤ right + 1
  below : ∀ j < left, t.size j < size
  above : right < t.powerLargest → size ≤ t.size right

namespace Bracket

variable {left right res : ℕ}

/-- The search has not begun. -/
lemma start (t : ClassTable) (hsize : 0 < size) : t.Bracket size 1 t.powerLargest where
  one_le_left := le_rfl
  right_le := le_rfl
  left_le := by omega
  below := by
    intro j hj
    obtain rfl : j = 0 := by omega
    rwa [t.size_zero]
  above h := absurd h (lt_irrefl _)

/-- A class that is too small moves the left bound. -/
lemma move_left (h : t.Bracket size left right) (hle : res ≤ right) (hres : t.size res < size) :
    t.Bracket size (res + 1) right where
  one_le_left := by omega
  right_le := h.right_le
  left_le := by omega
  below := by
    intro j hj
    rcases Nat.eq_zero_or_pos j with rfl | hpos
    · exact h.below 0 h.one_le_left
    · rcases Nat.eq_or_lt_of_le (Nat.le_of_lt_succ hj) with rfl | hlt
      · exact hres
      · exact (t.size_lt_size hpos hlt (hle.trans h.right_le)).trans hres
  above := h.above

/-- A class whose left neighbour is large enough moves the right bound to this neighbour. -/
lemma move_right (h : t.Bracket size left right) (hleft : left ≤ res) (hle : res ≤ right)
    (hres : size ≤ t.size (res - 1)) : t.Bracket size left (res - 1) where
  one_le_left := h.one_le_left
  right_le := by have := h.right_le; omega
  left_le := by omega
  below := h.below
  above _ := hres

/-- The neighbour of a class is too small, and the class is not. -/
lemma isClass_of_neighbour (h : t.Bracket size left right) (hleft : left ≤ res) (hle : res ≤ right)
    (hbelow : t.size (res - 1) < size) (hres : size ≤ t.size res) : t.IsClass size res where
  le_succ := by have := h.right_le; omega
  size_le _ := hres
  lt_size := by
    have hone := h.one_le_left
    have hright := h.right_le
    intro j hj
    rcases Nat.eq_zero_or_pos j with rfl | hpos
    · exact h.below 0 h.one_le_left
    · rcases (show j ≤ res - 1 by omega).eq_or_lt with rfl | hlt
      · exact hbelow
      · exact (t.size_lt_size hpos hlt (by omega)).trans hbelow

/-- A class of exactly the size. -/
lemma isClass_of_eq (h : t.Bracket size left right) (hle : res ≤ right)
    (hres : t.size res = size) : t.IsClass size res where
  le_succ := by have := h.right_le; omega
  size_le _ := hres.ge
  lt_size := by
    intro j hj
    rcases Nat.eq_zero_or_pos j with rfl | hpos
    · exact h.below 0 h.one_le_left
    · exact (t.size_lt_size hpos hj (hle.trans h.right_le)).trans_eq hres

/-- When the bounds have crossed, no class is large enough: the right bound has never been moved. -/
lemma isClass_of_crossed (h : t.Bracket size left right) (hcrossed : right < left) :
    t.IsClass size (t.powerLargest + 1) where
  le_succ := le_rfl
  size_le hle := by omega
  lt_size := by
    have hright : right = t.powerLargest := by
      by_contra hne
      have hlarge := h.above (lt_of_le_of_ne h.right_le hne)
      exact absurd (h.below right hcrossed) (by omega)
    intro j hj
    exact h.below j (by omega)

end Bracket

/-- The binary search ends with the class of the size.  The distance of its bounds decreases in
every round. -/
lemma bsearchLoop_spec (fuel : ℕ) {left right : ℕ} (h : t.Bracket size left right)
    (hfuel : right + 1 - left < fuel) :
    ∃ id, t.bsearchLoop size fuel left right (((left : Int) + right).tdiv 2) = some id ∧
      t.IsClass size id := by
  induction fuel generalizing left right with
  | zero => omega
  | succ fuel ih =>
    have hone := h.one_le_left
    have hright := h.right_le
    by_cases hle : left ≤ right
    swap
    · refine ⟨t.powerLargest + 1, ?_, h.isClass_of_crossed (by omega)⟩
      rw [bsearchLoop, if_neg (by omega)]
    obtain ⟨res, hres⟩ : ∃ res : ℕ, ((left : Int) + right).tdiv 2 = res :=
      ⟨(left + right) / 2, by rw [Int.tdiv_eq_ediv_of_nonneg (by omega)]; omega⟩
    have hmid : (res : Int) = (left + right) / 2 := by
      rw [← hres, Int.tdiv_eq_ediv_of_nonneg (by omega)]
    have hleft : left ≤ res := by omega
    have hresle : res ≤ right := by omega
    have hpred : ((res : Int) - 1) = ((res - 1 : ℕ) : Int) := by omega
    rw [hres, bsearchLoop, if_pos (by omega), t.read_natCast (hresle.trans hright), hpred,
      t.read_natCast (by omega)]
    simp only [Option.bind_eq_bind, Option.bind_some, Int.toNat_natCast]
    split_ifs with hlt hbelow hgt
    · exact ⟨res, rfl, h.isClass_of_neighbour hleft hresle hbelow hlt.le⟩
    · exact ih (h.move_right hleft hresle (by omega)) (by omega)
    · have hsucc : ((res : Int) + 1) = ((res + 1 : ℕ) : Int) := by omega
      rw [hsucc]
      exact ih (h.move_left hresle hgt) (by omega)
    · exact ⟨res, rfl, h.isClass_of_eq hresle (by omega)⟩

/-- The linear search ends with the class of the size. -/
lemma linearLoop_spec (fuel : ℕ) {res : ℕ} (hle : res ≤ t.powerLargest)
    (hbelow : ∀ j < res, t.size j < size) (hfuel : t.powerLargest < res + fuel) :
    ∃ id, t.linearLoop size fuel res = some id ∧ t.IsClass size id := by
  induction fuel generalizing res with
  | zero => omega
  | succ fuel ih =>
    have hbelow' : t.size res < size → ∀ j < res + 1, t.size j < size := by
      intro hres j hj
      rcases (Nat.le_of_lt_succ hj).eq_or_lt with rfl | hlt
      · exact hres
      · exact hbelow j hlt
    rw [linearLoop, t.read_natCast hle]
    simp only [Option.bind_eq_bind, Option.bind_some, Int.toNat_natCast]
    split_ifs with hres hlast
    · obtain rfl : res = t.powerLargest := by omega
      exact ⟨_, rfl, le_rfl, fun h => by omega, hbelow' hres⟩
    · have hsucc : ((res : Int) + 1) = ((res + 1 : ℕ) : Int) := by omega
      rw [hsucc]
      exact ih (by omega) (hbelow' hres) (by omega)
    · exact ⟨res, rfl, by omega, fun _ => by omega, hbelow⟩

/-- With fuel for one round more than there are classes, `slab_clsid` returns the class of the
size. -/
lemma slabClsidBsearch_spec (t : ClassTable) (hsize : 0 < size) {fuel : ℕ}
    (hfuel : t.powerLargest < fuel) :
    ∃ id, t.slabClsidBsearch fuel size = some id ∧ t.IsClass size id := by
  unfold slabClsidBsearch
  rw [if_neg hsize.ne']
  have hspec := bsearchLoop_spec fuel (Bracket.start t hsize) (by omega)
  rwa [Nat.cast_one] at hspec

lemma slabClsidLinear_spec (t : ClassTable) (hsize : 0 < size) {fuel : ℕ}
    (hfuel : t.powerLargest < fuel) :
    ∃ id, t.slabClsidLinear fuel size = some id ∧ t.IsClass size id := by
  unfold slabClsidLinear
  rw [if_neg hsize.ne']
  exact linearLoop_spec fuel t.one_le_powerLargest (Bracket.start t hsize).below (by omega)

/-- `slab_clsid` as it is compiled, with the fuel its loop needs. -/
def slabClsid (t : ClassTable) (size : ℕ) : ℕ :=
  (t.slabClsidBsearch (t.powerLargest + 1) size).getD 0

@[simp] lemma slabClsid_zero (t : ClassTable) : t.slabClsid 0 = 0 := rfl

lemma slabClsid_isClass (t : ClassTable) (hsize : 0 < size) :
    t.IsClass size (t.slabClsid size) := by
  obtain ⟨id, hid, hclass⟩ := t.slabClsidBsearch_spec hsize (Nat.lt_succ_self _)
  unfold slabClsid
  rw [hid, Option.getD_some]
  exact hclass

end ClassTable

/-- Both versions of `slab_clsid` return the class of the size.  Their loops make at most one round
more than there are classes, and read the table at its own indices only. -/
theorem clsid_searches_agree (t : ClassTable) {size : ℕ} (hsize : 0 < size) :
    ∃ id, t.IsClass size id ∧ ∀ fuel, t.powerLargest < fuel →
      t.slabClsidBsearch fuel size = some id ∧ t.slabClsidLinear fuel size = some id := by
  refine ⟨t.slabClsid size, t.slabClsid_isClass hsize, fun fuel hfuel => ?_⟩
  obtain ⟨id, hid, hclass⟩ := t.slabClsidBsearch_spec hsize hfuel
  obtain ⟨id', hid', hclass'⟩ := t.slabClsidLinear_spec hsize hfuel
  rw [hid, hid', (t.slabClsid_isClass hsize).unique hclass, hclass'.unique hclass]
  exact ⟨rfl, rfl⟩

/-- Three classes. -/
def threeClasses : ClassTable where
  powerLargest := 3
  size i := 16 * i
  one_le_powerLargest := by decide
  size_zero := rfl
  size_lt i _ _ := by omega

/-- A size next to a boundary: 32 bytes are in class 2 and 33 are not. -/
theorem clsid_searches_agree_boundary :
    threeClasses.slabClsidBsearch 4 32 = some 2 ∧ threeClasses.slabClsidLinear 4 32 = some 2 ∧
      threeClasses.slabClsidBsearch 4 33 = some 3 ∧
      ∃ id, threeClasses.IsClass 33 id ∧ ∀ fuel, threeClasses.powerLargest < fuel →
        threeClasses.slabClsidBsearch fuel 33 = some id ∧
          threeClasses.slabClsidLinear fuel 33 = some id :=
  ⟨by decide, by decide, by decide, clsid_searches_agree threeClasses (by decide)⟩

/-! ## The table of `slab_init` -/

/-- Make sure items are always `n`-byte aligned. -/
def alignChunk (size : ℕ) : ℕ :=
  if size % chunkAlignBytes ≠ 0 then size + (chunkAlignBytes - size % chunkAlignBytes) else size

/-- The loop of `slab_init`, with the number of rounds left.  `grow` is `(int)((double)size *
factor)`. -/
def slabInitLoop (grow : ℕ → ℕ) : ℕ → ℕ → ℕ → (ℕ → ℕ) → ℕ × (ℕ → ℕ)
  | 0, i, _, sizes => (i, sizes)
  | fuel + 1, i, size, sizes =>
    if i + 1 < powerLargestIndex ∧ size ≤ powerBlock / 2 then
      slabInitLoop grow fuel (i + 1) (grow (alignChunk size))
        (Function.update sizes (i + 1) (alignChunk size))
    else
      (i + 1, sizes)

/-- The table that `slab_init` makes: `power_largest` and the sizes. -/
def slabInit (grow : ℕ → ℕ) : ℕ × (ℕ → ℕ) :=
  let r := slabInitLoop grow powerLargestIndex (powerSmallest - 1) tinySize fun _ => 0
  (r.1, Function.update r.2 r.1 powerBlock)

/-- What holds of the sizes up to index `i` when the loop is about to look at the next one. -/
structure Filled (i size : ℕ) (sizes : ℕ → ℕ) : Prop where
  index_lt : i < powerLargestIndex
  size_zero : sizes 0 = 0
  size_lt : ∀ j, 1 ≤ j → j < i → sizes j < sizes (j + 1)
  tiny_le : ∀ j, 1 ≤ j → j ≤ i → tinySize ≤ sizes j
  le_half : ∀ j, 1 ≤ j → j ≤ i → sizes j ≤ powerBlock / 2
  next_lt : 1 ≤ i → sizes i < size
  tiny_le_next : tinySize ≤ size

lemma le_alignChunk (size : ℕ) : size ≤ alignChunk size := by
  unfold alignChunk
  split
  · omega
  · exact le_rfl

lemma alignChunk_le_half {size : ℕ} (h : size ≤ powerBlock / 2) :
    alignChunk size ≤ powerBlock / 2 := by
  unfold alignChunk chunkAlignBytes
  unfold powerBlock at *
  split <;> omega

/-- One more class. -/
lemma Filled.next {grow : ℕ → ℕ} (hgrow : ∀ s, tinySize ≤ s → s < grow s) {i size : ℕ}
    {sizes : ℕ → ℕ} (h : Filled i size sizes) (hi : i + 1 < powerLargestIndex)
    (hsize : size ≤ powerBlock / 2) :
    Filled (i + 1) (grow (alignChunk size)) (Function.update sizes (i + 1) (alignChunk size)) := by
  have hold : ∀ j ≤ i, Function.update sizes (i + 1) (alignChunk size) j = sizes j :=
    fun j hj => Function.update_of_ne (by omega) _ _
  have hnew : Function.update sizes (i + 1) (alignChunk size) (i + 1) = alignChunk size :=
    Function.update_self _ _ _
  have htiny : tinySize ≤ alignChunk size := h.tiny_le_next.trans (le_alignChunk size)
  have hgrown := hgrow _ htiny
  refine ⟨hi, ?_, ?_, ?_, ?_, ?_, htiny.trans hgrown.le⟩
  · rw [hold 0 (by omega), h.size_zero]
  · intro j hj hlt
    rcases (Nat.le_of_lt_succ hlt).eq_or_lt with rfl | hlt'
    · rw [hold j le_rfl, hnew]
      exact (h.next_lt hj).trans_le (le_alignChunk size)
    · rw [hold j (by omega), hold (j + 1) (by omega)]
      exact h.size_lt j hj hlt'
  · intro j hj hle
    rcases hle.eq_or_lt with rfl | hlt
    · rwa [hnew]
    · rw [hold j (by omega)]
      exact h.tiny_le j hj (by omega)
  · intro j hj hle
    rcases hle.eq_or_lt with rfl | hlt
    · rw [hnew]
      exact alignChunk_le_half hsize
    · rw [hold j (by omega)]
      exact h.le_half j hj (by omega)
  · intro _
    rwa [hnew]

/-- The loop ends behind the classes it has filled. -/
lemma Filled.loop {grow : ℕ → ℕ} (hgrow : ∀ s, tinySize ≤ s → s < grow s) (fuel : ℕ) {i size : ℕ}
    {sizes : ℕ → ℕ} (h : Filled i size sizes) (hfuel : powerLargestIndex ≤ i + fuel) :
    ∃ n size' sizes', slabInitLoop grow fuel i size sizes = (n + 1, sizes') ∧
      Filled n size' sizes' := by
  induction fuel generalizing i size sizes with
  | zero =>
    have hlt := h.index_lt
    omega
  | succ fuel ih =>
    rw [slabInitLoop]
    split_ifs with hcond
    · exact ih (h.next hgrow hcond.1 hcond.2) (by omega)
    · exact ⟨i, size, sizes, rfl, h⟩

/-- The table with `POWER_BLOCK` behind the classes that the loop has filled. -/
def Filled.table {n size : ℕ} {sizes : ℕ → ℕ} (h : Filled n size sizes) : ClassTable where
  powerLargest := n + 1
  size := Function.update sizes (n + 1) powerBlock
  one_le_powerLargest := by omega
  size_zero := by rw [Function.update_of_ne (by omega), h.size_zero]
  size_lt := by
    intro j hj hlt
    rw [Function.update_of_ne (by omega : j ≠ n + 1)]
    rcases (Nat.le_of_lt_succ hlt).eq_or_lt with rfl | hlt'
    · rw [Function.update_self]
      exact (h.le_half j hj le_rfl).trans_lt (by decide)
    · rw [Function.update_of_ne (by omega)]
      exact h.size_lt j hj hlt'

/-- If the sizes grow, `slab_init` makes a table of increasing sizes from `TINY_SIZE` up to
`POWER_BLOCK`, and the array has room for it. -/
lemma slabInit_spec {grow : ℕ → ℕ} (hgrow : ∀ s, tinySize ≤ s → s < grow s) :
    ∃ t : ClassTable, slabInit grow = (t.powerLargest, t.size) ∧
      t.powerLargest ≤ powerLargestIndex ∧ tinySize ≤ t.size 1 ∧
      t.size t.powerLargest = powerBlock := by
  have hstart : Filled (powerSmallest - 1) tinySize fun _ => 0 := by
    unfold powerSmallest
    exact ⟨by decide, rfl, fun j _ h => absurd h (Nat.not_lt_zero j), fun j hj h => by omega,
      fun j hj h => by omega, fun h => by omega, le_rfl⟩
  obtain ⟨n, size, sizes, hloop, hfilled⟩ :=
    hstart.loop hgrow powerLargestIndex (Nat.le_add_left _ _)
  refine ⟨hfilled.table, ?_, hfilled.index_lt, ?_, Function.update_self _ _ _⟩
  · unfold slabInit
    simp only [hloop]
    rfl
  · change tinySize ≤ Function.update sizes (n + 1) powerBlock 1
    rcases Nat.eq_zero_or_pos n with rfl | hpos
    · rw [Nat.zero_add, Function.update_self]
      decide
    · rw [Function.update_of_ne (by omega)]
      exact hfilled.tiny_le 1 le_rfl hpos

/-- The table that `slab_init` makes if the sizes grow. -/
def slabInitTable (grow : ℕ → ℕ) (hgrow : ∀ s, tinySize ≤ s → s < grow s) : ClassTable where
  powerLargest := (slabInit grow).1
  size := (slabInit grow).2
  one_le_powerLargest := by
    obtain ⟨t, ht, -⟩ := slabInit_spec hgrow
    rw [ht]
    exact t.one_le_powerLargest
  size_zero := by
    obtain ⟨t, ht, -⟩ := slabInit_spec hgrow
    rw [ht]
    exact t.size_zero
  size_lt := by
    obtain ⟨t, ht, -⟩ := slabInit_spec hgrow
    rw [ht]
    exact t.size_lt

lemma slabInitTable_bounds (grow : ℕ → ℕ) (hgrow : ∀ s, tinySize ≤ s → s < grow s) :
    (slabInitTable grow hgrow).powerLargest ≤ powerLargestIndex ∧
      tinySize ≤ (slabInitTable grow hgrow).size 1 ∧
      (slabInitTable grow hgrow).size (slabInitTable grow hgrow).powerLargest = powerBlock := by
  obtain ⟨t, ht, hbounds⟩ := slabInit_spec hgrow
  unfold slabInitTable
  simp only [ht]
  exact hbounds

end Linglongta
