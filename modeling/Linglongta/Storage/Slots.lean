import Linglongta.Foundations.Ownership
import Linglongta.Storage.Outcomes

/-!
# Slots and who holds them

The data section of a block file is cut into slots of the block size.  A slot that was carved from
the file is held by the index entry of a record, by an entry of the list of free slots, or, in the
middle of an operation, by the operation itself (its hand); or it has been leaked.  `SlotInv` says
that no slot is held twice and that `block_cnt + free_slots_cnt` slots have been carved.

Each thing an operation does to the table of block files or to the index moves one slot from one
holder to another: `SlotInv.take`, `SlotInv.insert`, `SlotInv.unindex`, `SlotInv.free`.
-/

namespace Linglongta

/-- Who may hold a slot of a block file. -/
inductive Holder
  /-- The index entry of a key. -/
  | live (k : Key)
  /-- An entry of the list of free slots. -/
  | free (i : ℕ)
  /-- The operation in progress. -/
  | hand
deriving DecidableEq

/-- The offset of a slot. -/
def slotOffset (cfg : Config) (b j : ℕ) : ℕ :=
  dataSectionPos + cfg.blockSizeArray b * j

/-- The number of slots that have been carved from a block file. -/
def BlockFile.carved (fh : BlockFile) : ℕ :=
  fh.blockCnt + fh.freeSlotsCnt

/-- A holder holds the slot at an offset of a block file; `hand` is the block file and the offset of
the slot that the operation in progress holds. -/
def Owns (fh : ℕ → BlockFile) (index : Key → Option IndexValue) (hand : Option (ℕ × ℕ)) (b : ℕ) :
    Holder → ℕ → Prop
  | .live k, off => ∃ iv, index k = some iv ∧ iv.blockId = b ∧ iv.offset = off
  | .free i, off => i < (fh b).freeSlotsCnt ∧ (fh b).freeSlotsOffset i = off
  | .hand, off => hand = some (b, off)

/-- The slot invariant of the table of block files and the index. -/
structure SlotInv (cfg : Config) (fh : ℕ → BlockFile) (index : Key → Option IndexValue)
    (hand : Option (ℕ × ℕ)) : Prop where
  /-- The table is not longer than its array. -/
  types : cfg.blockTypeCount ≤ maxBlockCnt
  /-- The block sizes double. -/
  sizes : ∀ b < cfg.blockTypeCount, cfg.blockSizeArray b = beginningSize * 2 ^ b
  /-- Each table entry has its file open. -/
  opened : ∀ b < cfg.blockTypeCount, (fh b).fd = some (.data (cfg.blockSizeArray b))
  /-- Each table entry knows its block size. -/
  blockSize : ∀ b < cfg.blockTypeCount, (fh b).blockSize = cfg.blockSizeArray b
  /-- The list of free slots fits its array. -/
  room : ∀ b < cfg.blockTypeCount, (fh b).freeSlotsCnt ≤ maxFreeSlots
  /-- An index entry names a file of the table, and its record fits a slot of it. -/
  live : ∀ k iv, index k = some iv →
    iv.blockId < cfg.blockTypeCount ∧ iv.dataSize ≤ cfg.blockSizeArray iv.blockId
  /-- What is held is one of the carved slots. -/
  slot : ∀ b < cfg.blockTypeCount, ∀ x off, Owns fh index hand b x off →
    ∃ j < (fh b).carved, off = slotOffset cfg b j
  /-- No slot is held twice. -/
  exclusive : ∀ b < cfg.blockTypeCount, Exclusive (Owns fh index hand b)

section SlotInv

variable {cfg : Config} {fh : ℕ → BlockFile} {index : Key → Option IndexValue}
variable {hand : Option (ℕ × ℕ)} {b : ℕ}

/-- Changing the table entry of one file does not change who holds the slots of another. -/
lemma owns_update_of_ne {b' : ℕ} (hne : b' ≠ b) (e : BlockFile) (x : Holder) (off : ℕ) :
    Owns (Function.update fh b e) index hand b' x off ↔ Owns fh index hand b' x off := by
  cases x <;> simp [Owns, Function.update_of_ne hne]

/-- The block sizes are positive. -/
lemma SlotInv.size_pos (hi : SlotInv cfg fh index hand) (hb : b < cfg.blockTypeCount) :
    0 < cfg.blockSizeArray b := by
  rw [hi.sizes b hb]
  exact Nat.mul_pos (by decide) (Nat.pow_pos (by decide))

/-- Different slots have different offsets. -/
lemma slotOffset_inj (hpos : 0 < cfg.blockSizeArray b) {i j : ℕ}
    (h : slotOffset cfg b i = slotOffset cfg b j) : i = j := by
  unfold slotOffset at h
  exact Nat.eq_of_mul_eq_mul_left hpos (by omega)

/-- The hand may be forgotten: the slot is leaked. -/
lemma SlotInv.drop (hi : SlotInv cfg fh index hand) : SlotInv cfg fh index none := by
  have hsub : ∀ b x off, Owns fh index none b x off → Owns fh index hand b x off := by
    intro b x off hx
    cases x with
    | live k => exact hx
    | free i => exact hx
    | hand => simp [Owns] at hx
  exact ⟨hi.types, hi.sizes, hi.opened, hi.blockSize, hi.room, hi.live,
    fun b hb x off hx => hi.slot b hb x off (hsub b x off hx),
    fun b hb => (hi.exclusive b hb).mono (hsub b)⟩

/-- While a slot is held outside the list of free slots, `block_cnt` is positive. -/
lemma SlotInv.blockCnt_pos (hi : SlotInv cfg fh index hand) (hb : b < cfg.blockTypeCount)
    {x : Holder} {off : ℕ} (hx : Owns fh index hand b x off) (hne : ∀ i, x ≠ .free i) :
    0 < (fh b).blockCnt := by
  -- the holder and the free slots are different holders of carved slots
  have hfree : Function.Injective Holder.free := fun i j h => by simpa using h
  have hnot : x ∉ (Finset.range (fh b).freeSlotsCnt).map ⟨Holder.free, hfree⟩ := by
    intro hmem
    obtain ⟨i, -, hxi⟩ := Finset.mem_map.1 hmem
    exact hne i hxi.symm
  have hcard := (hi.exclusive b hb).card_le
    (insert x ((Finset.range (fh b).freeSlotsCnt).map ⟨Holder.free, hfree⟩))
    ((Finset.range (fh b).carved).image (slotOffset cfg b)) ?_
  · rw [Finset.card_insert_of_notMem hnot, Finset.card_map, Finset.card_range] at hcard
    have himage : ((Finset.range (fh b).carved).image (slotOffset cfg b)).card ≤ (fh b).carved :=
      Finset.card_image_le.trans (Finset.card_range _).le
    have : (fh b).carved = (fh b).blockCnt + (fh b).freeSlotsCnt := rfl
    omega
  · intro y hy
    have hown : ∃ off, Owns fh index hand b y off := by
      rcases Finset.mem_insert.1 hy with rfl | hmem
      · exact ⟨off, hx⟩
      · obtain ⟨i, hi', rfl⟩ := Finset.mem_map.1 hmem
        exact ⟨(fh b).freeSlotsOffset i, Finset.mem_range.1 hi', rfl⟩
    obtain ⟨off', hoff⟩ := hown
    obtain ⟨j, hj, rfl⟩ := hi.slot b hb y off' hoff
    exact ⟨_, Finset.mem_image_of_mem _ (Finset.mem_range.2 hj), hoff⟩

/-- Changing the table entry of one file: what has to be shown is about the slots of this file, if
the operation in progress holds no slot of another one. -/
lemma SlotInv.update (hi : SlotInv cfg fh index hand) {e : BlockFile} {hand' : Option (ℕ × ℕ)}
    (hhand : ∀ b' off, hand' = some (b', off) → b' = b) (hfd : e.fd = (fh b).fd)
    (hsize : e.blockSize = (fh b).blockSize) (hroom : e.freeSlotsCnt ≤ maxFreeSlots)
    (hslot : ∀ x off, Owns (Function.update fh b e) index hand' b x off →
      ∃ j < e.carved, off = slotOffset cfg b j)
    (hexclusive : Exclusive (Owns (Function.update fh b e) index hand' b)) :
    SlotInv cfg (Function.update fh b e) index hand' := by
  have hother : ∀ b', b' ≠ b → ∀ x off, Owns (Function.update fh b e) index hand' b' x off →
      Owns fh index hand b' x off := by
    intro b' hne x off hx
    rw [owns_update_of_ne hne] at hx
    cases x with
    | live k => exact hx
    | free i => exact hx
    | hand => exact absurd (hhand b' off hx) hne
  refine ⟨hi.types, hi.sizes, ?_, ?_, ?_, hi.live, ?_, ?_⟩
  · intro b' hb'
    by_cases hne : b' = b
    · subst hne
      simpa [hfd] using hi.opened b' hb'
    · simpa [Function.update_of_ne hne] using hi.opened b' hb'
  · intro b' hb'
    by_cases hne : b' = b
    · subst hne
      simpa [hsize] using hi.blockSize b' hb'
    · simpa [Function.update_of_ne hne] using hi.blockSize b' hb'
  · intro b' hb'
    by_cases hne : b' = b
    · subst hne
      simpa using hroom
    · simpa [Function.update_of_ne hne] using hi.room b' hb'
  · intro b' hb' x off hx
    by_cases hne : b' = b
    · subst hne
      rw [Function.update_self]
      exact hslot x off hx
    · rw [Function.update_of_ne hne]
      exact hi.slot b' hb' x off (hother b' hne x off hx)
  · intro b' hb'
    by_cases hne : b' = b
    · subst hne
      exact hexclusive
    · exact (hi.exclusive b' hb').mono (hother b' hne)

/-! ## Taking a slot -/

/-- The offset that `append_block` uses. -/
lemma takeSlot_offset (e : BlockFile) : e.takeSlot.1 =
    if e.freeSlotsCnt ≠ 0 then e.freeSlotsOffset (e.freeSlotsCnt - 1)
    else dataSectionPos + e.blockSize * e.blockCnt := by
  unfold BlockFile.takeSlot
  split <;> simp

/-- Taking a slot off the list carves nothing; with an empty list one slot is carved. -/
lemma carved_takeSlot (e : BlockFile) : e.takeSlot.2.carved =
    if e.freeSlotsCnt ≠ 0 then e.carved else e.carved + 1 := by
  unfold BlockFile.takeSlot BlockFile.carved
  split <;> simp <;> omega

/-- The list of free slots after a slot has been taken. -/
lemma takeSlot_free (e : BlockFile) (i : ℕ) (hi : i < e.takeSlot.2.freeSlotsCnt) :
    i + 1 < e.freeSlotsCnt ∧ e.takeSlot.2.freeSlotsOffset i = e.freeSlotsOffset i := by
  unfold BlockFile.takeSlot at hi ⊢
  split at hi
  · rename_i hne
    rw [if_pos hne]
    simp only at hi ⊢
    exact ⟨by omega, Function.update_of_ne (by omega) _ _⟩
  · simp_all

@[simp] lemma blockSize_takeSlot (e : BlockFile) : e.takeSlot.2.blockSize = e.blockSize := by
  unfold BlockFile.takeSlot
  split <;> rfl

/-- `append_block` takes a slot: it is held by the operation. -/
lemma SlotInv.take (hi : SlotInv cfg fh index none) (hb : b < cfg.blockTypeCount) :
    SlotInv cfg (Function.update fh b (fh b).takeSlot.2) index (some (b, (fh b).takeSlot.1)) := by
  have hcarved : (fh b).carved ≤ (fh b).takeSlot.2.carved := by
    rw [carved_takeSlot]
    split <;> omega
  -- a holder of a slot of the file held it before, or is the hand with the slot just taken
  have hself : ∀ x off,
      Owns (Function.update fh b (fh b).takeSlot.2) index (some (b, (fh b).takeSlot.1)) b x off →
        (x = .hand ∧ off = (fh b).takeSlot.1) ∨
          (Owns fh index none b x off ∧ (∀ i, x = .free i → i + 1 < (fh b).freeSlotsCnt)) := by
    intro x off hx
    cases x with
    | live k => exact Or.inr ⟨hx, by simp⟩
    | free i =>
      obtain ⟨hlt, heq⟩ := hx
      rw [Function.update_self] at hlt heq
      obtain ⟨hlt', heq'⟩ := takeSlot_free (fh b) i hlt
      exact Or.inr ⟨⟨by omega, heq'.symm.trans heq⟩, by rintro j ⟨⟩; exact hlt'⟩
    | hand => exact Or.inl ⟨rfl, by simpa [Owns, eq_comm] using hx⟩
  refine hi.update (fun b' off h => (Prod.mk.inj (Option.some.inj h)).1.symm) (fd_takeSlot _)
    (blockSize_takeSlot _) ?_ ?_ ?_
  · have hroom := hi.room b hb
    unfold BlockFile.takeSlot
    split <;> simp only <;> omega
  · intro x off hx
    rcases hself x off hx with ⟨-, rfl⟩ | ⟨hx', -⟩
    · rw [takeSlot_offset, carved_takeSlot]
      split
      · rename_i hcnt
        exact hi.slot b hb (.free ((fh b).freeSlotsCnt - 1)) _ ⟨by omega, rfl⟩
      · rename_i hcnt
        refine ⟨(fh b).carved, by omega, ?_⟩
        rw [hi.blockSize b hb, slotOffset, BlockFile.carved]
        simp only [ne_eq, not_not] at hcnt
        rw [hcnt, Nat.add_zero]
    · obtain ⟨j, hj, hoff⟩ := hi.slot b hb x off hx'
      exact ⟨j, by omega, hoff⟩
  · by_cases hcnt : (fh b).freeSlotsCnt = 0
    · -- a new slot: nobody held it
      refine (hi.exclusive b hb).adopt .hand (fh b).takeSlot.1 ?_ ?_
      · intro x hx
        obtain ⟨j, hj, hoff⟩ := hi.slot b hb x _ hx
        rw [takeSlot_offset, if_neg (by simpa using hcnt), hi.blockSize b hb] at hoff
        have : (fh b).blockCnt = j := slotOffset_inj (hi.size_pos hb) hoff
        rw [BlockFile.carved] at hj
        omega
      · intro x off hx
        rcases hself x off hx with h | ⟨h, -⟩
        · exact Or.inl h
        · exact Or.inr h
    · -- the last free slot changes hands
      refine (hi.exclusive b hb).transfer (.free ((fh b).freeSlotsCnt - 1)) .hand ?_
      intro x off hx
      rcases hself x off hx with ⟨rfl, rfl⟩ | ⟨hx', hfree⟩
      · rw [if_pos rfl, takeSlot_offset, if_pos hcnt]
        exact ⟨by simp, by omega, rfl⟩
      · have hhand : x ≠ .hand := by
          rintro rfl
          simp [Owns] at hx'
        rw [if_neg hhand]
        refine ⟨fun hlast => ?_, hx'⟩
        have := hfree _ hlast
        omega

/-- The slot that `append_block` takes is not that of a record. -/
lemma SlotInv.take_not_live (hi : SlotInv cfg fh index none) {k : Key} {iv : IndexValue}
    (hk : index k = some iv) : iv.offset ≠ (fh iv.blockId).takeSlot.1 := by
  intro hoff
  have hb := (hi.live k iv hk).1
  have hlive : Owns (Function.update fh iv.blockId (fh iv.blockId).takeSlot.2) index
      (some (iv.blockId, (fh iv.blockId).takeSlot.1)) iv.blockId (.live k) iv.offset :=
    ⟨iv, hk, rfl, rfl⟩
  have hhand : Owns (Function.update fh iv.blockId (fh iv.blockId).takeSlot.2) index
      (some (iv.blockId, (fh iv.blockId).takeSlot.1)) iv.blockId .hand iv.offset := by
    simp [Owns, hoff]
  exact absurd ((hi.take hb).exclusive iv.blockId hb _ _ _ hlive hhand) (by simp)

/-! ## The index -/

/-- A change of the index and of the hand after which nothing is held that was not held before. -/
lemma SlotInv.of_owns {index' : Key → Option IndexValue} {hand' : Option (ℕ × ℕ)}
    (hi : SlotInv cfg fh index hand)
    (hlive : ∀ k iv, index' k = some iv →
      iv.blockId < cfg.blockTypeCount ∧ iv.dataSize ≤ cfg.blockSizeArray iv.blockId)
    (hslot : ∀ b x off, Owns fh index' hand' b x off → ∃ y, Owns fh index hand b y off)
    (hexcl : ∀ b < cfg.blockTypeCount, Exclusive (Owns fh index' hand' b)) :
    SlotInv cfg fh index' hand' := by
  refine ⟨hi.types, hi.sizes, hi.opened, hi.blockSize, hi.room, hlive, ?_, hexcl⟩
  intro b hb x off hx
  obtain ⟨y, hy⟩ := hslot b x off hx
  exact hi.slot b hb y off hy

/-- An entry of a changed index. -/
lemma update_index_cases {k k' : Key} {v : Option IndexValue} {iv : IndexValue}
    (h : Function.update index k v k' = some iv) :
    k' = k ∧ v = some iv ∨ k' ≠ k ∧ index k' = some iv := by
  by_cases hk : k' = k
  · subst hk
    rw [Function.update_self] at h
    exact Or.inl ⟨rfl, h⟩
  · rw [Function.update_of_ne hk] at h
    exact Or.inr ⟨hk, h⟩

/-- The index value of a record is put under a key: the slot in the hand is now held by the key. -/
lemma SlotInv.insert {iv : IndexValue} (hi : SlotInv cfg fh index (some (iv.blockId, iv.offset)))
    (k : Key) (hb : iv.blockId < cfg.blockTypeCount)
    (hsize : iv.dataSize ≤ cfg.blockSizeArray iv.blockId) :
    SlotInv cfg fh (Function.update index k (some iv)) none := by
  have htransfer : ∀ b x off, Owns fh (Function.update index k (some iv)) none b x off →
      x ≠ .hand ∧ Owns fh index (some (iv.blockId, iv.offset)) b
        (if x = .live k then .hand else x) off := by
    intro b x off hx
    cases x with
    | live k' =>
      obtain ⟨iv', hk', rfl, rfl⟩ := hx
      rcases update_index_cases hk' with ⟨rfl, h⟩ | ⟨hne, h⟩
      · obtain rfl : iv = iv' := by simpa using h
        simp [Owns]
      · simpa [hne, Owns] using ⟨iv', h, rfl, rfl⟩
    | free i => simpa [Owns] using hx
    | hand => simp [Owns] at hx
  refine hi.of_owns ?_ (fun b x off hx => ⟨_, (htransfer b x off hx).2⟩)
    (fun b hb => (hi.exclusive b hb).transfer .hand (.live k) (htransfer b))
  intro k' iv' hk'
  rcases update_index_cases hk' with ⟨-, h⟩ | ⟨-, h⟩
  · obtain rfl : iv = iv' := by simpa using h
    exact ⟨hb, hsize⟩
  · exact hi.live k' iv' h

/-- The value under a key is replaced by one for the same slot. -/
lemma SlotInv.replace (hi : SlotInv cfg fh index none) {k : Key} {iv iv' : IndexValue}
    (hk : index k = some iv) (hb : iv'.blockId = iv.blockId) (hoff : iv'.offset = iv.offset)
    (hsize : iv'.dataSize ≤ cfg.blockSizeArray iv'.blockId) :
    SlotInv cfg fh (Function.update index k (some iv')) none := by
  have hsub : ∀ b x off, Owns fh (Function.update index k (some iv')) none b x off →
      Owns fh index none b x off := by
    intro b x off hx
    cases x with
    | live k' =>
      obtain ⟨iv'', hk', rfl, rfl⟩ := hx
      rcases update_index_cases hk' with ⟨rfl, h⟩ | ⟨-, h⟩
      · obtain rfl : iv' = iv'' := by simpa using h
        exact ⟨iv, hk, hb.symm, hoff.symm⟩
      · exact ⟨iv'', h, rfl, rfl⟩
    | free i => exact hx
    | hand => exact hx
  refine hi.of_owns ?_ (fun b x off hx => ⟨x, hsub b x off hx⟩)
    (fun b hb => (hi.exclusive b hb).mono (hsub b))
  intro k' iv'' hk'
  rcases update_index_cases hk' with ⟨-, h⟩ | ⟨-, h⟩
  · obtain rfl : iv' = iv'' := by simpa using h
    exact ⟨hb ▸ (hi.live k iv hk).1, hsize⟩
  · exact hi.live k' iv'' h

/-- The value under a key is removed: its slot is held by the operation. -/
lemma SlotInv.unindex (hi : SlotInv cfg fh index none) {k : Key} {iv : IndexValue}
    (hk : index k = some iv) :
    SlotInv cfg fh (Function.update index k none) (some (iv.blockId, iv.offset)) := by
  have hother : ∀ k' iv', Function.update index k none k' = some iv' →
      k' ≠ k ∧ index k' = some iv' := by
    intro k' iv' hk'
    rcases update_index_cases hk' with ⟨-, h⟩ | h
    · simp at h
    · exact h
  have htransfer : ∀ b x off,
      Owns fh (Function.update index k none) (some (iv.blockId, iv.offset)) b x off →
        x ≠ .live k ∧ Owns fh index none b (if x = .hand then .live k else x) off := by
    intro b x off hx
    cases x with
    | live k' =>
      obtain ⟨iv', hk', rfl, rfl⟩ := hx
      obtain ⟨hne, h⟩ := hother k' iv' hk'
      exact ⟨by simpa using hne, iv', h, rfl, rfl⟩
    | free i => exact ⟨by simp, hx⟩
    | hand =>
      simp only [Owns, Option.some.injEq, Prod.mk.injEq] at hx
      exact ⟨by simp, iv, hk, hx.1, hx.2⟩
  exact hi.of_owns (fun k' iv' hk' => hi.live k' iv' (hother k' iv' hk').2)
    (fun b x off hx => ⟨_, (htransfer b x off hx).2⟩)
    (fun b hb => (hi.exclusive b hb).transfer (.live k) .hand (htransfer b))

/-! ## Giving a slot back -/

/-- `block_cnt` and `free_slots_cnt` after a slot in the hand has been given back. -/
lemma SlotInv.carved_putSlot {off : ℕ} (hi : SlotInv cfg fh index (some (b, off)))
    (hb : b < cfg.blockTypeCount) : ((fh b).putSlot off).carved = (fh b).carved := by
  have hhand : Owns fh index (some (b, off)) b .hand off := rfl
  have hpos : 0 < (fh b).blockCnt := hi.blockCnt_pos hb hhand (by simp)
  simp only [BlockFile.putSlot, BlockFile.carved]
  omega

/-- `do_delete_block` puts the slot it holds on the list of free slots, if there is room. -/
lemma SlotInv.free {off : ℕ} (hi : SlotInv cfg fh index (some (b, off)))
    (hb : b < cfg.blockTypeCount) (hroom : (fh b).freeSlotsCnt < maxFreeSlots) :
    SlotInv cfg (Function.update fh b ((fh b).putSlot off)) index none := by
  -- the new last entry of the list has the slot that was in the hand
  have hself : ∀ x off',
      Owns (Function.update fh b ((fh b).putSlot off)) index none b x off' →
        x ≠ .hand ∧ Owns fh index (some (b, off)) b
          (if x = .free (fh b).freeSlotsCnt then .hand else x) off' := by
    intro x off' hx
    cases x with
    | live k => exact ⟨by simp, hx⟩
    | free i =>
      obtain ⟨hlt, heq⟩ := hx
      rw [Function.update_self] at hlt heq
      simp only [BlockFile.putSlot] at hlt heq
      by_cases hlast : i = (fh b).freeSlotsCnt
      · subst hlast
        rw [Function.update_self] at heq
        simp [Owns, heq]
      · rw [Function.update_of_ne hlast] at heq
        exact ⟨by simp, by simpa [hlast, Owns] using ⟨by omega, heq⟩⟩
    | hand => simp [Owns] at hx
  refine hi.update (by simp) rfl rfl hroom ?_ ?_
  · intro x off' hx
    rw [hi.carved_putSlot hb]
    exact hi.slot b hb _ off' (hself x off' hx).2
  · exact (hi.exclusive b hb).transfer .hand (.free (fh b).freeSlotsCnt) hself

end SlotInv

end Linglongta
