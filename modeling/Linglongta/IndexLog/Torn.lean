import Linglongta.IndexLog.Writes

/-!
# A journal that was cut off

A crash may leave only the first `n` bytes of the journal.  `itemEnds blocks` lists the items of the
journal with the positions in the file where their encodings end, so the items that lie wholly
within the first `n` bytes are those with an end of at most `n` (`wholeItems`).

A reader of the cut file is at a point `Torn rd file n cur blocks`: it has read everything in front
of `cur`, and what stands behind it is as much of `cur` and `blocks` as the cut has left.  A fetch
returns the next item if the item is whole; if not, it returns nothing and the reader is at the end
of the file (`Torn.fetch_cons`, `Torn.fetch_block`), where it stays (`fetch_at_end`).
-/

namespace Linglongta

/-! ## Where the items end -/

/-- The items of a block and where they end, from the position of the first one. -/
def blockItemEnds : ℕ → List IndexLogItem → List (IndexLogItem × ℕ)
  | _, [] => []
  | pos, x :: xs => (x, pos + indexLogItemSize) :: blockItemEnds (pos + indexLogItemSize) xs

/-- The items of some blocks and where they end, from the position of the first block. -/
def itemEndsFrom : ℕ → List (List IndexLogItem) → List (IndexLogItem × ℕ)
  | _, [] => []
  | pos, b :: bs => blockItemEnds (pos + logBufHeaderSize) b ++
      itemEndsFrom (pos + logBufHeaderSize + b.length * indexLogItemSize) bs

/-- The items of a journal and where they end. -/
def itemEnds (blocks : List (List IndexLogItem)) : List (IndexLogItem × ℕ) :=
  itemEndsFrom magicHeader.length blocks

/-- The items that lie wholly within the first `n` bytes. -/
def wholeItems (n : ℕ) (ends : List (IndexLogItem × ℕ)) : List IndexLogItem :=
  (ends.filter fun e => e.2 ≤ n).map Prod.fst

section Ends

variable {n pos : ℕ}

lemma lt_of_mem_blockItemEnds {xs : List IndexLogItem} {e : IndexLogItem × ℕ}
    (he : e ∈ blockItemEnds pos xs) : pos + indexLogItemSize ≤ e.2 := by
  induction xs generalizing pos with
  | nil => cases he
  | cons x xs ih =>
    rcases List.mem_cons.1 he with rfl | hmem
    · exact le_rfl
    · have := ih hmem
      omega

lemma lt_of_mem_itemEndsFrom {bs : List (List IndexLogItem)} {e : IndexLogItem × ℕ}
    (he : e ∈ itemEndsFrom pos bs) : pos + logBufHeaderSize + indexLogItemSize ≤ e.2 := by
  induction bs generalizing pos with
  | nil => cases he
  | cons b bs ih =>
    rcases List.mem_append.1 he with hmem | hmem
    · exact lt_of_mem_blockItemEnds hmem
    · have := ih hmem
      omega

@[simp] lemma wholeItems_append (xs ys : List (IndexLogItem × ℕ)) :
    wholeItems n (xs ++ ys) = wholeItems n xs ++ wholeItems n ys := by
  simp [wholeItems]

lemma wholeItems_cons_of_le {e : IndexLogItem × ℕ} (he : e.2 ≤ n) (es : List (IndexLogItem × ℕ)) :
    wholeItems n (e :: es) = e.1 :: wholeItems n es := by
  simp [wholeItems, he]

/-- No item lies within the cut if all end behind it. -/
lemma wholeItems_eq_nil {es : List (IndexLogItem × ℕ)} (hes : ∀ e ∈ es, n < e.2) :
    wholeItems n es = [] := by
  unfold wholeItems
  rw [List.filter_eq_nil_iff.2 fun e he => by simpa using hes e he]
  rfl

/-- Where an item ends, there its encoding ends. -/
lemma encode_of_mem_blockItemEnds {xs : List IndexLogItem} {x : IndexLogItem} {e : ℕ}
    (he : (x, e) ∈ blockItemEnds pos xs) {file rest : List UInt8}
    (hfile : file.drop pos = encodeItems xs ++ rest) :
    (file.drop (e - indexLogItemSize)).take indexLogItemSize = x.encode := by
  induction xs generalizing pos with
  | nil => cases he
  | cons y ys ih =>
    have hsplit : file.drop pos = y.encode ++ (encodeItems ys ++ rest) := by
      simpa using hfile
    rcases List.mem_cons.1 he with heq | hmem
    · obtain ⟨rfl, rfl⟩ := Prod.mk.inj heq
      rw [Nat.add_sub_cancel, hsplit, ← length_encode x, List.take_left]
    · exact ih hmem (drop_add_of_drop hsplit (length_encode y))

lemma encode_of_mem_itemEndsFrom {bs : List (List IndexLogItem)} {x : IndexLogItem} {e : ℕ}
    (he : (x, e) ∈ itemEndsFrom pos bs) {file : List UInt8} (hfile : file.drop pos = encodeBlocks bs) :
    (file.drop (e - indexLogItemSize)).take indexLogItemSize = x.encode := by
  induction bs generalizing pos with
  | nil => cases he
  | cons b bs ih =>
    have hheader : file.drop (pos + logBufHeaderSize) = encodeItems b ++ encodeBlocks bs := by
      refine drop_add_of_drop (a := Bytes.toLE 4 (crc32Calc (encodeItems b)).toNat ++
        Bytes.toLE 4 b.length) ?_ (by simp [logBufHeaderSize])
      rw [hfile, encodeBlocks_cons, encodeBlock, List.append_assoc]
    rcases List.mem_append.1 he with hmem | hmem
    · exact encode_of_mem_blockItemEnds hmem hheader
    · exact ih hmem (drop_add_of_drop hheader (length_encodeItems b))

end Ends

/-! ## Reading at the end of the file -/

section Short

variable {rd : LogReader} {file : List UInt8} {n k : ℕ}

/-- A read of more bytes than there are goes to the end of the file. -/
lemma read_of_short (rd : LogReader) (hpos : rd.pos ≤ file.length) (hk : file.length < rd.pos + k) :
    (rd.read file k).1.length ≠ k ∧ (rd.read file k).2 = { rd with pos := file.length } := by
  have hlen : ((file.drop rd.pos).take k).length = file.length - rd.pos := by
    rw [List.length_take, List.length_drop]
    omega
  refine ⟨?_, ?_⟩
  · simp only [LogReader.read, hlen]
    omega
  · simp only [LogReader.read, hlen]
    congr 1
    omega

/-- A read of as many bytes as there are. -/
lemma read_of_le (rd : LogReader) (hk : rd.pos + k ≤ file.length) :
    (rd.read file k).1.length = k ∧ (rd.read file k).2 = { rd with pos := rd.pos + k } := by
  have hlen : ((file.drop rd.pos).take k).length = k := by
    rw [List.length_take, List.length_drop]
    omega
  exact ⟨hlen, by simp only [LogReader.read, hlen]⟩

/-- The magic number is cut off. -/
lemma readMagic_of_short (hfetch : rd.fetchPos = 0) (hpos : rd.pos ≤ file.length)
    (hk : file.length < rd.pos + 4) :
    rd.readMagic file = (false, { rd with pos := file.length }) := by
  obtain ⟨hlen, hrd⟩ := read_of_short rd hpos hk
  have hne : (rd.read file 4).1 ≠ magicHeader := fun heq => hlen (by rw [heq]; rfl)
  simp only [LogReader.readMagic, if_pos hfetch, hrd, decide_eq_false hne]

/-- The header of a block is cut off. -/
lemma readBlockHeader_of_short (hid : rd.fetchId = -1) (hpos : rd.pos ≤ file.length)
    (hk : file.length < rd.pos + 8) :
    rd.readBlockHeader file = (false, { rd with pos := file.length }) := by
  by_cases hcrc : file.length < rd.pos + 4
  · obtain ⟨hlen, hrd⟩ := read_of_short rd hpos hcrc
    simp only [LogReader.readBlockHeader, if_pos hid, if_pos hlen, hrd]
  · obtain ⟨hlen, hrd⟩ := read_of_le rd (Nat.not_lt.1 hcrc)
    have hcount := read_of_short { rd with pos := rd.pos + 4 } (Nat.not_lt.1 hcrc)
      (k := 4) (by simp only; omega)
    simp only [LogReader.readBlockHeader, if_pos hid, hlen, ne_eq, not_true_eq_false, if_false, hrd,
      hcount.1, not_false_eq_true, if_true, hcount.2]

/-- An item is cut off. -/
lemma readItem_of_short (hpos : rd.pos ≤ file.length) (hk : file.length < rd.pos + indexLogItemSize) :
    rd.readItem file = (none, { rd with pos := file.length }) := by
  have hsize : indexLogItemSize = 4 + keyLen + indexValueSize := rfl
  by_cases htype : file.length < rd.pos + 4
  · obtain ⟨hlen, hrd⟩ := read_of_short rd hpos htype
    simp only [LogReader.readItem, if_pos hlen, hrd]
  · obtain ⟨hlen, hrd⟩ := read_of_le rd (Nat.not_lt.1 htype)
    by_cases hkey : file.length < rd.pos + 4 + keyLen
    · have hshort := read_of_short { rd with pos := rd.pos + 4 } (Nat.not_lt.1 htype) hkey
      simp only [LogReader.readItem, hlen, ne_eq, not_true_eq_false, if_false, hrd, hshort.1,
        not_false_eq_true, if_true, hshort.2]
    · have hfull := read_of_le { rd with pos := rd.pos + 4 } (Nat.not_lt.1 hkey)
      have hshort := read_of_short { rd with pos := rd.pos + 4 + keyLen } (k := indexValueSize)
        (Nat.not_lt.1 hkey) (by simp only; omega)
      simp only [LogReader.readItem, hlen, ne_eq, not_true_eq_false, if_false, hrd, hfull.1, hfull.2,
        hshort.1, not_false_eq_true, if_true, hshort.2]

/-- A fetch of an item that is cut off. -/
lemma fetch_of_short_item {rd₁ rd₂ : LogReader} (hmagic : rd.readMagic file = (true, rd₁))
    (hheader : rd₁.readBlockHeader file = (true, rd₂)) (hpos : rd₂.pos ≤ file.length)
    (hk : file.length < rd₂.pos + indexLogItemSize) :
    (indexLoggerFetch true file rd).1 = none ∧
      (indexLoggerFetch true file rd).2.pos = file.length := by
  simp [indexLoggerFetch, hmagic, hheader, readItem_of_short hpos hk]

/-- At the end of the file a fetch returns nothing and stays there. -/
lemma fetch_at_end (hpos : rd.pos = file.length) :
    (indexLoggerFetch true file rd).1 = none ∧
      (indexLoggerFetch true file rd).2.pos = file.length := by
  have hmagic : rd.readMagic file = (false, rd) ∨ rd.readMagic file = (true, rd) := by
    by_cases hfetch : rd.fetchPos = 0
    · left
      rw [readMagic_of_short hfetch hpos.le (by omega), ← hpos]
    · right
      simp [LogReader.readMagic, hfetch]
  rcases hmagic with hno | hyes
  · simp [indexLoggerFetch, hno, hpos]
  · by_cases hid : rd.fetchId = -1
    · simp [indexLoggerFetch, hyes, readBlockHeader_of_short hid hpos.le (by omega)]
    · have hheader : rd.readBlockHeader file = (true, rd) := by
        simp [LogReader.readBlockHeader, hid]
      apply fetch_of_short_item hyes hheader hpos.le
      rw [hpos]
      exact Nat.lt_add_of_pos_right (by decide)

/-- All further fetches return nothing. -/
lemma fetchMany_at_end (m : ℕ) (hpos : rd.pos = file.length) :
    fetchMany file m rd = List.replicate m none := by
  induction m generalizing rd with
  | zero => rfl
  | succ m ih =>
    obtain ⟨hnone, hend⟩ := fetch_at_end hpos
    rw [fetchMany, hnone, ih hend, List.replicate_succ]

end Short

/-! ## The reader of a cut file -/

/-- The reader of the first `n` bytes of a journal has to return `cur`, the rest of the block it is
in, and then the items of `blocks`, as far as they are there. -/
structure Torn (rd : LogReader) (file : List UInt8) (n : ℕ) (cur : List IndexLogItem)
    (blocks : List (List IndexLogItem)) : Prop where
  /-- The reader is behind the magic number. -/
  started : 0 < rd.pos
  /-- The reader is not behind the cut. -/
  bound : rd.pos ≤ n
  /-- Nor behind the end of the file. -/
  inFile : rd.pos ≤ file.length
  /-- What the cut has left. -/
  rest : file.drop rd.pos = (encodeItems cur ++ encodeBlocks blocks).take (n - rd.pos)
  /-- Between two blocks. -/
  between : cur = [] → rd.fetchId = -1
  /-- Inside a block. -/
  inside : cur ≠ [] → 0 ≤ rd.fetchId ∧ rd.fetchRecordsAmount = rd.fetchId + cur.length

/-- What a cut leaves of a part that lies within it. -/
lemma take_append_of_whole {a b : List UInt8} {m k : ℕ} (ha : a.length = k) (hk : k ≤ m) :
    (a ++ b).take m = a ++ b.take (m - k) := by
  rw [List.take_append, ha, List.take_of_length_le (by omega)]

section Torn

variable {rd rd₀ : LogReader} {file : List UInt8} {n : ℕ} {cur : List IndexLogItem}
variable {blocks : List (List IndexLogItem)}

/-- A file ends at the cut if not everything is there. -/
lemma Torn.length_le (ht : Torn rd file n cur blocks) : file.length ≤ n := by
  have hlen := congrArg List.length ht.rest
  have hbound := ht.bound
  rw [List.length_drop, List.length_take] at hlen
  omega

/-- An item is read, and the reader is behind it. -/
lemma Torn.read_item {rd₁ : LogReader} {x : IndexLogItem} {xs : List IndexLogItem}
    (hmagic : rd₀.readMagic file = (true, rd))
    (hheader : rd.readBlockHeader file = (true, rd₁)) (hstart : 0 < rd₁.pos)
    (hpos : rd₁.pos ≤ file.length) (hcut : rd₁.pos + indexLogItemSize ≤ n)
    (hrest : file.drop rd₁.pos = (encodeItems (x :: xs) ++ encodeBlocks blocks).take (n - rd₁.pos))
    (hid : 0 ≤ rd₁.fetchId)
    (hamount : rd₁.fetchRecordsAmount = rd₁.fetchId + ((x :: xs).length : ℕ)) :
    ∃ rd', indexLoggerFetch true file rd₀ = (some x, rd') ∧ rd'.readMagic file = (true, rd') ∧
      Torn rd' file n xs blocks ∧ rd'.pos = rd₁.pos + indexLogItemSize := by
  have hitem : file.drop rd₁.pos = x.encode ++
      (encodeItems xs ++ encodeBlocks blocks).take (n - rd₁.pos - indexLogItemSize) := by
    rw [hrest, encodeItems_cons, List.append_assoc]
    exact take_append_of_whole (length_encode x) (by omega)
  have hread := readItem_of_drop hitem
  refine ⟨_, by simp [indexLoggerFetch, hmagic, hheader, hread]; rfl,
    readMagic_of_started ⟨Nat.add_pos_left hstart _, rfl⟩, ?_, rfl⟩
  refine ⟨Nat.add_pos_left hstart _, hcut, add_le_of_drop hitem (length_encode x) hpos, ?_, ?_, ?_⟩
  · rw [drop_add_of_drop hitem (length_encode x), Nat.sub_sub]
  · rintro rfl
    have hlast : rd₁.fetchId + 1 = rd₁.fetchRecordsAmount := by simp [hamount]
    simp [hlast]
  · intro hne
    have hpos' : 0 < xs.length := List.length_pos_iff.2 hne
    have hnot : rd₁.fetchId + 1 ≠ rd₁.fetchRecordsAmount := by
      rw [hamount, List.length_cons]
      omega
    simp only [if_neg hnot]
    rw [hamount, List.length_cons]
    push_cast
    omega

/-- A fetch inside a block. -/
lemma Torn.fetch_cons {x : IndexLogItem} {xs : List IndexLogItem}
    (ht : Torn rd file n (x :: xs) blocks) (hmagic : rd₀.readMagic file = (true, rd)) :
    if rd.pos + indexLogItemSize ≤ n then
      ∃ rd', indexLoggerFetch true file rd₀ = (some x, rd') ∧ rd'.readMagic file = (true, rd') ∧
        Torn rd' file n xs blocks ∧ rd'.pos = rd.pos + indexLogItemSize
    else (indexLoggerFetch true file rd₀).1 = none ∧
      (indexLoggerFetch true file rd₀).2.pos = file.length := by
  obtain ⟨hid, hamount⟩ := ht.inside (List.cons_ne_nil x xs)
  have hheader : rd.readBlockHeader file = (true, rd) := by
    have hne : rd.fetchId ≠ -1 := by omega
    simp [LogReader.readBlockHeader, hne]
  split
  · rename_i hcut
    exact Torn.read_item hmagic hheader ht.started ht.inFile hcut ht.rest hid hamount
  · rename_i hcut
    have hlen := ht.length_le
    exact fetch_of_short_item hmagic hheader ht.inFile (by omega)

/-- A fetch between two blocks, when a block is to come. -/
lemma Torn.fetch_block {x : IndexLogItem} {xs : List IndexLogItem}
    (ht : Torn rd file n [] ((x :: xs) :: blocks)) (hmagic : rd₀.readMagic file = (true, rd))
    (hfits : BlockFits (x :: xs)) :
    if rd.pos + logBufHeaderSize + indexLogItemSize ≤ n then
      ∃ rd', indexLoggerFetch true file rd₀ = (some x, rd') ∧ rd'.readMagic file = (true, rd') ∧
        Torn rd' file n xs blocks ∧ rd'.pos = rd.pos + logBufHeaderSize + indexLogItemSize
    else (indexLoggerFetch true file rd₀).1 = none ∧
      (indexLoggerFetch true file rd₀).2.pos = file.length := by
  have hid := ht.between rfl
  have hlen := ht.length_le
  by_cases hcut₁ : rd.pos + logBufHeaderSize ≤ n
  · -- the header is there
    have hb : (x :: xs).length < 256 ^ 4 := by
      have := hfits.2
      simp only [indexLogItemSize, logBufSize, logBufHeaderSize] at this
      omega
    have hwords : file.drop rd.pos =
        Bytes.toLE 4 (crc32Calc (encodeItems (x :: xs))).toNat ++ (Bytes.toLE 4 (x :: xs).length ++
          (encodeItems (x :: xs) ++ encodeBlocks blocks).take (n - rd.pos - logBufHeaderSize)) := by
      rw [ht.rest, ← List.append_assoc, ← take_append_of_whole (by simp [logBufHeaderSize]) (by omega)]
      simp [encodeBlock]
    have hheader := readBlockHeader_of_words hwords (Bytes.length_toLE 4 _) hid hb
    have hdrop := drop_add_of_drop (drop_add_of_drop hwords (Bytes.length_toLE 4 _))
      (Bytes.length_toLE 4 _)
    have hin := add_le_of_drop (drop_add_of_drop hwords (Bytes.length_toLE 4 _))
      (Bytes.length_toLE 4 _) (add_le_of_drop hwords (Bytes.length_toLE 4 _) ht.inFile)
    split
    · rename_i hcut
      refine Torn.read_item hmagic hheader (by simp) hin hcut ?_ le_rfl (by simp)
      rw [hdrop, Nat.sub_sub]
      rfl
    · rename_i hcut
      simp only [logBufHeaderSize] at hcut
      exact fetch_of_short_item hmagic hheader hin (by simp only; omega)
  · have hno : ¬rd.pos + logBufHeaderSize + indexLogItemSize ≤ n := by omega
    rw [if_neg hno]
    have hheader := readBlockHeader_of_short hid ht.inFile
      (by simp only [logBufHeaderSize] at hcut₁; omega)
    simp [indexLoggerFetch, hmagic, hheader]

/-- A fetch when everything was returned. -/
lemma Torn.fetch_nil (ht : Torn rd file n [] []) (hmagic : rd₀.readMagic file = (true, rd)) :
    (indexLoggerFetch true file rd₀).1 = none ∧
      (indexLoggerFetch true file rd₀).2.pos = file.length := by
  have hheader := readBlockHeader_of_short (ht.between rfl) ht.inFile ?_
  · simp [indexLoggerFetch, hmagic, hheader]
  have hlen := congrArg List.length ht.rest
  have hpos := ht.inFile
  simp only [encodeItems_nil, encodeBlocks_nil, List.append_nil, List.take_nil, List.length_nil,
    List.length_drop] at hlen
  omega

end Torn

/-- What is whole of the rest of a block and the blocks behind it, from a position on. -/
abbrev wholeFrom (n pos : ℕ) (cur : List IndexLogItem) (blocks : List (List IndexLogItem)) :
    List IndexLogItem :=
  wholeItems n (blockItemEnds pos cur ++ itemEndsFrom (pos + cur.length * indexLogItemSize) blocks)

section Fetches

variable {n : ℕ} {blocks : List (List IndexLogItem)}

/-- The next item is whole. -/
lemma wholeFrom_cons_of_le {pos : ℕ} (x : IndexLogItem) (xs : List IndexLogItem)
    (hcut : pos + indexLogItemSize ≤ n) :
    wholeFrom n pos (x :: xs) blocks = x :: wholeFrom n (pos + indexLogItemSize) xs blocks := by
  have hpos : pos + (x :: xs).length * indexLogItemSize =
      pos + indexLogItemSize + xs.length * indexLogItemSize := by
    rw [List.length_cons]
    ring
  rw [wholeFrom, blockItemEnds, List.cons_append, wholeItems_cons_of_le hcut, hpos]

/-- The next item is not whole. -/
lemma wholeFrom_cons_of_lt {pos : ℕ} (x : IndexLogItem) (xs : List IndexLogItem)
    (hcut : ¬pos + indexLogItemSize ≤ n) : wholeFrom n pos (x :: xs) blocks = [] := by
  apply wholeItems_eq_nil
  intro e he
  rcases List.mem_append.1 he with hmem | hmem
  · have := lt_of_mem_blockItemEnds hmem
    omega
  · have := lt_of_mem_itemEndsFrom hmem
    omega

/-- The next block starts behind its header. -/
lemma wholeFrom_block (pos : ℕ) (b : List IndexLogItem) :
    wholeFrom n pos [] (b :: blocks) = wholeFrom n (pos + logBufHeaderSize) b blocks := by
  simp [wholeFrom, blockItemEnds, itemEndsFrom]

/-- Repeated fetching returns each whole item once, in order, and then nothing. -/
lemma Torn.fetchMany {file : List UInt8} (m : ℕ) {rd₀ rd : LogReader} {cur : List IndexLogItem}
    (ht : Torn rd file n cur blocks) (hmagic : rd₀.readMagic file = (true, rd))
    (hfits : ∀ b ∈ blocks, BlockFits b) :
    fetchMany file m rd₀ = ((wholeFrom n rd.pos cur blocks).take m).map some ++
      List.replicate (m - (wholeFrom n rd.pos cur blocks).length) none := by
  induction m generalizing rd₀ rd cur blocks with
  | zero => simp [Linglongta.fetchMany]
  | succ m ih =>
    -- the two ways in which a fetch can end
    have hsome : ∀ {x rd' cur' blocks'}, indexLoggerFetch true file rd₀ = (some x, rd') →
        rd'.readMagic file = (true, rd') → Torn rd' file n cur' blocks' →
        (∀ b ∈ blocks', BlockFits b) →
        wholeFrom n rd.pos cur blocks = x :: wholeFrom n rd'.pos cur' blocks' →
        Linglongta.fetchMany file (m + 1) rd₀ =
          ((wholeFrom n rd.pos cur blocks).take (m + 1)).map some ++
            List.replicate (m + 1 - (wholeFrom n rd.pos cur blocks).length) none := by
      intro x rd' cur' blocks' hf hm ht' hfits' hwhole
      rw [Linglongta.fetchMany, hf, ih ht' hm hfits', hwhole]
      simp
    have hnone : ((indexLoggerFetch true file rd₀).1 = none ∧
          (indexLoggerFetch true file rd₀).2.pos = file.length) →
        wholeFrom n rd.pos cur blocks = [] →
        Linglongta.fetchMany file (m + 1) rd₀ =
          ((wholeFrom n rd.pos cur blocks).take (m + 1)).map some ++
            List.replicate (m + 1 - (wholeFrom n rd.pos cur blocks).length) none := by
      intro hf hwhole
      rw [Linglongta.fetchMany, hf.1, fetchMany_at_end m hf.2, hwhole]
      simp [List.replicate_succ]
    cases cur with
    | cons x xs =>
      have hfetch := ht.fetch_cons hmagic
      split at hfetch
      · rename_i hcut
        obtain ⟨rd', hf, hm, ht', hpos⟩ := hfetch
        exact hsome hf hm ht' hfits (by rw [wholeFrom_cons_of_le x xs hcut, hpos])
      · rename_i hcut
        exact hnone hfetch (wholeFrom_cons_of_lt x xs hcut)
    | nil =>
      cases blocks with
      | nil => exact hnone (ht.fetch_nil hmagic) rfl
      | cons b bs =>
        cases b with
        | nil => exact absurd rfl (hfits [] (by simp)).1
        | cons x xs =>
          have hfetch := ht.fetch_block hmagic (hfits _ (by simp))
          split at hfetch
          · rename_i hcut
            obtain ⟨rd', hf, hm, ht', hpos⟩ := hfetch
            refine hsome hf hm ht' (fun b hb => hfits b (List.mem_cons_of_mem _ hb)) ?_
            rw [wholeFrom_block, wholeFrom_cons_of_le x xs hcut, hpos]
          · rename_i hcut
            refine hnone hfetch ?_
            rw [wholeFrom_block]
            exact wholeFrom_cons_of_lt x xs hcut

end Fetches

/-! ## The whole run -/

/-- A reader that has just been opened, on a cut in the magic number. -/
lemma fetchMany_of_short_magic {file : List UInt8} (hfile : file.length < 4) (m : ℕ) :
    fetchMany file m indexLoggerOpen = List.replicate m none := by
  cases m with
  | zero => rfl
  | succ m =>
    have hmagic : indexLoggerOpen.readMagic file =
        (false, { indexLoggerOpen with pos := file.length }) :=
      readMagic_of_short rfl (Nat.zero_le _) (by simpa [indexLoggerOpen] using hfile)
    have hfetch : (indexLoggerFetch true file indexLoggerOpen).1 = none ∧
        (indexLoggerFetch true file indexLoggerOpen).2.pos = file.length := by
      simp [indexLoggerFetch, hmagic]
    rw [fetchMany, hfetch.1, fetchMany_at_end m hfetch.2, List.replicate_succ]

/-- A reader of the first `n` bytes of a journal returns the items that are whole. -/
lemma fetchMany_take (n m : ℕ) {blocks : List (List IndexLogItem)} (hfits : ∀ b ∈ blocks, BlockFits b) :
    fetchMany ((journalBytes blocks).take n) m indexLoggerOpen =
      ((wholeItems n (itemEnds blocks)).take m).map some ++
        List.replicate (m - (wholeItems n (itemEnds blocks)).length) none := by
  by_cases hn : n < 4
  · have hnil : wholeItems n (itemEnds blocks) = [] := by
      apply wholeItems_eq_nil
      intro e he
      have := lt_of_mem_itemEndsFrom he
      simp only [magicHeader, List.length_cons, List.length_nil] at this
      omega
    have hlen : ((journalBytes blocks).take n).length < 4 := by
      rw [List.length_take]
      omega
    rw [fetchMany_of_short_magic hlen, hnil]
    simp
  · have hfile : (journalBytes blocks).take n = magicHeader ++ (encodeBlocks blocks).take (n - 4) :=
      take_append_of_whole rfl (by omega)
    have hmagic : indexLoggerOpen.readMagic ((journalBytes blocks).take n) =
        (true, { indexLoggerOpen with pos := 4 }) := by
      have hdrop : ((journalBytes blocks).take n).drop indexLoggerOpen.pos =
          magicHeader ++ (encodeBlocks blocks).take (n - 4) := hfile
      have hread := read_of_drop indexLoggerOpen hdrop (n := 4) rfl
      simp only [LogReader.readMagic, hread, if_pos (show indexLoggerOpen.fetchPos = 0 from rfl),
        decide_true]
      rfl
    have ht : Torn { indexLoggerOpen with pos := 4 } ((journalBytes blocks).take n) n [] blocks := by
      refine ⟨by simp, by simp only; omega, ?_, ?_, fun _ => rfl, fun hne => absurd rfl hne⟩
      · rw [hfile]
        simp [magicHeader]
      · rw [hfile]
        rfl
    rw [ht.fetchMany m hmagic hfits]
    simp only [wholeFrom, blockItemEnds, List.nil_append, List.length_nil, Nat.zero_mul, Nat.add_zero]
    rfl

lemma map_fst_blockItemEnds (pos : ℕ) (xs : List IndexLogItem) :
    (blockItemEnds pos xs).map Prod.fst = xs := by
  induction xs generalizing pos with
  | nil => rfl
  | cons x xs ih => simp [blockItemEnds, ih]

lemma map_fst_itemEndsFrom (pos : ℕ) (bs : List (List IndexLogItem)) :
    (itemEndsFrom pos bs).map Prod.fst = bs.flatten := by
  induction bs generalizing pos with
  | nil => rfl
  | cons b bs ih => simp [itemEndsFrom, map_fst_blockItemEnds, ih]

/-- A journal that was cut off.  After any calls of `index_logger_append` and `index_logger_flush`
the file holds the items that were handed over first, each with its encoding at a place of its own;
the others are in the working buffer, and all of them were handed over after the last flush.  For
every `n` a reader of the first `n` bytes returns exactly the items whose encodings end within them,
in order, and then nothing. -/
theorem torn_journal (calls : List WriteCall) :
    ∃ blocks pending,
      (Writer.create.run (calls.map fun c => (c, completeWrite))).file = journalBytes blocks ∧
      Holds (Writer.create.run (calls.map fun c => (c, completeWrite))).logger pending ∧
      calls.flatMap WriteCall.items = (itemEnds blocks).map Prod.fst ++ pending ∧
      (∀ before after, calls = before ++ .flush :: after →
        pending <:+ after.flatMap WriteCall.items) ∧
      (∀ x e, (x, e) ∈ itemEnds blocks →
        ((journalBytes blocks).drop (e - indexLogItemSize)).take indexLogItemSize = x.encode) ∧
      ∀ n m, fetchMany
          ((Writer.create.run (calls.map fun c => (c, completeWrite))).file.take n) m indexLoggerOpen =
        ((wholeItems n (itemEnds blocks)).take m).map some ++
          List.replicate (m - (wholeItems n (itemEnds blocks)).length) none := by
  obtain ⟨blocks, pending, hi, hflat, -, hflushed⟩ := Writer.inv_create.run_completeWrite calls
  refine ⟨blocks, pending, hi.file, hi.holds, ?_, hflushed, fun x e he => ?_, fun n m => ?_⟩
  · rw [itemEnds, map_fst_itemEndsFrom, hflat]
    rfl
  · exact encode_of_mem_itemEndsFrom he rfl
  · rw [hi.file]
    exact fetchMany_take n m hi.fits

end Linglongta
