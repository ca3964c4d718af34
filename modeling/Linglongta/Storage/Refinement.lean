import Linglongta.Storage.Sound
import Linglongta.Storage.SizeClass

/-!
# The block store is a key-value store

`Kv` is what the block store is for: a map from normalised keys to values, with the replies that
`update_block`, `find_block` and `delete_block` then give.  `Client` is a process that uses the
store through one handle, opens and closes it any number of times, and finds everything working.

`Represents n m w` says that the open store `w` holds the map `m`.  Each operation of the store
keeps it, with the map changed as in the specification, and so do a close and a reopening with the
same or a larger table; `client_refines` is the result for every sequence of calls.  It is about
sequences in which `open_storage` is given a size that the table of block sizes can hold: one that
is too large makes it fail, but with `inited_global_vars` set, so that a second attempt succeeds
without data files (`client_second_open`).
-/

namespace Linglongta

open Prog

/-! ## The specification -/

/-- The contents of a key-value store. -/
abbrev Kv : Type := Key → Option (List UInt8)

/-- A call of the process that uses the store. -/
inductive StoreEvent
  /-- `open_storage`. -/
  | openStorage (largest : ℕ)
  /-- A call of an operation. -/
  | call (c : Call)
  /-- `close_storage`. -/
  | closeStorage

/-- What a key-value store replies, and its contents afterwards. -/
def Kv.step (m : Kv) : StoreEvent → Reply × Kv
  | .openStorage _ => ({ ret := 0 }, m)
  | .call (.update key data) => ({ ret := 0 }, Function.update m (fixedKey key) (some data))
  | .call (.find key) => (valueReply (m (fixedKey key)), m)
  | .call (.delete key) =>
    ({ ret := if m (fixedKey key) = none then dbNotfound else 0 },
      Function.update m (fixedKey key) none)
  | .closeStorage => ({ ret := 0 }, m)

/-- The replies to a sequence of calls, and the contents afterwards. -/
def Kv.run : Kv → List StoreEvent → List Reply × Kv
  | m, [] => ([], m)
  | m, e :: es => ((m.step e).1 :: ((m.step e).2.run es).1, ((m.step e).2.run es).2)

/-! ## The process -/

/-- A process that uses the store: the world and its handle. -/
structure Client where
  /-- The world. -/
  world : World
  /-- The handle. -/
  bsp : Option Handle

/-- One call, with everything working: the reply and the process afterwards.  None if the call
cannot be made, because there is no handle or there is one already, or if it does not return. -/
def Client.step (c : Client) : StoreEvent → Option (Reply × Client)
  | .openStorage largest =>
    match c.bsp with
    | some _ => none
    | none =>
      let r := openStorage {} largest c.world
      some ({ ret := r.ret }, ⟨r.world, r.bsp⟩)
  | .call op =>
    match c.bsp with
    | none => none
    | some _ =>
      match exec (handle noFaults) op.prog [] c.world with
      | .returned r _ w => some (r, ⟨w, c.bsp⟩)
      | .aborted _ => none
      | .blocked _ => none
  | .closeStorage =>
    match c.bsp with
    | none => none
    | some bsp =>
      let r := closeStorage {} bsp c.world
      some ({ ret := r.1 }, ⟨r.2, none⟩)

/-- A sequence of calls: the replies and the process afterwards. -/
def Client.run : Client → List StoreEvent → Option (List Reply × Client)
  | c, [] => some ([], c)
  | c, e :: es =>
    match c.step e with
    | none => none
    | some (r, c') => (c'.run es).map fun x => (r :: x.1, x.2)

/-- The call may be made: it needs a handle, or that there is none, a reopening does not make the
table smaller, the data fits a block file, and no record is written beyond the largest file offset.
`n` is the size with which the store was opened last. -/
def Client.Allows (c : Client) (n : ℕ) : StoreEvent → Prop
  | .openStorage largest => c.bsp = none ∧ n ≤ effectiveSize largest
  | .call op => c.bsp ≠ none ∧
      (∀ key data, op = .update key data →
        ∃ b, InTable n b ∧ data.length ≤ beginningSize * 2 ^ b) ∧
      ∀ r ∈ recordWrites (requests (handle noFaults) op.prog [] c.world),
        r.2.1 + r.2.2.length ≤ offMax
  | .closeStorage => c.bsp ≠ none

/-- The size with which the store was opened last, after a call. -/
def StoreEvent.nextSize (n : ℕ) : StoreEvent → ℕ
  | .openStorage largest => effectiveSize largest
  | .call _ => n
  | .closeStorage => n

/-- Every call of the sequence may be made. -/
def Client.Lawful : ℕ → Client → List StoreEvent → Prop
  | _, _, [] => True
  | n, c, e :: es => c.Allows n e ∧ ∀ r c', c.step e = some (r, c') → c'.Lawful (e.nextSize n) es

/-! ## One operation -/

/-- The open store holds the map.  It was opened with the size `n`. -/
structure Represents (n : ℕ) (m : Kv) (w : World) : Prop where
  /-- The store is sound. -/
  sound : Sound w
  /-- Its table. -/
  table : ∀ b, b < w.blockTypeCount ↔ InTable n b
  /-- What it holds. -/
  stored : ∀ k, Stored w k (m k)

section Operations

variable {n : ℕ} {m : Kv} {w : World}

/-- There is an entry in the index exactly for the keys of the map. -/
lemma Represents.eq_none_iff (hr : Represents n m w) (k : Key) : w.index k = none ↔ m k = none := by
  have hs := hr.stored k
  cases hm : m k with
  | none =>
    rw [hm] at hs
    exact ⟨fun _ => rfl, fun _ => hs⟩
  | some d =>
    rw [hm] at hs
    obtain ⟨iv, hk, -⟩ := hs
    simp [hk]

/-- The map after one key has been changed. -/
lemma stored_update {w' : World} {k : Key} {v : Option (List UInt8)} (hself : Stored w' k v)
    (hother : ∀ k' ≠ k, Stored w' k' (m k')) (k' : Key) :
    Stored w' k' (Function.update m k v k') := by
  by_cases hk : k' = k
  · subst hk
    rwa [Function.update_self]
  · rw [Function.update_of_ne hk]
    exact hother k' hk

/-- `do_delete_block` removes a key from the map. -/
lemma Represents.deleted (hr : Represents n m w) {k : Key} {iv : IndexValue}
    (hk : w.index k = some iv) :
    Represents n (Function.update m k none) (w.deleted noFaults iv k) where
  sound := hr.sound.deleted noFaults_writes hk
  table := by simpa using hr.table
  stored := stored_update (stored_deleted k iv rfl)
    fun k' hne => (hr.stored k').deleted_of_ne hr.sound.slots noFaults hk hne

/-- `append_block` puts a new key into the map. -/
lemma Represents.appended (hr : Represents n m w) {b : ℕ} (hb : b < w.blockTypeCount) (k : Key)
    {data : List UInt8} (hl : data.length ≤ w.blockSizeArray b)
    (hoff : (w.fileHandler b).takeSlot.1 + data.length ≤ offMax) :
    Represents n (Function.update m k (some data)) (w.appended noFaults b k data) where
  sound := hr.sound.appended noFaults_writes hb k hl (by omega)
  table := by simpa using hr.table
  stored := by
    refine stored_update (stored_appended k rfl ?_)
      fun k' hne => (hr.stored k').appended_of_ne hr.sound.slots noFaults hb hl hne
    have hu : Usable ((w.setFileHandler b (w.fileHandler b).takeSlot.2).syncHeader noFaults b) :=
      (hr.sound.usable.setFileHandler (fd_takeSlot _)).pwrite _ _ _ _
    obtain ⟨file, hfile, -⟩ := hu.file (by simpa using hb)
    exact pread_pwrite_complete _ (file_pwrite (noFaults.pwrite .record b) hfile hoff).1

/-- `modify_block` changes the value of a key. -/
lemma Represents.modified (hr : Represents n m w) {k : Key} {iv : IndexValue} {data : List UInt8}
    (hk : w.index k = some iv) (hl : data.length ≤ w.blockSizeArray iv.blockId)
    (hw : (w.pwrite (noFaults.pwrite .record iv.blockId) iv.blockId iv.offset data).1 =
      some data.length) :
    Represents n (Function.update m k (some data)) (w.modified noFaults iv k data) where
  sound := hr.sound.modified hk hl
  table := by simpa using hr.table
  stored := stored_update (stored_modified k rfl hw)
    fun k' hne => (hr.stored k').modified_of_ne hr.sound.slots noFaults hk hl hne

/-- The choice of a block file for a new key, and the `append_block` for it. -/
lemma Represents.insert (hr : Represents n m w) {k : Key} {data : List UInt8} (fail : Int)
    (hfits : ∃ b, InTable n b ∧ data.length ≤ beginningSize * 2 ^ b)
    (hrange : ∀ r ∈ w.insertWrites data, r.2.1 + r.2.2.length ≤ offMax) :
    ∃ w', w.insertEnding noFaults k data fail = ⟨some 0, w'⟩ ∧
      Represents n (Function.update m k (some data)) w' := by
  obtain ⟨J, hJ, hlen⟩ := hfits
  have hJ' := (hr.table J).2 hJ
  rw [← hr.sound.usable.sizes J hJ'] at hlen
  obtain ⟨hcls, hl⟩ : ¬w.config.sizeClass data.length < 0 ∧
      data.length ≤ w.blockSizeArray (w.config.sizeClass data.length).toNat :=
    hr.sound.usable.doubling.sizeClass_of_fits hJ' hlen
  refine ⟨_, ?_, hr.appended (w.sizeClass_lt hcls) k hl ?_⟩
  · rw [World.insertEnding, if_neg hcls, if_pos hl]
  · refine hrange ((w.config.sizeClass data.length).toNat,
      (w.fileHandler (w.config.sizeClass data.length).toNat).takeSlot.1, data) ?_
    rw [World.insertWrites, if_neg hcls, if_pos hl]
    exact List.mem_singleton.2 rfl

/-- `update_block`. -/
lemma Represents.update (hr : Represents n m w) {k : Key} {data : List UInt8}
    (hfits : ∃ b, InTable n b ∧ data.length ≤ beginningSize * 2 ^ b)
    (hrange : ∀ r ∈ w.updateWrites noFaults k data, r.2.1 + r.2.2.length ≤ offMax) :
    ∃ w', w.updateEnding noFaults k data = ⟨some 0, w'⟩ ∧
      Represents n (Function.update m k (some data)) w' := by
  have hnofault : noFaults.findRecord.isSome = false := rfl
  unfold World.updateWrites at hrange
  unfold World.updateEnding
  rw [hnofault] at hrange ⊢
  simp only [Bool.false_eq_true, if_false] at hrange ⊢
  cases hk : w.index k with
  | none =>
    rw [hk] at hrange
    exact hr.insert 0 hfits hrange
  | some iv =>
    rw [hk] at hrange
    simp only at hrange ⊢
    by_cases hl : data.length ≤ w.blockSizeArray iv.blockId
    · rw [if_pos hl] at hrange ⊢
      have hoff : iv.offset + data.length ≤ offMax := hrange _ (List.mem_singleton.2 rfl)
      obtain ⟨file, hfile, -⟩ := hr.sound.usable.file (hr.sound.usable.indexed k iv hk)
      have hw : (w.pwrite (noFaults.pwrite .record iv.blockId) iv.blockId iv.offset data).1 =
          some data.length := (file_pwrite (noFaults.pwrite .record iv.blockId) hfile hoff).1
      refine ⟨w.modified noFaults iv k data, ?_, hr.modified hk hl hw⟩
      rw [World.modifyEnding, if_pos hw]
      rfl
    · rw [if_neg hl, if_neg (by simp [noFaults])] at hrange ⊢
      obtain ⟨w', hend, hr'⟩ := (hr.deleted hk).insert (k := k) (-3) hfits hrange
      refine ⟨w', hend, ?_⟩
      rwa [Function.update_idem] at hr'

end Operations

/-! ## Closing and opening -/

section Close

variable {n : ℕ} {m : Kv} {w : World}

/-- Writing a header that is on disk already. -/
lemma Represents.syncHeader (hr : Represents n m w) {b : ℕ} (hb : b < w.blockTypeCount) :
    Represents n m (w.syncHeader noFaults b) := by
  refine ⟨hr.sound.syncHeader noFaults_writes hb, by simpa using hr.table, fun k => ?_⟩
  refine (hr.stored k).pwrite_front hr.sound.slots _ b ?_
  simp [BlockFile.headerImage, dataSectionPos, slotsSectionPos]

/-- `close_storage` leaves the map on disk. -/
lemma Represents.close (hr : Represents n m w) (bsp : Handle) :
    (closeStorage {} bsp w).1 = 0 ∧
      ∃ w₁, Represents n m w₁ ∧ Rests w₁ (closeStorage {} bsp w).2 := by
  obtain ⟨hret, w₁, hr', -, -, hrest⟩ := close_rests (c := {}) (P := Represents n m) bsp
    hr.sound.usable (fun w b hr hb => hr.syncHeader hb) hr
  exact ⟨hret rfl, w₁, hr', hrest⟩

/-- `open_storage` finds the map on disk. -/
lemma Represents.reopen {w₁ : World} (hr : Represents n m w₁) (hrest : Rests w₁ w) {largest : ℕ}
    (hsize : n ≤ effectiveSize largest)
    (hlimit : effectiveSize largest < beginningSize * 2 ^ maxBlockCnt) :
    ∃ w', openStorage {} largest w = ⟨0, some ⟨true, true, true⟩, w'⟩ ∧
      Represents (effectiveSize largest) m w' := by
  have hgrow : ∀ b < w₁.blockTypeCount, InTable (effectiveSize largest) b :=
    fun b hb => ((hr.table b).1 hb).mono hsize
  have hc := hrest.closed hr.sound.usable hgrow
  obtain ⟨w', hopen, -⟩ := openStorage_spec largest hc.inited hc.whole hlimit
  have hre := hrest.reopened hr.sound.usable hr.sound.tight hgrow hopen
  refine ⟨w', hopen, hre.sound hr.sound, (hc.opened le_rfl hopen).table, fun k => ?_⟩
  exact hre.stored hr.sound.usable (hr.stored k)

end Close

/-! ## Every sequence of calls -/

/-- What holds of the process: an open store represents the map, and so did the store that was
closed. -/
def Client.Inv (n : ℕ) (m : Kv) (c : Client) : Prop :=
  match c.bsp with
  | none => ∃ w₁, Represents n m w₁ ∧ Rests w₁ c.world
  | some _ => Represents n m c.world

section Runs

variable {n : ℕ} {m : Kv} {c : Client}

/-- A call of an operation. -/
lemma Client.Inv.call {bsp : Handle} {w : World} (hr : Represents n m w) (op : Call)
    (hallows : Client.Allows ⟨w, some bsp⟩ n (.call op)) :
    ∃ w', Client.step ⟨w, some bsp⟩ (.call op) = some ((m.step (.call op)).1, ⟨w', some bsp⟩) ∧
      Represents n (m.step (.call op)).2 w' := by
  have hready := hr.sound.usable.ready
  have hfree : FileFree [] := fun b mode hmem => by simp at hmem
  have hadm : ∀ mode, Admits (I := store) [] StoreLock.index mode := by
    intro mode
    cases mode <;> simp [Admits]
  obtain ⟨-, hfits, hrange⟩ := hallows
  cases op with
  | update key data =>
    have hrange' : ∀ r ∈ w.updateWrites noFaults (fixedKey key) data,
        r.2.1 + r.2.2.length ≤ offMax := by
      intro r hmem
      rw [← recordWrites_updateBlock hready hfree key data (hadm .ex)] at hmem
      exact hrange r hmem
    obtain ⟨w', hend, hr'⟩ := hr.update (hfits key data rfl) hrange'
    refine ⟨w', ?_, hr'⟩
    simp only [Client.step, Call.prog, exec_updateBlock hready hfree key data (hadm .ex), hend]
    rfl
  | find key =>
    refine ⟨w, ?_, hr⟩
    simp only [Client.step, Call.prog, exec_findBlock hfree key (hadm .sh) (f := noFaults) rfl,
      findReply_of_stored (hr.stored (fixedKey key))]
    rfl
  | delete key =>
    have hexec := exec_deleteBlock (f := noFaults) hready hfree key (hadm .ex)
    cases hk : w.index (fixedKey key) with
    | none =>
      have hm := (hr.eq_none_iff (fixedKey key)).1 hk
      refine ⟨w, ?_, ?_⟩
      · simp only [Client.step, Call.prog, hexec, World.deleteEnding, hk, Kv.step, hm]
        rfl
      · have hsame : Function.update m (fixedKey key) none = m := by
          rw [← hm]
          exact Function.update_eq_self _ _
        simpa only [Kv.step, hsame] using hr
    | some iv =>
      have hm : m (fixedKey key) ≠ none := by
        intro hnone
        have := (hr.eq_none_iff (fixedKey key)).2 hnone
        simp [hk] at this
      refine ⟨_, ?_, hr.deleted hk⟩
      simp only [Client.step, Call.prog, hexec, World.deleteEnding, hk, Kv.step, hm, if_false]
      rfl

/-- One call. -/
lemma Client.Inv.step (hi : c.Inv n m) {e : StoreEvent} (hallows : c.Allows n e)
    (hlimit : ∀ largest, e = .openStorage largest →
      effectiveSize largest < beginningSize * 2 ^ maxBlockCnt) :
    ∃ c', c.step e = some ((m.step e).1, c') ∧ c'.Inv (e.nextSize n) (m.step e).2 := by
  obtain ⟨w, bsp⟩ := c
  cases e with
  | openStorage largest =>
    obtain ⟨rfl, hsize⟩ := hallows
    obtain ⟨w₁, hr, hrest⟩ := hi
    obtain ⟨w', hopen, hr'⟩ := hr.reopen hrest hsize (hlimit largest rfl)
    refine ⟨⟨w', some ⟨true, true, true⟩⟩, ?_, hr'⟩
    simp only [Client.step, hopen]
    rfl
  | call op =>
    cases bsp with
    | none => exact absurd rfl hallows.1
    | some bsp =>
      obtain ⟨w', hstep, hr⟩ := Client.Inv.call hi op hallows
      exact ⟨⟨w', some bsp⟩, hstep, hr⟩
  | closeStorage =>
    cases bsp with
    | none => exact absurd rfl hallows
    | some bsp =>
      obtain ⟨hret, w₁, hr, hrest⟩ := Represents.close hi bsp
      refine ⟨⟨_, none⟩, ?_, w₁, hr, hrest⟩
      simp only [Client.step, hret]
      rfl

/-- A sequence of calls. -/
lemma Client.Inv.run (es : List StoreEvent) (hi : c.Inv n m) (hlawful : c.Lawful n es)
    (hlimit : ∀ largest, .openStorage largest ∈ es →
      effectiveSize largest < beginningSize * 2 ^ maxBlockCnt) :
    ∃ c' n', c.run es = some ((m.run es).1, c') ∧ c'.Inv n' (m.run es).2 := by
  induction es generalizing n m c with
  | nil => exact ⟨c, n, rfl, hi⟩
  | cons e es ih =>
    obtain ⟨hallows, hrest⟩ := hlawful
    obtain ⟨c₁, hstep, hi₁⟩ := hi.step hallows (fun largest he => hlimit largest (by simp [he]))
    obtain ⟨c', n', hrun, hi'⟩ := ih hi₁ (hrest _ _ hstep)
      (fun largest hmem => hlimit largest (List.mem_cons_of_mem _ hmem))
    refine ⟨c', n', ?_, hi'⟩
    simp only [Client.run, hstep, hrun]
    rfl

/-- An empty directory holds the empty map. -/
lemma Blank.inv {w : World} (hb : Blank w) : Client.Inv 0 (fun _ => none) ⟨w, none⟩ := by
  have hnotable : ∀ b, ¬InTable 0 b := by
    rintro b ⟨-, hb⟩
    exact absurd hb (Nat.not_le.2 (Nat.mul_pos (by decide) (Nat.pow_pos (by decide))))
  refine ⟨_, ⟨hb.sound, fun b => ⟨?_, fun h => absurd h (hnotable b)⟩, hb.noEntry⟩, hb.rests⟩
  exact fun h => absurd h (Nat.not_lt_zero b)

end Runs

/-- The block store is a key-value store.  For every sequence of calls on an empty directory in
which `open_storage` is given sizes that the table of block sizes can hold: every call returns, with
the reply of the specification; and the index has an entry exactly for the keys of the map, with the
length and the CRC32 of the value. -/
theorem client_refines {w₀ : World} (hb : Blank w₀) (es : List StoreEvent)
    (hlawful : Client.Lawful 0 ⟨w₀, none⟩ es)
    (hlimit : ∀ largest, .openStorage largest ∈ es →
      effectiveSize largest < beginningSize * 2 ^ maxBlockCnt) :
    ∃ c, Client.run ⟨w₀, none⟩ es = some ((Kv.run (fun _ => none) es).1, c) ∧
      ∀ k, match (Kv.run (fun _ => none) es).2 k with
        | none => c.world.index k = none
        | some d => ∃ iv, c.world.index k = some iv ∧ iv.dataSize = d.length ∧
            iv.crc32 = crc32Calc d := by
  obtain ⟨c, n, hrun, hi⟩ := Client.Inv.run es hb.inv hlawful hlimit
  have hstored : ∃ w₁, (∀ k, Stored w₁ k ((Kv.run (fun _ => none) es).2 k)) ∧
      c.world.index = w₁.index := by
    obtain ⟨w, bsp⟩ := c
    cases bsp with
    | none =>
      obtain ⟨w₁, hr, hrest⟩ := hi
      exact ⟨w₁, hr.stored, hrest.index⟩
    | some bsp =>
      have hr : Represents n _ w := hi
      exact ⟨w, hr.stored, rfl⟩
  obtain ⟨w₁, hstored, hindex⟩ := hstored
  refine ⟨c, hrun, fun k => ?_⟩
  have hk := hstored k
  rw [hindex]
  split
  · rename_i hnone
    rw [hnone] at hk
    exact hk
  · rename_i d hsome
    rw [hsome] at hk
    obtain ⟨iv, hiv, hsize, hcrc, -⟩ := hk
    exact ⟨iv, hiv, hsize, hcrc⟩

/-- The first update of the small store may be made. -/
lemma small_update_allows {w : World} (hl : Lived 1024 (.opened (some [])) w)
    (hcfg : w.config = tableOf 1024) (hindex : w.index = fun _ => none)
    (hentry : w.fileHandler 0 = BlockFile.new 128) (key : List UInt8) (bsp : Handle) :
    Client.Allows ⟨w, some bsp⟩ 1024 (.call (.update key [2])) := by
  refine ⟨by simp, ?_, small_update_range hl hcfg hindex hentry key⟩
  rintro key' data heq
  obtain ⟨-, rfl⟩ := Call.update.inj heq
  exact ⟨0, ⟨by decide, by decide⟩, by decide⟩

/-- A `find_block` may be made. -/
lemma find_allows (w : World) (bsp : Handle) (n : ℕ) (key : List UInt8) :
    Client.Allows ⟨w, some bsp⟩ n (.call (.find key)) := by
  refine ⟨by simp, by simp, ?_⟩
  rw [Call.prog, recordWrites_findBlock]
  simp

theorem client_refines_one_key :
    ∃ c, Client.run ⟨World.empty, none⟩
      [.openStorage 1024, .call (.update [1] [2]), .call (.find [1])] =
        some ([{ ret := 0 }, { ret := 0 }, valueReply (some [2])], c) := by
  obtain ⟨w, hopen, hl, hcfg, hindex, hentry, -⟩ := exists_small_store
  have hlawful : Client.Lawful 0 ⟨World.empty, none⟩
      [.openStorage 1024, .call (.update [1] [2]), .call (.find [1])] := by
    refine ⟨⟨rfl, Nat.zero_le _⟩, fun r c hstep => ?_⟩
    simp only [Client.step, hopen, Option.some.injEq, Prod.mk.injEq] at hstep
    obtain ⟨-, rfl⟩ := hstep
    refine ⟨small_update_allows hl hcfg hindex hentry [1] _, fun r c hstep => ?_⟩
    simp only [Client.step, Call.prog, small_update hl hcfg hindex [1], Option.some.injEq,
      Prod.mk.injEq] at hstep
    obtain ⟨-, rfl⟩ := hstep
    exact ⟨find_allows _ _ _ _, fun _ _ _ => trivial⟩
  have hlimit : ∀ largest, StoreEvent.openStorage largest ∈
      [.openStorage 1024, .call (.update [1] [2]), .call (.find [1])] →
      effectiveSize largest < beginningSize * 2 ^ maxBlockCnt := by
    intro largest hmem
    have : largest = 1024 := by simpa using hmem
    rw [this]
    decide
  obtain ⟨c, hrun, -⟩ := client_refines blank_empty _ hlawful hlimit
  refine ⟨c, ?_⟩
  rw [hrun]
  simp [Kv.run, Kv.step]

/-! ## A size that is too large -/

/-- Descriptor `0` stays without a file. -/
lemma disk_stdin_pwrite {w : World} (hd : w.disk .stdin = none) (t : Transfer) (b off : ℕ)
    (data : List UInt8) : (w.pwrite t b off data).2.disk .stdin = none := by
  rcases disk_pwrite_cases w t b off data with hsame | ⟨d, file, hfile, hdisk⟩
  · rw [hsame]
    exact hd
  · have hne : Fd.stdin ≠ d := by
      rintro rfl
      simp [hd] at hfile
    rw [hdisk, Function.update_of_ne hne]
    exact hd

/-- After a failed `open_storage` the next one succeeds, but no record can be read. -/
lemma find_after_second_open {w : World} (hinit : w.inited = false) (hstdin : w.disk .stdin = none)
    (key : List UInt8) {iv : IndexValue} (hk : w.index (fixedKey key) = some iv) (largest : ℕ)
    (hlimit : beginningSize * 2 ^ maxBlockCnt ≤ effectiveSize largest) :
    ∃ w₁ w₂, openStorage {} largest w = ⟨-1, none, w₁⟩ ∧
      openStorage {} largest w₁ = ⟨0, some ⟨true, true, true⟩, w₂⟩ ∧
      exec (handle noFaults) (findBlock key) [] w₂ =
        .returned { ret := -1, valuePtr := some [], valueLen := iv.dataSize } [] w₂ := by
  refine ⟨_, _, openStorage_too_large hinit hlimit, openStorage_inited rfl largest, ?_⟩
  have hfree : FileFree [] := fun b mode hmem => by simp at hmem
  rw [exec_findBlock hfree key (by simp [Admits]) rfl]
  have hindex : (initStorage largest { w with inited := true }).2.index (fixedKey key) = some iv := hk
  have hfile : ∀ b, World.file { (initStorage largest { w with inited := true }).2 with
      logger := indexLoggerCreate, journal := magicHeader } b = none := fun b => hstdin
  simp [World.findReply, noFaults, hindex, World.pread, hfile]

/-- A record is stored, and the store is closed and opened again with a size that is too large; the
second attempt succeeds. -/
def secondOpen : List StoreEvent :=
  [.openStorage 1024, .call (.update [1] [2]), .closeStorage, .openStorage (2 ^ 27),
    .openStorage (2 ^ 27), .call (.find [1])]

theorem client_second_open :
    Client.Lawful 0 ⟨World.empty, none⟩ secondOpen ∧
    (∃ c, Client.run ⟨World.empty, none⟩ secondOpen =
      some ([{ ret := 0 }, { ret := 0 }, { ret := 0 }, { ret := -1 }, { ret := 0 },
        { ret := -1, valuePtr := some [], valueLen := 1 }], c)) ∧
    (Kv.run (fun _ => none) secondOpen).1.getLast? = some (valueReply (some [2])) := by
  obtain ⟨w, hopen, hl, hcfg, hindex, hentry, -⟩ := exists_small_store
  have hstdin : w.disk .stdin = none := by
    obtain ⟨w', hopen', -, -, -, -, -, -, hother⟩ := openStorage_spec 1024 (w := World.empty) rfl
      (fun n file hfile => by simp [World.empty] at hfile) (by decide)
    obtain rfl : w = w' := congrArg OpenResult.world (hopen.symm.trans hopen')
    exact hother .stdin (fun b _ => by simp)
  -- the update
  have hupdate := small_update hl hcfg hindex [1]
  have hu₁ : Usable (w.appended noFaults 0 (fixedKey [1]) [2]) := by
    refine hl.usable.appended noFaults ?_ _ _
    have := w.sizeClass_lt (n := 1) (by rw [hcfg, sizeClass_one]; decide)
    rwa [hcfg, sizeClass_one] at this
  have hstdin₁ : (w.appended noFaults 0 (fixedKey [1]) [2]).disk .stdin = none := by
    have hset : (w.setFileHandler 0 (w.fileHandler 0).takeSlot.2).disk .stdin = none := hstdin
    rw [World.disk_appended]
    exact disk_stdin_pwrite (disk_stdin_pwrite hset _ _ _ _) _ _ _ _
  have hindex₁ : (w.appended noFaults 0 (fixedKey [1]) [2]).index (fixedKey [1]) =
      some (w.appendedValue 0 [2]) := by
    simp [noFaults]
  generalize w.appended noFaults 0 (fixedKey [1]) [2] = w₁ at hupdate hu₁ hstdin₁ hindex₁
  -- the close
  obtain ⟨hret₂, w₂, ⟨hstdin₂, hindex₂⟩, hinit₃, hdisk₃, hindex₃⟩ := closeStorage_spec (c := {})
    (P := fun w' => w'.disk .stdin = none ∧ w'.index = w₁.index) ⟨true, true, true⟩ hu₁
    (fun w' b _ _ hw' => ⟨disk_stdin_pwrite hw'.1 _ _ _ _, by simpa using hw'.2⟩) ⟨hstdin₁, rfl⟩
  have hclose : closeStorage {} ⟨true, true, true⟩ w₁ =
      (0, (closeStorage {} ⟨true, true, true⟩ w₁).2) := Prod.ext (hret₂ rfl) rfl
  generalize (closeStorage {} ⟨true, true, true⟩ w₁).2 = w₃ at hinit₃ hdisk₃ hindex₃ hclose
  -- the two attempts, and the search
  obtain ⟨w₄, w₅, hfail, hagain, hfind⟩ := find_after_second_open hinit₃ (hdisk₃ ▸ hstdin₂) [1]
    (by rw [hindex₃, hindex₂, hindex₁]) (2 ^ 27) (by decide)
  have hstep₁ : Client.step ⟨World.empty, none⟩ (.openStorage 1024) =
      some ({ ret := 0 }, ⟨w, some ⟨true, true, true⟩⟩) := by
    simp only [Client.step, hopen]
  have hstep₂ : Client.step ⟨w, some ⟨true, true, true⟩⟩ (.call (.update [1] [2])) =
      some ({ ret := 0 }, ⟨w₁, some ⟨true, true, true⟩⟩) := by
    simp only [Client.step, Call.prog, hupdate]
  have hstep₃ : Client.step ⟨w₁, some ⟨true, true, true⟩⟩ .closeStorage =
      some ({ ret := 0 }, ⟨w₃, none⟩) := by
    simp only [Client.step, hclose]
  have hstep₄ : Client.step ⟨w₃, none⟩ (.openStorage (2 ^ 27)) =
      some ({ ret := -1 }, ⟨w₄, none⟩) := by
    simp only [Client.step, hfail]
  have hstep₅ : Client.step ⟨w₄, none⟩ (.openStorage (2 ^ 27)) =
      some ({ ret := 0 }, ⟨w₅, some ⟨true, true, true⟩⟩) := by
    simp only [Client.step, hagain]
  have hstep₆ : Client.step ⟨w₅, some ⟨true, true, true⟩⟩ (.call (.find [1])) =
      some ({ ret := -1, valuePtr := some [], valueLen := 1 }, ⟨w₅, some ⟨true, true, true⟩⟩) := by
    simp only [Client.step, Call.prog, hfind]
    rfl
  refine ⟨?_, ?_, ?_⟩
  · refine ⟨⟨rfl, Nat.zero_le _⟩, fun r c hc => ?_⟩
    obtain ⟨-, rfl⟩ := Prod.mk.inj (Option.some.inj (hstep₁.symm.trans hc))
    refine ⟨small_update_allows hl hcfg hindex hentry [1] _, fun r c hc => ?_⟩
    obtain ⟨-, rfl⟩ := Prod.mk.inj (Option.some.inj (hstep₂.symm.trans hc))
    refine ⟨by simp [Client.Allows], fun r c hc => ?_⟩
    obtain ⟨-, rfl⟩ := Prod.mk.inj (Option.some.inj (hstep₃.symm.trans hc))
    refine ⟨⟨rfl, by decide⟩, fun r c hc => ?_⟩
    obtain ⟨-, rfl⟩ := Prod.mk.inj (Option.some.inj (hstep₄.symm.trans hc))
    refine ⟨⟨rfl, by decide⟩, fun r c hc => ?_⟩
    obtain ⟨-, rfl⟩ := Prod.mk.inj (Option.some.inj (hstep₅.symm.trans hc))
    exact ⟨find_allows _ _ _ _, fun _ _ _ => trivial⟩
  · refine ⟨⟨w₅, some ⟨true, true, true⟩⟩, ?_⟩
    simp only [secondOpen, Client.run, hstep₁, hstep₂, hstep₃, hstep₄, hstep₅, hstep₆,
      Option.map_some]
  · simp [secondOpen, Kv.run, Kv.step]

end Linglongta
