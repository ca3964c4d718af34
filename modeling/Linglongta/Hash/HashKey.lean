import Linglongta.Hash.Readers
import Linglongta.Foundations.Integers
import Linglongta.Storage.Index

/-!
# Hashed keys

`calc_hash_key` of `storage.c` makes an index key of `bobhash64` and `MurmurHash64A` of a byte
string.  `bobhash64` hands its locals `pc` and `pb` to `hashlittle2`, which takes them for the
seeds, and never initialises them.

A call is a buffer that holds the string, with whatever lies behind it in the memory, and the values
that the locals happen to have.  For fixed locals the result depends on the string only: not on the
memory behind it, and not on the alignment of the buffer (`bobhash64_congr`, `calcHashKey_congr`).
But no string has a result that is the same for all locals.  The internal state at the end
determines the two seeds, and `bobhash64` keeps two of its three words; if these were the same for
all seeds, the third word alone would tell `2 ^ 64` pairs of seeds apart.
-/

namespace Linglongta

open TwoRuns

/-! ## `mhash.c` -/

/-- The multiplier `m` of `MurmurHash64A`. -/
def murmurM : UInt64 := 0xc6a4a7935bd1e995

/-- A load of 64 bits. -/
def load64 (mem : Memory) (p : ℕ) : UInt64 :=
  UInt64.ofNat (Bytes.ofLE ((List.range 8).map fun i => mem (p + i)))

/-- One round of the loop of `MurmurHash64A`. -/
def murmurRound (h k : UInt64) : UInt64 :=
  let k := k * murmurM
  let k := k ^^^ (k >>> 47)
  let k := k * murmurM
  let h := h ^^^ k
  h * murmurM

/-- The loop of `MurmurHash64A` after `n` rounds, the last of which is about word `n - 1`. -/
def murmurBlocks (mem : Memory) : ℕ → UInt64 → UInt64
  | 0, h => h
  | n + 1, h => murmurRound (murmurBlocks mem n h) (load64 mem (8 * n))

/-- The fall-through cases of the `switch` of `MurmurHash64A`: the case of `n + 1` takes in byte `n`
and goes on with the case of `n`. -/
def murmurBytes (mem : Memory) (p : ℕ) : ℕ → UInt64 → UInt64
  | 0, h => h
  | n + 1, h => murmurBytes mem p n (h ^^^ ((mem (p + n)).toUInt64 <<< UInt64.ofNat (8 * n)))

/-- `MurmurHash64A`; `len` is an `int`.  There is no result if `end` lies in front of `data`: the
loop then runs out of the memory. -/
def murmurHash64A (mem : Memory) (len : Int) : Option UInt64 :=
  let h := 0xfeedbeef ^^^ (UInt64.ofInt len * murmurM)
  if len.tdiv 8 < 0 then none
  else
    let n := (len.tdiv 8).toNat
    let h := murmurBlocks mem n h
    -- `len & 7`
    let rest := (len % 8).toNat
    let h := if rest = 0 then h else murmurBytes mem (8 * n) rest h * murmurM
    let h := h ^^^ (h >>> 47)
    let h := h * murmurM
    some (h ^^^ (h >>> 47))

/-! ## `calc_hash_key` -/

/-- The image of a `union index_key_t` with the given two words. -/
def hashKey (bobhashValue mhashValue : UInt64) : Key where
  bytes := Bytes.toLE 8 bobhashValue.toNat ++ Bytes.toLE 8 mhashValue.toNat
  size_eq := by simp [keyLen]

/-- `calc_hash_key`; `locals` are those of `bobhash64`. -/
def calcHashKey (mem : Memory) (addr srcLen : ℕ) (locals : Seeds) : Option Key :=
  let bobhashValue := bobhash64 mem addr srcLen locals
  (murmurHash64A mem (toInt32 srcLen)).map fun mhashValue => hashKey bobhashValue mhashValue

/-- A buffer that holds a byte string. -/
structure KeyBuffer (key : List UInt8) where
  /-- The address of the buffer. -/
  addr : ℕ
  /-- The memory from there on, also behind the string. -/
  mem : Memory
  /-- The string is there. -/
  holds : ∀ i (h : i < key.length), mem i = key.get ⟨i, h⟩

/-- A call on a byte string in a buffer of a given alignment. -/
structure HashCall (key : List UInt8) (align : Fin 4) where
  /-- The buffer. -/
  buffer : KeyBuffer key
  /-- What the locals of `bobhash64` hold when `hashlittle2` is called. -/
  locals : Seeds
  /-- The alignment of the buffer. -/
  aligned : buffer.addr % 4 = align

/-- What `bobhash64` returns. -/
def HashCall.bobhash64 {key : List UInt8} {align : Fin 4} (x : HashCall key align) : UInt64 :=
  Linglongta.bobhash64 x.buffer.mem x.buffer.addr key.length x.locals

/-- What `calc_hash_key` leaves in `*dest`. -/
def HashCall.calcHashKey {key : List UInt8} {align : Fin 4} (x : HashCall key align) : Option Key :=
  Linglongta.calcHashKey x.buffer.mem x.buffer.addr key.length x.locals

/-! ## For fixed locals the string decides -/

section Congr

variable {mem mem' : Memory} {key : List UInt8}

lemma load64_congr {p : ℕ} (h : ∀ i < 8, mem (p + i) = mem' (p + i)) :
    load64 mem p = load64 mem' p := by
  unfold load64
  congr 2
  exact List.map_congr_left fun i hi => h i (List.mem_range.1 hi)

lemma murmurBlocks_congr (n : ℕ) (x : UInt64) (h : ∀ i < 8 * n, mem i = mem' i) :
    murmurBlocks mem n x = murmurBlocks mem' n x := by
  induction n with
  | zero => rfl
  | succ n ih =>
    rw [murmurBlocks, murmurBlocks, ih fun i hi => h i (by omega),
      load64_congr fun i hi => h (8 * n + i) (by omega)]

lemma murmurBytes_congr (n p : ℕ) (x : UInt64) (h : ∀ i < n, mem (p + i) = mem' (p + i)) :
    murmurBytes mem p n x = murmurBytes mem' p n x := by
  induction n generalizing x with
  | zero => rfl
  | succ n ih =>
    rw [murmurBytes, murmurBytes, h n n.lt_succ_self,
      ih _ fun i hi => h i (hi.trans n.lt_succ_self)]

/-- There is no hash if and only if the length is at most `-8` as an `int`. -/
lemma murmurHash64A_eq_none_iff (mem : Memory) (len : Int) :
    murmurHash64A mem len = none ↔ len ≤ -8 := by
  have hdiv := tdiv_eight len
  unfold murmurHash64A
  split
  · next hneg => exact iff_of_true rfl (by omega)
  · next hneg => exact iff_of_false (by simp) (by omega)

/-- `MurmurHash64A` reads nothing behind the string, also where the conversion of the length to
`int` changes it. -/
lemma murmurHash64A_congr (n : ℕ) (h : ∀ i < n, mem i = mem' i) :
    murmurHash64A mem (toInt32 n) = murmurHash64A mem' (toInt32 n) := by
  unfold murmurHash64A
  split
  · rfl
  · next hneg =>
    -- the words and the bytes behind them lie in the string
    have hread : 8 * ((toInt32 n).tdiv 8).toNat + (toInt32 n % 8).toNat ≤ n := by
      have hle := toInt32_le n
      have hbig : toInt32 n < 0 → 2 ^ 31 ≤ n := le_of_toInt32_neg
      have hdiv := tdiv_eight (toInt32 n)
      omega
    have hblocks : ∀ x, murmurBlocks mem ((toInt32 n).tdiv 8).toNat x =
        murmurBlocks mem' ((toInt32 n).tdiv 8).toNat x :=
      fun x => murmurBlocks_congr _ x fun i hi => h i (by omega)
    have hbytes : ∀ x, murmurBytes mem (8 * ((toInt32 n).tdiv 8).toNat) (toInt32 n % 8).toNat x =
        murmurBytes mem' (8 * ((toInt32 n).tdiv 8).toNat) (toInt32 n % 8).toNat x :=
      fun x => murmurBytes_congr _ _ x fun i hi => h _ (by omega)
    simp only [hblocks, hbytes]

/-- Two buffers that hold the same string agree on its bytes. -/
lemma KeyBuffer.agree (b b' : KeyBuffer key) (i : ℕ) (hi : i < key.length) :
    b.mem i = b'.mem i := by
  rw [b.holds i hi, b'.holds i hi]

/-- What `hashlittle2` reports depends on the seeds and the string. -/
lemma hashlittle2_congr (b b' : KeyBuffer key) (seeds : Seeds) :
    hashlittle2 b.mem b.addr key.length seeds = hashlittle2 b'.mem b'.addr key.length seeds := by
  have hagree : ∀ i < key.length, b.mem (0 + i) = b'.mem (0 + i) := by
    intro i hi
    rw [Nat.zero_add]
    exact b.agree b' i hi
  simp only [hashlittle2, hashBlocks_keyReader, hashBlocks_congr 0 key.length _ hagree]

/-- For fixed locals `bobhash64` depends on the string only. -/
lemma bobhash64_congr (b b' : KeyBuffer key) (locals : Seeds) :
    bobhash64 b.mem b.addr key.length locals = bobhash64 b'.mem b'.addr key.length locals := by
  rw [bobhash64, hashlittle2_congr b b' locals, bobhash64]

/-- For fixed locals `calc_hash_key` depends on the string only. -/
lemma calcHashKey_congr (b b' : KeyBuffer key) (locals : Seeds) :
    calcHashKey b.mem b.addr key.length locals = calcHashKey b'.mem b'.addr key.length locals := by
  rw [calcHashKey, bobhash64_congr b b' locals,
    murmurHash64A_congr key.length fun i hi => b.agree b' i hi, calcHashKey]

end Congr

/-! ## The locals show in the result -/

section Seeds

/-- The two words of the result can be read off it. -/
lemma pack_injective :
    Function.Injective fun out : Seeds => out.pc.toUInt64 + (out.pb.toUInt64 <<< 32) := by
  intro s t heq
  have hnat := congrArg UInt64.toNat heq
  have hs := s.pc.toNat_lt
  have ht := t.pc.toNat_lt
  have hs' := s.pb.toNat_lt
  have ht' := t.pb.toNat_lt
  have hshift : (32 : UInt64).toNat % 64 = 32 := rfl
  simp only [UInt64.toNat_add, UInt64.toNat_shiftLeft, UInt32.toNat_toUInt64, Nat.shiftLeft_eq,
    hshift] at hnat
  exact Seeds.ext (UInt32.toNat_inj.1 (by omega)) (UInt32.toNat_inj.1 (by omega))

/-- The index key shows the value of `bobhash64`. -/
lemma hashKey_injective (mhashValue : UInt64) :
    Function.Injective fun bobhashValue => hashKey bobhashValue mhashValue := by
  intro x y heq
  have hbytes : Bytes.toLE 8 x.toNat ++ Bytes.toLE 8 mhashValue.toNat =
      Bytes.toLE 8 y.toNat ++ Bytes.toLE 8 mhashValue.toNat := congrArg Blob.bytes heq
  have hfirst := congrArg Bytes.ofLE (List.append_cancel_right hbytes)
  rw [Bytes.ofLE_toLE x.toNat_lt, Bytes.ofLE_toLE y.toNat_lt] at hfirst
  exact UInt64.toNat_inj.1 hfirst

/-- For no string is the result of `hashlittle2` the same for all seeds. -/
lemma hashlittle2_not_determined (mem : Memory) (addr length : ℕ) :
    ¬Determined fun seeds : UInt32 × UInt32 => hashlittle2 mem addr length ⟨seeds.1, seeds.2⟩ := by
  -- the last internal state: `a` is dropped, `c` and `b` are kept
  let last : UInt32 × UInt32 → HashState := fun seeds =>
    hashBlocks KeyReader.padded mem 0 length (hashInit length ⟨seeds.1, seeds.2⟩)
  have hkept : (fun seeds : UInt32 × UInt32 => hashlittle2 mem addr length ⟨seeds.1, seeds.2⟩) =
      fun seeds => ⟨(last seeds).c, (last seeds).b⟩ := by
    funext seeds
    rw [hashlittle2, hashBlocks_keyReader]
  rw [hkept]
  refine not_determined_of_injective (fun seeds => (last seeds).a) ?_ card_word_lt_card_pair
  intro s t heq
  obtain ⟨ha, hrest⟩ := Prod.mk.inj heq
  obtain ⟨hc, hb⟩ := Seeds.mk.inj hrest
  have hlast : last s = last t := HashState.ext ha hb hc
  have hseeds := hashInit_injective length (hashBlocks_injective mem 0 length hlast)
  obtain ⟨hpc, hpb⟩ := Seeds.mk.inj hseeds
  exact Prod.ext hpc hpb

/-- A buffer of a given alignment, with zeros behind the string. -/
def zeroBuffer (key : List UInt8) (align : Fin 4) : KeyBuffer key where
  addr := align
  mem i := key.getD i 0
  holds i h := by simp [List.getD_eq_getElem?_getD, h]

/-- The call on that buffer that finds the given values in the locals. -/
def zeroCall (key : List UInt8) (align : Fin 4) (locals : Seeds) : HashCall key align where
  buffer := zeroBuffer key align
  locals := locals
  aligned := Nat.mod_eq_of_lt align.isLt

/-- For no string and no alignment is the result of `bobhash64` determined. -/
lemma bobhash64_not_determined (key : List UInt8) (align : Fin 4) :
    ¬Determined fun x : HashCall key align => x.bobhash64 := by
  intro hdet
  have hcalls := hdet.comp fun seeds : UInt32 × UInt32 => zeroCall key align ⟨seeds.1, seeds.2⟩
  exact hashlittle2_not_determined _ _ _ (Determined.of_comp pack_injective hcalls)

/-- The result of `calc_hash_key` is determined only where there is none. -/
lemma calcHashKey_determined_iff (key : List UInt8) (align : Fin 4) :
    (Determined fun x : HashCall key align => x.calcHashKey) ↔ toInt32 key.length ≤ -8 := by
  constructor
  · intro hdet
    by_contra hlen
    -- the two halves of the key are there, and the first one is determined with it
    refine bobhash64_not_determined key align fun x y => ?_
    have heq : x.calcHashKey = y.calcHashKey := hdet x y
    have hmurmur := murmurHash64A_congr key.length fun i hi => x.buffer.agree y.buffer i hi
    obtain ⟨mhash, hsome⟩ := Option.ne_none_iff_exists'.1
      (mt (murmurHash64A_eq_none_iff x.buffer.mem (toInt32 key.length)).1 hlen)
    simp only [HashCall.calcHashKey, calcHashKey, ← hmurmur, hsome, Option.map_some,
      Option.some.injEq] at heq
    exact hashKey_injective mhash heq
  · intro hlen x y
    have hnone := fun mem => (murmurHash64A_eq_none_iff mem (toInt32 key.length)).2 hlen
    simp only [HashCall.calcHashKey, calcHashKey, hnone, Option.map_none]

/-- Hashed keys and the locals of `bobhash64`.  For no byte string and no alignment do all calls of
`bobhash64` give the same result, and neither do all calls of `calc_hash_key`, unless there is no
result at all: the length as an `int` is then at most `-8`, and `MurmurHash64A` runs out of the
memory.  For any fixed values of the locals, both depend on the byte string only. -/
theorem hashKey_depends_on_locals (key : List UInt8) (align : Fin 4) :
    (¬Determined fun x : HashCall key align => x.bobhash64) ∧
      ((Determined fun x : HashCall key align => x.calcHashKey) ↔ toInt32 key.length ≤ -8) ∧
      ∀ locals,
        (Determined fun b : KeyBuffer key => bobhash64 b.mem b.addr key.length locals) ∧
        Determined fun b : KeyBuffer key => calcHashKey b.mem b.addr key.length locals :=
  ⟨bobhash64_not_determined key align, calcHashKey_determined_iff key align, fun locals =>
    ⟨fun b b' => bobhash64_congr b b' locals, fun b b' => calcHashKey_congr b b' locals⟩⟩

/-- Two calls on the string `key` in the same buffer, the second of which finds a `1` in `pc`. -/
theorem hashKey_key_differs :
    (zeroCall [107, 101, 121] 0 ⟨0, 0⟩).bobhash64 ≠
        (zeroCall [107, 101, 121] 0 ⟨1, 0⟩).bobhash64 ∧
      (zeroCall [107, 101, 121] 0 ⟨0, 0⟩).calcHashKey ≠
        (zeroCall [107, 101, 121] 0 ⟨1, 0⟩).calcHashKey := by
  decide +kernel

end Seeds

end Linglongta
