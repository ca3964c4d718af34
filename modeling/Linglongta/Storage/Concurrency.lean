import Linglongta.Storage.Discipline
import Linglongta.Storage.Refinement

/-!
# Several threads on one handle

`find_block` gives up the index lock before it reads the record; by then it has the lock of the
block file.  `Shared` is a store that several threads use at once, each in a call of its own.  A
step of it is one action of one thread: a lock is taken or released, or one request is made.
Everything works, and the data fits.

Two fields of `Shared` are kept for the specification only.  `kv` is the map that the store holds; a
call changes it, as in `Kv.step`, when it gives up the exclusive index lock.  `looked` is what the
map had for the key of a call when the call looked it up in the index.

`find_linearizable` says of every state that is reached: a `find_block` that is done has replied
what it saw when it looked up the key, no assertion fails, and no threads wait for each other.
-/

namespace Linglongta

open Prog

/-- A store and the threads that use it. -/
structure Shared (T : Type) where
  /-- What each thread has left to do, and the locks it holds. -/
  threads : T → Thread store Reply
  /-- The global variables, the files and the index. -/
  world : World
  /-- The last call of each thread. -/
  call : T → Option Call
  /-- The map that the store holds. -/
  kv : Kv
  /-- What the map had for the key when the last call of the thread looked it up; none before. -/
  looked : T → Option (Option (List UInt8))

/-- The data of the call fits a block file. -/
def Call.Fits (cfg : Config) (c : Call) : Prop :=
  ∀ key data, c = .update key data →
    ∃ b < cfg.blockTypeCount, data.length ≤ cfg.blockSizeArray b

/-- The write of a record does not reach beyond the largest file offset. -/
def StoreReq.InRange (r : StoreReq) : Prop :=
  ∀ x ∈ recordWrites [r], x.2.1 + x.2.2.length ≤ offMax

namespace Shared

variable {T : Type} [DecidableEq T]

/-- The map after an action of a call. -/
def kvAfter (kv : Kv) (c : Option Call) : Option (Action store) → Kv
  | some (.unlock .index .ex) => c.elim kv fun op => (kv.step (.call op)).2
  | _ => kv

/-- What a call has looked up, after an action. -/
def lookedAfter (kv : Kv) (seen : Option (Option (List UInt8))) :
    Option (Action store) → Option (Option (List UInt8))
  | some (.call (.findRecord k)) => some (kv k)
  | _ => seen

/-- A thread that is done makes a call. -/
def start (s : Shared T) (t : T) (c : Call) : Shared T :=
  { s with
    threads := Function.update s.threads t ⟨c.prog, (s.threads t).held⟩
    call := Function.update s.call t (some c)
    looked := Function.update s.looked t none }

/-- A thread takes an action, which leads to the given point. -/
def act (s : Shared T) (t : T) (q : Point store Reply World) : Shared T :=
  { s with
    threads := Function.update s.threads t ⟨q.prog, q.held⟩
    world := q.world
    kv := kvAfter s.kv (s.call t) (s.threads t).prog.action
    looked := Function.update s.looked t
      (lookedAfter s.kv (s.looked t) (s.threads t).prog.action) }

/-- A step of one of the threads. -/
inductive Step : Shared T → Shared T → Prop
  /-- A thread that is done makes a call. -/
  | start (s : Shared T) (t : T) (c : Call) (r : Reply) (hret : (s.threads t).prog = ret r)
      (hfits : c.Fits s.world.config) : Step s (s.start t c)
  /-- A thread takes its next action. -/
  | act (s : Shared T) (t : T) (q : Point store Reply World)
      (hadv : Advances (handle noFaults) s.threads s.world t q)
      (hrange : ∀ r, (s.threads t).prog.action = some (.call r) → r.InRange) : Step s (s.act t q)

/-- The threads have not made a call yet. -/
def initial (w : World) (m : Kv) : Shared T where
  threads := fun _ => ⟨ret { ret := 0 }, []⟩
  world := w
  call := fun _ => none
  kv := m
  looked := fun _ => none

end Shared

/-! ## The phases of a call -/

/-- The record of the value can be read. -/
structure Readable (cfg : Config) (w : World) (iv : IndexValue) (v : List UInt8) : Prop where
  /-- The block file is in the table. -/
  file : iv.blockId < cfg.blockTypeCount
  /-- The record lies behind the header. -/
  behind : dataSectionPos ≤ iv.offset
  /-- The index has the length of the value. -/
  size : iv.dataSize = v.length
  /-- The file holds the value. -/
  read : w.pread .complete iv.blockId iv.offset v.length = some v

/-- `find_block` after it has released the index lock. -/
def readRecord (iv : IndexValue) : Prog store Reply := do
  let nread ← preadFile iv.blockId iv.offset iv.dataSize
  release (.file iv.blockId) .sh
  pure
    { ret := if nread.map List.length = some iv.dataSize then 0 else -1
      valuePtr := some (nread.getD [])
      valueLen := iv.dataSize }

/-- `find_block` after it has looked up the key. -/
def findAfter (found : Except Int IndexValue) : Prog store Reply :=
  match found with
  | .ok iv => do
    let mem ← slabAlloc iv.dataSize
    if mem = false then
      pure { ret := -1, valueLen := iv.dataSize }
    else do
      acquire (.file iv.blockId) .sh
      release .index .sh
      readRecord iv
  | .error e => do
    release .index .sh
    pure { ret := e }

lemma findBlock_eq (key : List UInt8) : findBlock key =
    lock StoreLock.index .sh (call (StoreReq.findRecord (fixedKey key)) findAfter) := rfl

/-- The end of `update_block` and `delete_block`. -/
def finish (ret : Int) : Prog store Reply :=
  unlock StoreLock.index .ex (.ret { ret := ret })

/-- Where a call is, and which locks it holds there.  The world matters from the moment when
`find_block` has found the key until it has read the record. -/
inductive CallPhase (cfg : Config) (fds : ℕ → Option Fd) (w : World) :
    Option Call → Option (Option (List UInt8)) → Prog store Reply → Held store → Prop
  /-- There was no call. -/
  | idle (r : Reply) : CallPhase cfg fds w none none (ret r) []
  /-- `update_block` or `delete_block` waits for the index lock. -/
  | waits {c : Call} (p : Prog store Int) (hprog : c.prog = lock StoreLock.index .ex (p >>= finish))
      (hp : KeepsDiscipline cfg fds p [(.index, .ex)]) (hfits : c.Fits cfg) :
      CallPhase cfg fds w (some c) none c.prog []
  /-- It holds the index lock. -/
  | changes {c : Call} {seen : Option (Option (List UInt8))} {h : Held store} (p : Prog store Int)
      (hfind : ∀ key, c ≠ .find key) (hindex : (StoreLock.index, LockMode.ex) ∈ h)
      (hp : Always (Answered cfg fds) (Disciplined cfg fds) (fun _ h' => h' = [(.index, .ex)]) p h) :
      CallPhase cfg fds w (some c) seen (p >>= finish) h
  /-- It is done. -/
  | changed {c : Call} {seen : Option (Option (List UInt8))} (r : Reply)
      (hfind : ∀ key, c ≠ .find key) : CallPhase cfg fds w (some c) seen (ret r) []
  /-- `find_block` waits for the index lock. -/
  | seeks (key : List UInt8) : CallPhase cfg fds w (some (.find key)) none (findBlock key) []
  /-- It is about to look up the key. -/
  | looks (key : List UInt8) : CallPhase cfg fds w (some (.find key)) none
      (call (StoreReq.findRecord (fixedKey key)) findAfter) [(.index, .sh)]
  /-- There is no such key. -/
  | misses (key : List UInt8) : CallPhase cfg fds w (some (.find key)) (some none)
      (unlock StoreLock.index .sh (ret { ret := dbNotfound })) [(.index, .sh)]
  /-- It needs memory for the value. -/
  | finds (key : List UInt8) {iv : IndexValue} {v : List UInt8} (hv : Readable cfg w iv v) :
      CallPhase cfg fds w (some (.find key)) (some (some v)) (findAfter (.ok iv)) [(.index, .sh)]
  /-- It waits for the lock of the block file. -/
  | seeksFile (key : List UInt8) {iv : IndexValue} {v : List UInt8} (hv : Readable cfg w iv v) :
      CallPhase cfg fds w (some (.find key)) (some (some v))
        (lock (StoreLock.file iv.blockId) .sh (unlock StoreLock.index .sh (readRecord iv)))
        [(.index, .sh)]
  /-- It holds both locks. -/
  | handsOver (key : List UInt8) {iv : IndexValue} {v : List UInt8} (hv : Readable cfg w iv v) :
      CallPhase cfg fds w (some (.find key)) (some (some v))
        (unlock StoreLock.index .sh (readRecord iv)) [(.file iv.blockId, .sh), (.index, .sh)]
  /-- It is about to read the record. -/
  | reads (key : List UInt8) {iv : IndexValue} {v : List UInt8} (hv : Readable cfg w iv v) :
      CallPhase cfg fds w (some (.find key)) (some (some v)) (readRecord iv) [(.file iv.blockId, .sh)]
  /-- It has read the record. -/
  | hasRead (key : List UInt8) {v : List UInt8} (b : ℕ) :
      CallPhase cfg fds w (some (.find key)) (some (some v))
        (unlock (StoreLock.file b) .sh (ret (valueReply (some v)))) [(.file b, .sh)]
  /-- It is done. -/
  | replies (key : List UInt8) (v : Option (List UInt8)) :
      CallPhase cfg fds w (some (.find key)) (some v) (ret (valueReply v)) []

section Phases

variable {cfg : Config} {fds : ℕ → Option Fd} {w : World} {c : Option Call}
variable {seen : Option (Option (List UInt8))} {p : Prog store Reply} {h : Held store}

/-- A call is not affected by what the others do, if the index stays while it holds the index lock
and the records of a block file stay while it holds the lock of that file. -/
lemma CallPhase.frame {w' : World} (hph : CallPhase cfg fds w c seen p h)
    (hindex : (StoreLock.index, LockMode.sh) ∈ h → w' = w)
    (hfile : ∀ b off d, (StoreLock.file b, LockMode.sh) ∈ h → b < cfg.blockTypeCount →
      dataSectionPos ≤ off → w.pread .complete b off d.length = some d →
      w'.pread .complete b off d.length = some d) : CallPhase cfg fds w' c seen p h := by
  by_cases hmem : (StoreLock.index, LockMode.sh) ∈ h
  · rwa [hindex hmem]
  · cases hph with
    | idle r => exact .idle r
    | waits q hprog hp hfits => exact .waits q hprog hp hfits
    | changes q hfind hex hp => exact .changes q hfind hex hp
    | changed r hfind => exact .changed r hfind
    | seeks key => exact .seeks key
    | looks key => exact .looks key
    | misses key => exact .misses key
    | finds key hv => exact absurd (List.mem_singleton_self _) hmem
    | seeksFile key hv => exact absurd (List.mem_singleton_self _) hmem
    | handsOver key hv => exact absurd (by simp) hmem
    | reads key hv =>
      exact .reads key { hv with read := hfile _ _ _ (List.mem_singleton_self _) hv.file hv.behind hv.read }
    | hasRead key b => exact .hasRead key b
    | replies key v => exact .replies key v

/-- A call takes its locks in order, and holds none when it is done. -/
lemma CallPhase.ordered (hph : CallPhase cfg fds w c seen p h) : Ordered StoreLock.rank ⟨p, h⟩ := by
  cases hph with
  | idle r => exact ordered_nil _
  | waits q hprog hp hfits => exact ordered_nil _
  | changed r hfind => exact ordered_nil _
  | seeks key => exact ordered_nil _
  | replies key v => exact ordered_nil _
  | changes q hfind hex hp =>
    cases q with
    | ret a => exact ordered_unlock _ _ _ _
    | abort =>
      constructor
      · intro l m k hq
        cases hq
      · intro a hq
        cases hq
    | call r k => exact ordered_call _ _ _
    | unlock l m k => exact ordered_unlock _ _ _ _
    | lock l m k =>
      constructor
      · intro l' m' k' hq
        obtain ⟨rfl, -, -⟩ := Prog.lock.inj hq
        exact hp.1
      · intro a hq
        cases hq
  | looks key => exact ordered_call _ _ _
  | misses key => exact ordered_unlock _ _ _ _
  | finds key hv => exact ordered_call _ _ _
  | handsOver key hv => exact ordered_unlock _ _ _ _
  | reads key hv => exact ordered_call _ _ _
  | hasRead key b => exact ordered_unlock _ _ _ _
  | seeksFile key hv =>
    constructor
    · intro l m k hq x hx
      obtain ⟨rfl, -, -⟩ := Prog.lock.inj hq
      rw [List.mem_singleton.1 hx]
      exact Nat.zero_lt_one
    · intro a hq
      cases hq

/-- Only `update_block` and `delete_block` hold the index lock exclusively. -/
lemma CallPhase.changes_of_mem (hph : CallPhase cfg fds w c seen p h)
    (hmem : (StoreLock.index, LockMode.ex) ∈ h) : ∃ q op, c = some op ∧ (∀ key, op ≠ .find key) ∧
      p = q >>= finish ∧
      Always (Answered cfg fds) (Disciplined cfg fds) (fun _ h' => h' = [(.index, .ex)]) q h := by
  cases hph with
  | changes q hfind hex hp => exact ⟨q, _, rfl, hfind, rfl, hp⟩
  | idle r => simp at hmem
  | waits q hprog hp hfits => simp at hmem
  | changed r hfind => simp at hmem
  | seeks key => simp at hmem
  | replies key v => simp at hmem
  | looks key => simp at hmem
  | misses key => simp at hmem
  | finds key hv => simp at hmem
  | handsOver key hv => simp at hmem
  | reads key hv => simp at hmem
  | hasRead key b => simp at hmem
  | seeksFile key hv => simp at hmem

/-- `find_block` does not fail, nor do the other calls without the index lock. -/
lemma CallPhase.not_abort (hph : CallPhase cfg fds w c seen abort h)
    (hmem : (StoreLock.index, LockMode.ex) ∉ h) : False := by
  generalize hp : (abort : Prog store Reply) = p at hph
  cases hph with
  | changes q hfind hex hp => exact hmem hex
  | waits q hprog hp' hfits =>
    rw [hprog] at hp
    cases hp
  | seeks key =>
    rw [findBlock_eq] at hp
    cases hp
  | idle r => cases hp
  | changed r hfind => cases hp
  | looks key => cases hp
  | misses key => cases hp
  | finds key hv => cases hp
  | seeksFile key hv => cases hp
  | handsOver key hv => cases hp
  | reads key hv => cases hp
  | hasRead key b => cases hp
  | replies key v => cases hp

/-- What `find_block` has replied. -/
lemma CallPhase.replied {key : List UInt8} {r : Reply}
    (hph : CallPhase cfg fds w (some (.find key)) seen (ret r) h) :
    ∃ v, seen = some v ∧ r = valueReply v := by
  generalize hc : some (Call.find key) = c at hph
  generalize hp : (ret r : Prog store Reply) = p at hph
  cases hph with
  | idle r' => cases hc
  | waits q hprog hp' hfits =>
    rw [hprog] at hp
    cases hp
  | changes q hfind hex hp => exact absurd (Option.some.inj hc).symm (hfind key)
  | changed r' hfind => exact absurd (Option.some.inj hc).symm (hfind key)
  | seeks key' =>
    rw [findBlock_eq] at hp
    cases hp
  | looks key' => cases hp
  | misses key' => cases hp
  | finds key' hv => cases hp
  | seeksFile key' hv => cases hp
  | handsOver key' hv => cases hp
  | reads key' hv => cases hp
  | hasRead key' b => cases hp
  | replies key' v => exact ⟨v, rfl, Prog.ret.inj hp⟩

/-- When `find_block` looks up its key, it has the index lock. -/
lemma CallPhase.looking {key : List UInt8} {k : Key}
    (hph : CallPhase cfg fds w (some (.find key)) seen p h)
    (hact : p.action = some (.call (.findRecord k))) :
    k = fixedKey key ∧ (StoreLock.index, LockMode.sh) ∈ h := by
  generalize hc : some (Call.find key) = c at hph
  cases hph with
  | idle r' => cases hc
  | waits q hprog hp' hfits =>
    rw [hprog] at hact
    cases hact
  | changes q hfind hex hp => exact absurd (Option.some.inj hc).symm (hfind key)
  | changed r' hfind => exact absurd (Option.some.inj hc).symm (hfind key)
  | seeks key' =>
    rw [findBlock_eq] at hact
    cases hact
  | looks key' =>
    obtain rfl := Call.find.inj (Option.some.inj hc)
    exact ⟨(StoreReq.findRecord.inj (Action.call.inj (Option.some.inj hact))).symm, by simp⟩
  | misses key' => cases hact
  | finds key' hv => cases hact
  | seeksFile key' hv => cases hact
  | handsOver key' hv => cases hact
  | reads key' hv => cases hact
  | hasRead key' b => cases hact
  | replies key' v => cases hact

/-- What `find_block` reads is the value. -/
lemma Readable.next_reads {iv : IndexValue} {v : List UInt8} (hv : Readable cfg w iv v) :
    next (handle noFaults) ⟨readRecord iv, h, w⟩ =
      some ⟨unlock (StoreLock.file iv.blockId) .sh (ret (valueReply (some v))), h, w⟩ := by
  have hread : (handle noFaults w (.pread iv.blockId iv.offset v.length)).1 = some v := hv.read
  simp only [readRecord, preadFile_bind, Prog.next, release_bind, pure_eq_ret, hread, valueReply,
    hv.size, Option.map_some, if_true, Option.getD_some]
  rfl

/-- The value that is stored can be read. -/
lemma Represents.readable {n : ℕ} {kv : Kv} (hr : Represents n kv w) (hfix : Fixed cfg fds w)
    {k : Key} {v : List UInt8} (hk : kv k = some v) :
    ∃ iv, w.index k = some iv ∧ Readable cfg w iv v := by
  have hs := hr.stored k
  rw [hk] at hs
  obtain ⟨iv, hiv, hsize, -, hread⟩ := hs
  refine ⟨iv, hiv, ?_, hr.sound.slots.dataSectionPos_le hiv, hsize, hread⟩
  rw [← hfix.config]
  exact hr.sound.usable.indexed k iv hiv

/-- A step of `find_block`. -/
lemma CallPhase.next_find {n : ℕ} {kv : Kv} {key : List UInt8} {q : Point store Reply World}
    (hph : CallPhase cfg fds w (some (.find key)) seen p h) (hfix : Fixed cfg fds w)
    (hrep : (StoreLock.index, LockMode.sh) ∈ h → Represents n kv w)
    (hn : next (handle noFaults) ⟨p, h, w⟩ = some q) :
    q.world = w ∧ p.action ≠ some (.unlock .index .ex) ∧
      (StoreLock.index, LockMode.ex) ∉ q.held ∧
      CallPhase cfg fds w (some (.find key)) (Shared.lookedAfter kv seen p.action) q.prog q.held := by
  generalize hc : some (Call.find key) = c at hph
  cases hph with
  | idle r => cases hc
  | waits p' hprog hp hfits =>
    obtain rfl := Option.some.inj hc
    rw [Call.prog, findBlock_eq] at hprog
    cases hprog
  | changes p' hfind hex hp => exact absurd (Option.some.inj hc).symm (hfind key)
  | changed r hfind => exact absurd (Option.some.inj hc).symm (hfind key)
  | replies key' v => cases hn
  | seeks key' =>
    obtain rfl := Call.find.inj (Option.some.inj hc)
    rw [findBlock_eq] at hn ⊢
    obtain rfl := Option.some.inj hn
    exact ⟨rfl, by simp [Prog.action], by simp, .looks key⟩
  | looks key' =>
    obtain rfl := Call.find.inj (Option.some.inj hc)
    obtain rfl := Option.some.inj hn
    have hr := hrep (List.mem_singleton_self _)
    refine ⟨rfl, by simp [Prog.action], by simp, ?_⟩
    show CallPhase cfg fds w (some (.find key)) (some (kv (fixedKey key)))
      (findAfter (w.findRecord none (fixedKey key))) [(.index, .sh)]
    cases hkv : kv (fixedKey key) with
    | none =>
      have hnone := (hr.eq_none_iff _).2 hkv
      simp only [World.findRecord, hnone]
      exact .misses key
    | some v =>
      obtain ⟨iv, hiv, hv⟩ := hr.readable hfix hkv
      simp only [World.findRecord, hiv]
      exact .finds key hv
  | misses key' =>
    obtain rfl := Call.find.inj (Option.some.inj hc)
    obtain rfl := Option.some.inj hn
    exact ⟨rfl, by simp [Prog.action], by simp, .replies key none⟩
  | finds key' hv =>
    obtain rfl := Call.find.inj (Option.some.inj hc)
    obtain rfl := Option.some.inj hn
    exact ⟨rfl, by simp [findAfter, Prog.action], by simp, .seeksFile key hv⟩
  | seeksFile key' hv =>
    obtain rfl := Call.find.inj (Option.some.inj hc)
    obtain rfl : _ = q := by simpa [Prog.next, Admits] using hn
    exact ⟨rfl, by simp [Prog.action], by simp, .handsOver key hv⟩
  | handsOver key' hv =>
    obtain rfl := Call.find.inj (Option.some.inj hc)
    obtain rfl := Option.some.inj hn
    exact ⟨rfl, by simp [Prog.action], by simp, .reads key hv⟩
  | reads key' hv =>
    obtain rfl := Call.find.inj (Option.some.inj hc)
    rw [hv.next_reads] at hn
    obtain rfl := Option.some.inj hn
    exact ⟨rfl, by simp [readRecord, Prog.action], by simp, .hasRead key _⟩
  | hasRead key' b =>
    obtain rfl := Call.find.inj (Option.some.inj hc)
    obtain rfl := Option.some.inj hn
    refine ⟨rfl, by simp [Prog.action], by simp, ?_⟩
    simp only [List.erase_cons_head]
    exact .replies key _

/-- A step of a call that changes the store, before it gives up the index lock. -/
lemma next_changes {p : Prog store Int} {q : Point store Reply World}
    (hp : Always (Answered cfg fds) (Disciplined cfg fds) (fun _ h' => h' = [(.index, .ex)]) p h)
    (hmem : (StoreLock.index, LockMode.ex) ∈ h) (hfix : Fixed cfg fds w) (hret : ∀ a, p ≠ ret a)
    (hn : next (handle noFaults) ⟨p >>= finish, h, w⟩ = some q) :
    ∃ p', q.prog = p' >>= finish ∧
      Always (Answered cfg fds) (Disciplined cfg fds) (fun _ h' => h' = [(.index, .ex)]) p' q.held ∧
      (StoreLock.index, LockMode.ex) ∈ q.held ∧
      (p >>= finish).action ≠ some (.unlock .index .ex) ∧
      (q.world = w ∨ ∃ r, r.Guarded cfg fds h ∧ q.world = (handle noFaults w r).2) := by
  cases p with
  | ret a => exact absurd rfl (hret a)
  | abort => cases hn
  | call r k =>
    obtain rfl := Option.some.inj hn
    exact ⟨_, rfl, hp.2 _ (hfix.answered r), hmem, by simp [Prog.action], Or.inr ⟨r, hp.1, rfl⟩⟩
  | lock l m k =>
    simp only [lock_bind, Prog.next] at hn
    split at hn
    · obtain rfl := Option.some.inj hn
      exact ⟨_, rfl, hp.2, List.mem_cons_of_mem _ hmem, by simp [Prog.action], Or.inl rfl⟩
    · cases hn
  | unlock l m k =>
    obtain rfl := Option.some.inj hn
    refine ⟨_, rfl, hp.2, ?_, ?_, Or.inl rfl⟩
    · refine (List.mem_erase_of_ne ?_).2 hmem
      exact fun heq => hp.1.1 (congrArg Prod.fst heq).symm
    · intro hact
      obtain ⟨rfl, -⟩ := Action.unlock.inj (Option.some.inj hact)
      exact hp.1.1 rfl

end Phases

/-! ## A call that changes the store -/

/-- The call `op` started when the store `w₀` held the map, with the index lock.  Since then it has
made the requests `reqs`, and has `p` left to do. -/
structure Began (n : ℕ) (kv : Kv) (op : Call) (w₀ : World) (reqs : List StoreReq)
    (p : Prog store Reply) (h : Held store) (w : World) : Prop where
  /-- The store when the call started. -/
  represents : Represents n kv w₀
  /-- The data fits a block file. -/
  fits : ∀ key data, op = .update key data → ∃ b, InTable n b ∧ data.length ≤ beginningSize * 2 ^ b
  /-- The call goes on as if it were alone. -/
  exec : exec (handle noFaults) p h w = Prog.exec (handle noFaults) op.prog [] w₀
  /-- So do its requests. -/
  requests : reqs ++ Prog.requests (handle noFaults) p h w =
    Prog.requests (handle noFaults) op.prog [] w₀
  /-- No record was written beyond the largest file offset. -/
  range : ∀ r ∈ recordWrites reqs, r.2.1 + r.2.2.length ≤ offMax

section Began

variable {n : ℕ} {kv : Kv} {op : Call} {w₀ w : World} {reqs : List StoreReq}
variable {p : Prog store Reply} {h : Held store}

/-- The call takes an action. -/
lemma Began.next (hb : Began n kv op w₀ reqs p h w) {q : Point store Reply World}
    (hn : next (handle noFaults) ⟨p, h, w⟩ = some q)
    (hrange : ∀ r, p.action = some (.call r) → r.InRange) :
    Began n kv op w₀ (reqs ++ Action.requests p.action) q.prog q.held q.world where
  represents := hb.represents
  fits := hb.fits
  exec := by rw [exec_next hn, hb.exec]
  requests := by rw [List.append_assoc, requests_next hn, hb.requests]
  range := by
    intro r hmem
    rw [recordWrites_append] at hmem
    rcases List.mem_append.1 hmem with hold | hnew
    · exact hb.range r hold
    · cases p with
      | call r' k => exact hrange r' rfl r hnew
      | ret a => cases hnew
      | abort => cases hnew
      | lock l m k => cases hnew
      | unlock l m k => cases hnew

/-- A call that makes no further requests ends as the specification says. -/
lemma Began.ends (hb : Began n kv op w₀ reqs p h w)
    (hreqs : Prog.requests (handle noFaults) p h w = []) :
    ∃ h' w', Prog.exec (handle noFaults) p h w = .returned (kv.step (.call op)).1 h' w' ∧
      Represents n (kv.step (.call op)).2 w' := by
  have hall := hb.requests
  rw [hreqs, List.append_nil] at hall
  have hallows : Client.Allows ⟨w₀, some ⟨true, true, true⟩⟩ n (.call op) :=
    ⟨by simp, hb.fits, hall ▸ hb.range⟩
  obtain ⟨w', hstep, hr⟩ := Client.Inv.call hb.represents op hallows
  rw [hb.exec]
  simp only [Client.step] at hstep
  split at hstep
  · rename_i r h' w'' hexec
    simp only [Option.some.injEq, Prod.mk.injEq, Client.mk.injEq, and_true] at hstep
    obtain ⟨rfl, rfl⟩ := hstep
    exact ⟨h', w'', hexec, hr⟩
  · cases hstep
  · cases hstep

/-- The call does not fail. -/
lemma Began.ne_abort (hb : Began n kv op w₀ reqs p h w) : p ≠ abort := by
  rintro rfl
  obtain ⟨h', w', hexec, -⟩ := hb.ends rfl
  cases hexec

end Began

/-- A call that may be made fits the table with which the store was opened. -/
lemma Represents.fits {n : ℕ} {kv : Kv} {w : World} {cfg : Config} {fds : ℕ → Option Fd} {c : Call}
    (hr : Represents n kv w) (hfix : Fixed cfg fds w) (hfits : c.Fits cfg) :
    ∀ key data, c = .update key data → ∃ b, InTable n b ∧ data.length ≤ beginningSize * 2 ^ b := by
  intro key data hc
  obtain ⟨b, hb, hlen⟩ := hfits key data hc
  have hlt : b < w.blockTypeCount := by
    rw [← hfix.config] at hb
    exact hb
  refine ⟨b, (hr.table b).1 hlt, ?_⟩
  rw [← hr.sound.usable.sizes b hlt]
  rw [← hfix.config] at hlen
  exact hlen

/-! ## The invariant -/

/-- What holds of a store and the threads that use it. -/
structure Shared.Inv {T : Type} (n : ℕ) (cfg : Config) (fds : ℕ → Option Fd) (s : Shared T) :
    Prop where
  /-- The locks are compatible. -/
  compatible : Compatible s.threads
  /-- The table of block sizes and the descriptors stay. -/
  fixed : Fixed cfg fds s.world
  /-- Every thread is at some point of its call. -/
  phase : ∀ t, CallPhase cfg fds s.world (s.call t) (s.looked t) (s.threads t).prog (s.threads t).held
  /-- The store holds the map while nobody changes it. -/
  rest : (∀ t, (StoreLock.index, LockMode.ex) ∉ (s.threads t).held) → Represents n s.kv s.world
  /-- A call that changes the store goes on as if it were alone. -/
  busy : ∀ t op, s.call t = some op → (StoreLock.index, LockMode.ex) ∈ (s.threads t).held →
    ∃ w₀ reqs, Began n s.kv op w₀ reqs (s.threads t).prog (s.threads t).held s.world

namespace Shared

section Inv

variable {T : Type} [DecidableEq T] {n : ℕ} {cfg : Config} {fds : ℕ → Option Fd} {s : Shared T}
variable {t : T} {q : Point store Reply World}

lemma kvAfter_of_ne {kv : Kv} {c : Option Call} {a : Option (Action store)}
    (ha : a ≠ some (.unlock .index .ex)) : kvAfter kv c a = kv := by
  unfold kvAfter
  split
  · exact absurd rfl ha
  · rfl

@[simp] lemma act_threads_self : (s.act t q).threads t = ⟨q.prog, q.held⟩ := by simp [act]

lemma act_threads_of_ne {t' : T} (hne : t' ≠ t) : (s.act t q).threads t' = s.threads t' := by
  simp [act, hne]

omit [DecidableEq T] in
/-- Only calls that change the store hold the index lock exclusively. -/
lemma Inv.not_mem_of_find (hi : Inv n cfg fds s) {key : List UInt8}
    (hc : s.call t = some (.find key)) :
    (StoreLock.index, LockMode.ex) ∉ (s.threads t).held := by
  intro hmem
  obtain ⟨p, op, hop, hfind, -⟩ := (hi.phase t).changes_of_mem hmem
  exact hfind key (Option.some.inj (hop.symm.trans hc))

/-- The store holds the map while a `find_block` has the index lock. -/
lemma Inv.represents_of_find (hi : Inv n cfg fds s) {key : List UInt8}
    (hc : s.call t = some (.find key))
    (hsh : (StoreLock.index, LockMode.sh) ∈ (s.threads t).held) : Represents n s.kv s.world := by
  apply hi.rest
  intro t' hex
  by_cases ht : t' = t
  · exact hi.not_mem_of_find hc (ht ▸ hex)
  · exact hi.compatible t' t ht _ _ hex hsh

/-- The phases after an action, from that of the thread that takes it. -/
lemma phase_act
    (hself : CallPhase cfg fds q.world (s.call t)
      (lookedAfter s.kv (s.looked t) (s.threads t).prog.action) q.prog q.held)
    (hothers : ∀ t' ≠ t, CallPhase cfg fds q.world (s.call t') (s.looked t') (s.threads t').prog
      (s.threads t').held) (t' : T) :
    CallPhase cfg fds (s.act t q).world ((s.act t q).call t') ((s.act t q).looked t')
      ((s.act t q).threads t').prog ((s.act t q).threads t').held := by
  by_cases ht : t' = t
  · subst ht
    simpa [act] using hself
  · simpa [act, ht] using hothers t' ht

/-- `find_block` takes an action. -/
lemma Inv.act_find (hi : Inv n cfg fds s) (hadv : Advances (handle noFaults) s.threads s.world t q)
    {key : List UInt8} (hc : s.call t = some (.find key)) : Inv n cfg fds (s.act t q) := by
  have hph := hi.phase t
  rw [hc] at hph
  obtain ⟨hworld, hact, hex, hph'⟩ := hph.next_find hi.fixed (hi.represents_of_find hc) hadv.1
  have hkv : (s.act t q).kv = s.kv := kvAfter_of_ne hact
  have hsame : (s.act t q).world = s.world := hworld
  refine ⟨hi.compatible.advance hadv, ?_, ?_, fun hnone => ?_, fun t' op hop hmem => ?_⟩
  · rw [hsame]
    exact hi.fixed
  · apply phase_act
    · rw [hc, hworld]
      exact hph'
    · intro t' _
      rw [hworld]
      exact hi.phase t'
  · rw [hkv, hsame]
    apply hi.rest
    intro t' hmem
    by_cases ht : t' = t
    · exact hi.not_mem_of_find hc (ht ▸ hmem)
    · exact hnone t' (by rwa [act_threads_of_ne ht])
  · by_cases ht : t' = t
    · subst ht
      rw [act_threads_self] at hmem
      exact absurd hmem hex
    · rw [act_threads_of_ne ht] at hmem ⊢
      obtain ⟨w₀, reqs, hb⟩ := hi.busy t' op hop hmem
      refine ⟨w₀, reqs, ?_⟩
      rwa [hkv, hsame]

/-- A call takes the index lock to change the store. -/
lemma Inv.act_waits (hi : Inv n cfg fds s) (hadv : Advances (handle noFaults) s.threads s.world t q)
    {c : Call} (hc : s.call t = some c) {p : Prog store Int}
    (hprog : (s.threads t).prog = c.prog) (hlock : c.prog = lock StoreLock.index .ex (p >>= finish))
    (hheld : (s.threads t).held = []) (hp : KeepsDiscipline cfg fds p [(.index, .ex)])
    (hfits : c.Fits cfg) (hfind : ∀ key, c ≠ .find key) : Inv n cfg fds (s.act t q) := by
  have hfree : Free s.threads StoreLock.index .ex := hadv.2 _ _ (by rw [hprog, hlock]; rfl)
  have hnone : ∀ t', (StoreLock.index, LockMode.ex) ∉ (s.threads t').held := fun t' =>
    (hfree t').2
  have hr := hi.rest hnone
  obtain rfl : ⟨p >>= finish, [(.index, .ex)], s.world⟩ = q := by
    have hn := hadv.1
    rw [hprog, hlock, hheld, next, if_pos (by simp [Admits])] at hn
    exact Option.some.inj hn
  have hkv : (s.act t ⟨p >>= finish, [(.index, .ex)], s.world⟩).kv = s.kv := by
    apply kvAfter_of_ne
    rw [hprog, hlock]
    simp [Prog.action]
  refine ⟨hi.compatible.advance hadv, hi.fixed, ?_, fun hnone' => ?_, fun t' op hop hmem => ?_⟩
  · apply phase_act
    · rw [hc]
      exact .changes p hfind (List.mem_singleton_self _) hp
    · exact fun t' _ => hi.phase t'
  · exact absurd (by simp) (hnone' t)
  · by_cases ht : t' = t
    · subst ht
      obtain rfl := Option.some.inj (hc.symm.trans hop)
      refine ⟨s.world, [], ?_⟩
      rw [hkv, act_threads_self]
      refine ⟨hr, hr.fits hi.fixed hfits, ?_, ?_, by simp [recordWrites]⟩
      · rw [hlock, exec_lock, if_pos (by simp [Admits])]
        rfl
      · rw [hlock, requests_lock, if_pos (by simp [Admits])]
        rfl
    · rw [act_threads_of_ne ht] at hmem
      exact absurd hmem (hnone t')

/-- A call gives up the index lock after it has changed the store. -/
lemma Inv.act_finish (hi : Inv n cfg fds s) (hadv : Advances (handle noFaults) s.threads s.world t q)
    {c : Call} (hc : s.call t = some c) {a : Int} (hprog : (s.threads t).prog = finish a)
    (hheld : (s.threads t).held = [(.index, .ex)]) (hfind : ∀ key, c ≠ .find key) :
    Inv n cfg fds (s.act t q) := by
  have hmem : (StoreLock.index, LockMode.ex) ∈ (s.threads t).held := by simp [hheld]
  obtain ⟨w₀, reqs, hb⟩ := hi.busy t c hc hmem
  rw [hprog, hheld] at hb
  obtain ⟨h', w', hexec, hr⟩ := hb.ends rfl
  have hnone : ∀ t' ≠ t, (StoreLock.index, LockMode.ex) ∉ (s.threads t').held := fun t' ht =>
    hi.compatible t t' ht.symm _ _ hmem
  obtain rfl : ⟨ret { ret := a }, [(StoreLock.index, LockMode.ex)].erase (.index, .ex), s.world⟩ = q := by
    have hn := hadv.1
    rw [hprog, hheld, finish, next] at hn
    exact Option.some.inj hn
  obtain rfl : s.world = w' := (Outcome.returned.inj hexec).2.2
  refine ⟨hi.compatible.advance hadv, hi.fixed, ?_, fun _ => ?_, fun t' op hop hmem' => ?_⟩
  · apply phase_act
    · rw [hc]
      simp only [List.erase_cons_head]
      exact .changed _ hfind
    · exact fun t' _ => hi.phase t'
  · have hkv : (s.act t ⟨ret { ret := a }, [(StoreLock.index, LockMode.ex)].erase (.index, .ex),
        s.world⟩).kv = (s.kv.step (.call c)).2 := by
      simp only [act, hprog, hc, finish, Prog.action, kvAfter, Option.elim]
    rw [hkv]
    exact hr
  · by_cases ht : t' = t
    · subst ht
      simp at hmem'
    · rw [act_threads_of_ne ht] at hmem'
      exact absurd hmem' (hnone t' ht)

/-- A call takes an action while it changes the store. -/
lemma Inv.act_changes (hi : Inv n cfg fds s) (hfds : Distinct cfg fds)
    (hadv : Advances (handle noFaults) s.threads s.world t q)
    (hrange : ∀ r, (s.threads t).prog.action = some (.call r) → r.InRange)
    {c : Call} (hc : s.call t = some c) {p : Prog store Int}
    (hprog : (s.threads t).prog = p >>= finish) (hret : ∀ a, p ≠ ret a)
    (hmem : (StoreLock.index, LockMode.ex) ∈ (s.threads t).held)
    (hp : Always (Answered cfg fds) (Disciplined cfg fds) (fun _ h' => h' = [(.index, .ex)]) p
      (s.threads t).held) (hfind : ∀ key, c ≠ .find key) : Inv n cfg fds (s.act t q) := by
  have hn := hadv.1
  rw [hprog] at hn
  obtain ⟨p', hq, hp', hmem', hact, hworld⟩ := next_changes hp hmem hi.fixed hret hn
  have hkv : (s.act t q).kv = s.kv := by
    apply kvAfter_of_ne
    rwa [hprog]
  have hnone : ∀ t' ≠ t, (StoreLock.index, LockMode.ex) ∉ (s.threads t').held := fun t' ht =>
    hi.compatible t t' ht.symm _ _ hmem
  refine ⟨hi.compatible.advance hadv, ?_, ?_, fun hrest => ?_, fun t' op hop hex => ?_⟩
  · rcases hworld with hsame | ⟨r, hg, hr⟩
    · show Fixed cfg fds q.world
      rw [hsame]
      exact hi.fixed
    · show Fixed cfg fds q.world
      rw [hr]
      exact hi.fixed.handle hg
  · apply phase_act
    · rw [hc, hq]
      exact .changes p' hfind hmem' hp'
    · intro t' ht
      refine (hi.phase t').frame (fun hsh => ?_) fun b off d hsh hb hoff hread => ?_
      · exact absurd hsh (hi.compatible t t' ht.symm _ _ hmem)
      · rcases hworld with hsame | ⟨r, hg, hr⟩
        · rwa [hsame]
        · rw [hr]
          refine hg.pread hi.fixed hfds (fun hex => ?_) hb hoff hread
          exact hi.compatible t t' ht.symm _ _ hex hsh
  · refine absurd ?_ (hrest t)
    rwa [act_threads_self]
  · by_cases ht : t' = t
    · subst ht
      obtain rfl := Option.some.inj (hc.symm.trans hop)
      obtain ⟨w₀, reqs, hb⟩ := hi.busy t' c hc hmem
      rw [hkv, act_threads_self]
      exact ⟨w₀, _, hb.next hadv.1 hrange⟩
    · rw [act_threads_of_ne ht] at hex
      exact absurd hex (hnone t' ht)

/-- A thread takes an action. -/
lemma Inv.act (hi : Inv n cfg fds s) (hfds : Distinct cfg fds)
    (hadv : Advances (handle noFaults) s.threads s.world t q)
    (hrange : ∀ r, (s.threads t).prog.action = some (.call r) → r.InRange) :
    Inv n cfg fds (s.act t q) := by
  have hph := hi.phase t
  cases hc : s.call t with
  | none =>
    rw [hc] at hph
    generalize hseen : s.looked t = seen at hph
    generalize hp : (s.threads t).prog = p at hph
    generalize hh : (s.threads t).held = h at hph
    cases hph with
    | idle r =>
      have hn := hadv.1
      rw [hp] at hn
      cases hn
  | some c =>
    by_cases hfind : ∃ key, c = .find key
    · obtain ⟨key, rfl⟩ := hfind
      exact hi.act_find hadv hc
    · push Not at hfind
      rw [hc] at hph
      generalize hseen : s.looked t = seen at hph
      generalize hp : (s.threads t).prog = p at hph
      generalize hh : (s.threads t).held = h at hph
      cases hph with
      | waits p' hprog hdisc hfits => exact hi.act_waits hadv hc hp hprog hh hdisc hfits hfind
      | changes p' _ hex hdisc =>
        by_cases hret : ∃ a, p' = ret a
        · obtain ⟨a, rfl⟩ := hret
          exact hi.act_finish hadv hc hp (hh.trans hdisc) hfind
        · push Not at hret
          subst hh
          exact hi.act_changes hfds hadv hrange hc hp hret hex hdisc hfind
      | changed r _ =>
        have hn := hadv.1
        rw [hp] at hn
        cases hn
      | seeks key => exact absurd rfl (hfind key)
      | looks key => exact absurd rfl (hfind key)
      | misses key => exact absurd rfl (hfind key)
      | finds key hv => exact absurd rfl (hfind key)
      | seeksFile key hv => exact absurd rfl (hfind key)
      | handsOver key hv => exact absurd rfl (hfind key)
      | reads key hv => exact absurd rfl (hfind key)
      | hasRead key b => exact absurd rfl (hfind key)
      | replies key v => exact absurd rfl (hfind key)

/-- Where a call starts. -/
lemma callPhase_start (w : World) {c : Call} (hfits : c.Fits cfg) :
    CallPhase cfg fds w (some c) none c.prog [] := by
  have hindex : OnlyIndex [(StoreLock.index, LockMode.ex)] := ⟨by simp, by simp⟩
  cases c with
  | update key data =>
    exact .waits (updateLocked (fixedKey key) data) rfl (keepsDiscipline_updateLocked hindex _ _) hfits
  | find key => exact .seeks key
  | delete key =>
    exact .waits (deleteLocked (fixedKey key)) rfl (keepsDiscipline_deleteLocked hindex _) hfits

/-- A thread that is done makes a call. -/
lemma Inv.start (hi : Inv n cfg fds s) {c : Call} {r : Reply} (hret : (s.threads t).prog = ret r)
    (hfits : c.Fits s.world.config) : Inv n cfg fds (s.start t c) := by
  have hheld : (s.threads t).held = [] := (hi.phase t).ordered.ret r hret
  have hsame : ∀ t', ((s.start t c).threads t').held = (s.threads t').held := by
    intro t'
    by_cases ht : t' = t
    · simp [Shared.start, ht]
    · simp [Shared.start, ht]
  refine ⟨?_, hi.fixed, fun t' => ?_, fun hnone => hi.rest fun t' => ?_, fun t' op hop hmem => ?_⟩
  · intro t₁ t₂ hne l m hex
    rw [hsame] at hex ⊢
    exact hi.compatible t₁ t₂ hne l m hex
  · by_cases ht : t' = t
    · subst ht
      simpa [Shared.start, hheld] using callPhase_start s.world (hi.fixed.config ▸ hfits)
    · simpa [Shared.start, ht] using hi.phase t'
  · rw [← hsame]
    exact hnone t'
  · rw [hsame] at hmem
    have ht : t' ≠ t := by
      rintro rfl
      simp [hheld] at hmem
    obtain ⟨w₀, reqs, hb⟩ := hi.busy t' op (by simpa [Shared.start, ht] using hop) hmem
    exact ⟨w₀, reqs, by simpa [Shared.start, ht] using hb⟩

/-- A step keeps the invariant. -/
lemma Inv.step (hi : Inv n cfg fds s) (hfds : Distinct cfg fds) {s' : Shared T} (hs : Step s s') :
    Inv n cfg fds s' := by
  cases hs with
  | start t c r hret hfits => exact hi.start hret hfits
  | act t q hadv hrange => exact hi.act hfds hadv hrange

/-- So does a run. -/
lemma Inv.run (hi : Inv n cfg fds s) (hfds : Distinct cfg fds) {s' : Shared T}
    (hs : Relation.ReflTransGen Step s s') : Inv n cfg fds s' := by
  induction hs with
  | refl => exact hi
  | tail _ hstep ih => exact ih.step hfds hstep

omit [DecidableEq T] in
/-- The invariant holds before the first call. -/
lemma inv_initial {w : World} {m : Kv} (hr : Represents n m w) :
    Inv n w.config (fun b => (w.fileHandler b).fd) (initial w m : Shared T) where
  compatible := fun _ _ _ _ _ hex => absurd hex List.not_mem_nil
  fixed := ⟨rfl, fun _ => rfl⟩
  phase := fun _ => .idle _
  rest := fun _ => hr
  busy := fun _ _ hop => by cases hop

omit [DecidableEq T] in
/-- No assertion fails. -/
lemma Inv.ne_abort (hi : Inv n cfg fds s) (t : T) : (s.threads t).prog ≠ abort := by
  intro hp
  have hph := hi.phase t
  by_cases hmem : (StoreLock.index, LockMode.ex) ∈ (s.threads t).held
  · obtain ⟨p, op, hop, -⟩ := hph.changes_of_mem hmem
    obtain ⟨w₀, reqs, hb⟩ := hi.busy t op hop hmem
    exact hb.ne_abort hp
  · rw [hp] at hph
    exact hph.not_abort hmem

end Inv

end Shared

/-- Reads are linearizable.  Several threads make calls on a store that some lawful use of it has
led to.  In every state that they reach: a `find_block` that is done has replied what the map had
for its key when it looked the key up; when it does so, the store holds that value; no assertion
fails; no threads wait for each other; and while a call is not done, some thread can go on. -/
theorem find_linearizable {T : Type} [DecidableEq T] {w₀ w : World} (hb : Blank w₀)
    {es : List StoreEvent} (hlawful : Client.Lawful 0 ⟨w₀, none⟩ es)
    (hlimit : ∀ largest, .openStorage largest ∈ es →
      effectiveSize largest < beginningSize * 2 ^ maxBlockCnt) {rs : List Reply} {bsp : Handle}
    (hrun : Client.run ⟨w₀, none⟩ es = some (rs, ⟨w, some bsp⟩)) {s : Shared T}
    (hs : Relation.ReflTransGen Shared.Step (Shared.initial w (Kv.run (fun _ => none) es).2) s) :
    (∀ t key r, s.call t = some (.find key) → (s.threads t).prog = ret r →
      ∃ v, s.looked t = some v ∧ r = valueReply v) ∧
    (∀ t key k, s.call t = some (.find key) →
      (s.threads t).prog.action = some (.call (.findRecord k)) →
      k = fixedKey key ∧ Stored s.world k (s.kv k)) ∧
    (∀ t, (s.threads t).prog ≠ abort) ∧
    (∀ S, ¬Deadlocked s.threads S) ∧
    ((∃ t, ∀ r, (s.threads t).prog ≠ ret r) →
      ∃ t q, Advances (handle noFaults) s.threads s.world t q) := by
  obtain ⟨c, n, hrun', hinv⟩ := Client.Inv.run es hb.inv hlawful hlimit
  obtain rfl : ⟨w, some bsp⟩ = c := (Prod.mk.inj (Option.some.inj (hrun.symm.trans hrun'))).2
  have hr : Represents n (Kv.run (fun _ => none) es).2 w := hinv
  have hi := (Shared.inv_initial hr).run (fun b hb c hc => hr.sound.usable.fd_ne hb hc) hs
  have hord : ∀ t, Ordered StoreLock.rank (s.threads t) := fun t => (hi.phase t).ordered
  have hrank : ∀ l : StoreLock, l.rank ≤ 1 := by
    intro l
    cases l with
    | index => exact Nat.zero_le 1
    | file b => exact le_rfl
  refine ⟨?_, ?_, hi.ne_abort, not_deadlocked hord hrank, fun hne => ?_⟩
  · intro t key r hc hret
    have hph := hi.phase t
    rw [hc, hret] at hph
    exact hph.replied
  · intro t key k hc hact
    have hph := hi.phase t
    rw [hc] at hph
    obtain ⟨rfl, hsh⟩ := hph.looking hact
    exact ⟨rfl, (hi.represents_of_find hc hsh).stored _⟩
  · exact exists_advances hord hrank hi.ne_abort hne s.world

/-- One thread makes an update; the other one looks for its key, and is done before. -/
theorem find_linearizable_missed : ∃ (w : World) (s : Shared Bool),
    Relation.ReflTransGen Shared.Step (Shared.initial w fun _ => none) s ∧
    s.call true = some (.update [1] [2]) ∧ s.call false = some (.find [1]) ∧
    (s.threads false).prog = ret (valueReply none) ∧ s.looked false = some none ∧
    ∀ S, ¬Deadlocked s.threads S := by
  obtain ⟨w, hopen, hl, hcfg, hindex, -, -⟩ := exists_small_store
  have hlawful : Client.Lawful 0 ⟨World.empty, none⟩ [.openStorage 1024] :=
    ⟨⟨rfl, Nat.zero_le _⟩, fun _ _ _ => trivial⟩
  have hlimit : ∀ largest, StoreEvent.openStorage largest ∈ [.openStorage 1024] →
      effectiveSize largest < beginningSize * 2 ^ maxBlockCnt := by
    intro largest hmem
    obtain rfl : largest = 1024 := by simpa using hmem
    decide
  have hrun : Client.run ⟨World.empty, none⟩ [.openStorage 1024] =
      some ([{ ret := 0 }], ⟨w, some ⟨true, true, true⟩⟩) := by
    simp only [Client.run, Client.step, hopen, Option.map_some]
  have hfits : (Call.update [1] [2]).Fits w.config := by
    intro key data heq
    obtain ⟨-, rfl⟩ := Call.update.inj heq
    rw [hcfg]
    exact ⟨0, by decide, by decide⟩
  have hfind : (Call.find [1]).Fits w.config := fun _ _ heq => by cases heq
  -- the search takes the index lock, finds nothing and releases the lock
  let s₂ : Shared Bool :=
    ((Shared.initial w fun _ => none).start true (.update [1] [2])).start false (.find [1])
  let s₃ := s₂.act false ⟨call (StoreReq.findRecord (fixedKey [1])) findAfter, [(.index, .sh)], w⟩
  let s₄ := s₃.act false ⟨findAfter (.error dbNotfound), [(.index, .sh)], w⟩
  let s₅ := s₄.act false ⟨ret (valueReply none), [], w⟩
  have h₂ : Relation.ReflTransGen Shared.Step (Shared.initial w fun _ => none) s₂ :=
    (Relation.ReflTransGen.single (.start _ true (.update [1] [2]) _ rfl hfits)).tail
      (.start _ false (.find [1]) _ rfl hfind)
  have h₃ : Shared.Step s₂ s₃ := by
    refine .act _ _ _ ⟨?_, fun l m _ t => ?_⟩ fun r hact => ?_
    · simp [s₂, Shared.start, Shared.initial, Call.prog, findBlock_eq, Prog.next, Admits]
    · cases m <;> cases t <;> simp [s₂, Shared.start, Shared.initial, Admits]
    · simp [s₂, Shared.start, Shared.initial, Call.prog, findBlock_eq, Prog.action] at hact
  have h₄ : Shared.Step s₃ s₄ := by
    refine .act _ _ _ ⟨?_, fun l m hact => ?_⟩ fun r hact x hx => ?_
    · simp [s₃, s₂, Shared.act, Prog.next, handle, World.findRecord, noFaults, hindex]
    · simp [s₃, Shared.act, Prog.action] at hact
    · obtain rfl : StoreReq.findRecord (fixedKey [1]) = r := by
        simpa [s₃, Shared.act, Prog.action] using hact
      cases hx
  have h₅ : Shared.Step s₄ s₅ := by
    refine .act _ _ _ ⟨?_, fun l m hact => ?_⟩ fun r hact => ?_
    · simp [s₄, Shared.act, findAfter, Prog.next, valueReply]
    · simp [s₄, Shared.act, findAfter, Prog.action] at hact
    · simp [s₄, Shared.act, findAfter, Prog.action] at hact
  have hs : Relation.ReflTransGen Shared.Step (Shared.initial w fun _ => none) s₅ :=
    ((h₂.tail h₃).tail h₄).tail h₅
  refine ⟨w, s₅, hs, by rfl, by rfl, by simp [s₅, Shared.act], ?_,
    (find_linearizable blank_empty hlawful hlimit hrun hs).2.2.2.1⟩
  simp [s₅, s₄, s₃, s₂, Shared.act, Shared.start, Shared.initial, findAfter, Prog.action,
    Shared.lookedAfter, Shared.kvAfter, Call.prog, findBlock_eq]

end Linglongta
