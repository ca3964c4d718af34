import Linglongta.Rwlock.Threads
import Linglongta.Storage.Linearizable

/-!
# The store and its rwlocks

`index_lock` and the lock of each block file are rwlocks.  `LockedStore` is a store that several
threads use where they run the sections of `rwlock_rdlock`, `rwlock_unrdlock`, `rwlock_wrlock` and
`rwlock_unwrlock` one by one, and sleep in between.

It refines the store with abstract locks (`LockedStore.exists_recorded`), so it is linearizable
(`store_rwlocks_linearizable`); and if the threads make no more calls, all of their calls return
(`store_calls_return`).
-/

namespace Linglongta

open Prog

/-- A store in use with its rwlocks, and the calls and replies so far. -/
structure LockedStore (T : Type) where
  /-- The threads, the locks and the store. -/
  machine : Machine store Reply World T
  /-- The calls and replies. -/
  history : List (Atomic.Event T Call Reply)

namespace LockedStore

variable {T : Type} [DecidableEq T]

/-- A thread that is done makes a call. -/
def start (s : LockedStore T) (t : T) (c : Call) : LockedStore T where
  machine :=
    { threads := Function.update s.machine.threads t ⟨c.prog, (s.machine.threads t).held⟩
      locks := s.machine.locks
      world := s.machine.world }
  history := s.history ++ [.invoke t c]

/-- A thread goes on in its call. -/
inductive Goes (s : LockedStore T) : LockedStore T → Prop
  /-- It makes a request, or runs one section of a lock. -/
  | move (t : T) (m : Machine store Reply World T) (hm : s.machine.Moves (handle noFaults) t m)
      (hrange : ∀ r, (s.machine.threads t).prog.action = some (.call r) → r.InRange) :
      Goes s ⟨m, s.history ++ replied t (m.threads t).prog⟩

/-- A step of one of the threads. -/
inductive Step (s : LockedStore T) : LockedStore T → Prop
  /-- A thread that is done makes a call. -/
  | start (t : T) (c : Call) (r : Reply) (hret : (s.machine.threads t).prog = ret r)
      (hfits : c.Fits s.machine.world.config) : Step s (s.start t c)
  /-- A thread goes on. -/
  | goes (s' : LockedStore T) (h : Goes s s') : Step s s'

lemma Goes.exists_moves {s s' : LockedStore T} (hg : Goes s s') :
    ∃ t, s.machine.Moves (handle noFaults) t s'.machine := by
  cases hg with
  | move t m hm hrange => exact ⟨t, hm⟩

/-- A step that changes nothing in the store changes nothing. -/
lemma Goes.eq_of_machine {s s' : LockedStore T} (hg : Goes s s') (hs : s'.machine = s.machine) :
    s' = s := by
  cases hg with
  | move t m hm hrange =>
    obtain rfl : m = s.machine := hs
    rw [replied_of_ne hm.ne_ret, List.append_nil]

omit [DecidableEq T] in
/-- The threads have not made a call yet. -/
def initial (w : World) : LockedStore T where
  machine :=
    { threads := fun _ => ⟨ret { ret := 0 }, []⟩
      locks := fun _ => Monitor.init
      world := w }
  history := []

end LockedStore

/-! ## The calls use the locks in an orderly way -/

/-- A call asks for no lock that it holds, and gives back only what it holds. -/
lemma CallPhase.orderly {cfg : Config} {fds : ℕ → Option Fd} {w : World} {c : Option Call}
    {seen : Option (Option (List UInt8))} {p : Prog store Reply} {h : Held store}
    (hph : CallPhase cfg fds w c seen p h) : Orderly ⟨p, h⟩ := by
  refine ⟨fun l m k hp x hx heq => ?_, fun l m k hp => ?_⟩
  · have hlt := hph.ordered.lock l m k hp x hx
    rw [heq] at hlt
    exact absurd hlt (lt_irrefl _)
  · simp only at hp
    cases hph with
    | idle r => cases hp
    | waits q hprog hq hfits =>
      rw [hprog] at hp
      cases hp
    | changes q hfind hex hq =>
      cases q with
      | ret a =>
        obtain ⟨rfl, rfl, -⟩ := Prog.unlock.inj hp
        exact hex
      | abort => cases hp
      | call r k => cases hp
      | lock l' m' k' => cases hp
      | unlock l' m' k' =>
        obtain ⟨rfl, rfl, -⟩ := Prog.unlock.inj hp
        exact hq.1.2
    | changed r hfind => cases hp
    | seeks key =>
      rw [findBlock_eq] at hp
      cases hp
    | looks key => cases hp
    | misses key =>
      obtain ⟨rfl, rfl, -⟩ := Prog.unlock.inj hp
      exact List.mem_singleton_self _
    | finds key hv => cases hp
    | seeksFile key hv => cases hp
    | handsOver key hv =>
      obtain ⟨rfl, rfl, -⟩ := Prog.unlock.inj hp
      simp
    | reads key hv => cases hp
    | hasRead key b =>
      obtain ⟨rfl, rfl, -⟩ := Prog.unlock.inj hp
      exact List.mem_singleton_self _
    | replies key v => cases hp

lemma StoreLock.rank_le (l : StoreLock) : l.rank ≤ 1 := by
  cases l with
  | index => exact Nat.zero_le 1
  | file b => exact le_rfl

/-! ## The refinement -/

namespace LockedStore

variable {T : Type} [Fintype T] {n : ℕ} {cfg : Config} {fds : ℕ → Option Fd} {m₀ : Kv}

/-- The store with abstract locks is in the same state. -/
structure Refines (n : ℕ) (cfg : Config) (fds : ℕ → Option Fd) (s : LockedStore T)
    (x : Recorded T) : Prop where
  /-- The threads are at the same points. -/
  threads : s.machine.threads = x.shared.threads
  /-- The world is the same. -/
  world : s.machine.world = x.shared.world
  /-- The history is the same. -/
  history : s.history = x.history
  /-- The locks fit to the threads. -/
  machine : s.machine.Inv
  /-- The store with abstract locks keeps its invariant. -/
  shared : Shared.Inv n cfg fds x.shared

variable [DecidableEq T] {s s' : LockedStore T} {x : Recorded T}

omit [DecidableEq T] in
lemma Refines.orderly (hr : Refines n cfg fds s x) (t : T) : Orderly (s.machine.threads t) := by
  rw [hr.threads]
  exact (hr.shared.phase t).orderly

omit [DecidableEq T] in
lemma Refines.ordered (hr : Refines n cfg fds s x) (t : T) :
    Ordered StoreLock.rank (s.machine.threads t) := by
  rw [hr.threads]
  exact (hr.shared.phase t).ordered

/-- A thread makes a call. -/
lemma Refines.start (hr : Refines n cfg fds s x) {t : T} {c : Call} {r : Reply}
    (hret : (s.machine.threads t).prog = ret r) (hfits : c.Fits s.machine.world.config) :
    ∃ x', Recorded.Step x x' ∧ Refines n cfg fds (s.start t c) x' := by
  have hret' : (x.shared.threads t).prog = ret r := by rwa [← hr.threads]
  have hfits' : c.Fits x.shared.world.config := by rwa [← hr.world]
  refine ⟨_, .start x t c r hret' hfits', ?_, hr.world, ?_, ?_, hr.shared.start hret' hfits'⟩
  · show Function.update s.machine.threads t _ = Function.update x.shared.threads t _
    rw [hr.threads]
  · show s.history ++ _ = x.history ++ _
    rw [hr.history]
  · exact hr.machine.prog (fun l m k hp => by rw [hret] at hp; cases hp) _ _

/-- A thread goes on. -/
lemma Refines.goes (hr : Refines n cfg fds s x) (hfds : Distinct cfg fds) (hg : Goes s s') :
    ∃ x', Relation.ReflTransGen Recorded.Step x x' ∧ Refines n cfg fds s' x' := by
  cases hg with
  | move t m hm hrange =>
    have hi' := hr.machine.move (hr.orderly t) hm
    rcases hm.advances hr.machine with ⟨hsame, hworld⟩ | ⟨q, hadv, hthreads, hworld⟩
    · -- it does not get the lock
      have hreplied : replied t (m.threads t).prog = [] := by
        rw [hsame]
        exact replied_of_ne hm.ne_ret
      refine ⟨x, .refl, hsame.trans hr.threads, hworld.trans hr.world, ?_, hi', hr.shared⟩
      show s.history ++ _ = _
      rw [hreplied, List.append_nil, hr.history]
    · have hadv' : Advances (handle noFaults) x.shared.threads x.shared.world t q := by
        rwa [← hr.threads, ← hr.world]
      have hrange' : ∀ r, (x.shared.threads t).prog.action = some (.call r) → r.InRange := by
        rwa [← hr.threads]
      refine ⟨_, .single (.act x t q hadv' hrange'), ?_, hworld, ?_, hi',
        hr.shared.act hfds hadv' hrange'⟩
      · show m.threads = Function.update x.shared.threads t _
        rw [hthreads, hr.threads]
      · show s.history ++ replied t (m.threads t).prog = x.history ++ replied t q.prog
        rw [hr.history, hthreads, Function.update_self]

/-- The store with its rwlocks does what the one with abstract locks can do. -/
lemma Refines.run (hr : Refines n cfg fds s x) (hfds : Distinct cfg fds)
    (hs : Relation.ReflTransGen Step s s') :
    ∃ x', Relation.ReflTransGen Recorded.Step x x' ∧ Refines n cfg fds s' x' := by
  induction hs with
  | refl => exact ⟨x, .refl, hr⟩
  | tail _ hstep ih =>
    obtain ⟨x₁, hx₁, hr₁⟩ := ih
    cases hstep with
    | start t c r hret hfits =>
      obtain ⟨x₂, hx₂, hr₂⟩ := hr₁.start hret hfits
      exact ⟨x₂, hx₁.tail hx₂, hr₂⟩
    | goes s₂ hg =>
      obtain ⟨x₂, hx₂, hr₂⟩ := hr₁.goes hfds hg
      exact ⟨x₂, hx₁.trans hx₂, hr₂⟩

omit [DecidableEq T] in
/-- The refinement holds before the first call. -/
lemma refines_initial {w : World} {m : Kv} (hr : Represents n m w) :
    Refines n w.config (fun b => (w.fileHandler b).fd) (initial w : LockedStore T)
      (Recorded.initial w m) where
  threads := rfl
  world := rfl
  history := rfl
  machine := Machine.inv_init (fun _ => rfl) w
  shared := Shared.inv_initial hr

/-- The store with abstract locks that a run leads to. -/
lemma exists_recorded {w₀ w : World} (hb : Blank w₀) {es : List StoreEvent}
    (hlawful : Client.Lawful 0 ⟨w₀, none⟩ es)
    (hlimit : ∀ largest, .openStorage largest ∈ es →
      effectiveSize largest < beginningSize * 2 ^ maxBlockCnt) {rs : List Reply} {bsp : Handle}
    (hrun : Client.run ⟨w₀, none⟩ es = some (rs, ⟨w, some bsp⟩))
    (hs : Relation.ReflTransGen Step (initial w) s) :
    ∃ n x, Relation.ReflTransGen Recorded.Step (Recorded.initial w (Kv.run (fun _ => none) es).2) x ∧
      Refines n w.config (fun b => (w.fileHandler b).fd) s x ∧
      Recorded.Sim (Kv.run (fun _ => none) es).2 x := by
  obtain ⟨c, n, hrun', hinv⟩ := Client.Inv.run es hb.inv hlawful hlimit
  obtain rfl : ⟨w, some bsp⟩ = c := (Prod.mk.inj (Option.some.inj (hrun.symm.trans hrun'))).2
  have hr : Represents n (Kv.run (fun _ => none) es).2 w := hinv
  have hfds : Distinct w.config fun b => (w.fileHandler b).fd :=
    fun b hb c hc => hr.sound.usable.fd_ne hb hc
  obtain ⟨x, hx, href⟩ := (refines_initial hr).run hfds hs
  exact ⟨n, x, hx, href,
    (Recorded.Sim.run (Recorded.sim_initial w _) (Shared.inv_initial hr) hfds hx).1⟩

end LockedStore

/-- The store is linearizable with the locks that it has.  Several threads make calls on a store that
some lawful use of it has led to, and run the sections of its rwlocks one by one.  In every
interleaving the calls and replies are a history of the atomic map; while no thread has the index
lock for writing, the store holds the values that the map has then; no assertion fails; and while a
call is not done, a thread can go on that does not sleep. -/
theorem store_rwlocks_linearizable {T : Type} [Fintype T] [DecidableEq T] {w₀ w : World}
    (hb : Blank w₀) {es : List StoreEvent} (hlawful : Client.Lawful 0 ⟨w₀, none⟩ es)
    (hlimit : ∀ largest, .openStorage largest ∈ es →
      effectiveSize largest < beginningSize * 2 ^ maxBlockCnt) {rs : List Reply} {bsp : Handle}
    (hrun : Client.run ⟨w₀, none⟩ es = some (rs, ⟨w, some bsp⟩)) {s : LockedStore T}
    (hs : Relation.ReflTransGen LockedStore.Step (LockedStore.initial w) s) :
    (∃ st m, Atomic Kv.apply (Kv.run (fun _ => none) es).2 s.history st m ∧
      (∀ t, st t = .idle ↔ ∃ r, (s.machine.threads t).prog = ret r) ∧
      ((∀ t, (s.machine.locks .index).place t ≠ .writing) →
        ∀ k, Stored s.machine.world k (m k))) ∧
    (∀ t, (s.machine.threads t).prog ≠ abort) ∧
    ((∃ t, ∀ r, (s.machine.threads t).prog ≠ ret r) →
      ∃ t m, s.machine.Moves (handle noFaults) t m ∧ ¬s.machine.Asleep t) := by
  obtain ⟨n, x, -, hr, hsim⟩ := LockedStore.exists_recorded hb hlawful hlimit hrun hs
  have habort : ∀ t, (s.machine.threads t).prog ≠ abort := by
    rw [hr.threads]
    exact hr.shared.ne_abort
  refine ⟨⟨Recorded.stages x.shared, x.shared.kv, ?_, ?_, fun hno => ?_⟩, habort, fun hne => ?_⟩
  · rw [hr.history]
    exact hsim
  · rw [hr.threads]
    exact Recorded.stages_eq_idle hr.shared
  · rw [hr.world]
    refine (hr.shared.rest fun t hex => ?_).stored
    rw [← hr.threads] at hex
    exact hno t ((hr.machine.holds .index t .ex).1 hex)
  · exact hr.machine.exists_move hr.ordered StoreLock.rank_le habort hne (handle noFaults)

/-- One thread has the index lock to update a key, and the other one, which looks for it, sleeps. -/
theorem store_rwlocks_linearizable_asleep : ∃ (w : World) (s : LockedStore Bool) (m : Kv),
    Relation.ReflTransGen LockedStore.Step (LockedStore.initial w) s ∧
    (s.machine.locks .index).place true = .writing ∧ s.machine.Asleep false ∧
    (∃ st, Atomic Kv.apply (fun _ => none) s.history st m) ∧
    ∃ t m, s.machine.Moves (handle noFaults) t m ∧ ¬s.machine.Asleep t := by
  obtain ⟨w, hopen, -, hcfg, -, -, -⟩ := exists_small_store
  have hlawful : Client.Lawful 0 ⟨World.empty, none⟩ [.openStorage 1024] :=
    ⟨⟨rfl, Nat.zero_le _⟩, fun _ _ _ => trivial⟩
  have hlimit : ∀ largest, StoreEvent.openStorage largest ∈ [.openStorage 1024] →
      effectiveSize largest < beginningSize * 2 ^ maxBlockCnt := by
    intro largest hmem
    obtain rfl : largest = 1024 := by simpa using hmem
    decide
  have hrun : Client.run ⟨World.empty, none⟩ [.openStorage 1024] =
      some ([{ ret := 0 }], ⟨w, some ⟨true, true, true⟩⟩) := by
    simp only [Client.run, Client.step, hopen, Option.map_some]
  have hfits : (Call.update [1] [2]).Fits w.config := by
    intro key data heq
    obtain ⟨-, rfl⟩ := Call.update.inj heq
    rw [hcfg]
    exact ⟨0, by decide, by decide⟩
  have hfind : (Call.find [1]).Fits w.config := fun _ _ heq => by cases heq
  let s₁ : LockedStore Bool := (LockedStore.initial w).start true (.update [1] [2])
  let s₂ : LockedStore Bool := s₁.start false (.find [1])
  have h₂ : Relation.ReflTransGen LockedStore.Step (LockedStore.initial w) s₂ :=
    (Relation.ReflTransGen.single (.start true _ _ rfl hfits)).tail (.start false _ _ rfl hfind)
  obtain ⟨k, hk⟩ : ∃ k, (s₂.machine.threads true).prog = lock StoreLock.index .ex k := ⟨_, rfl⟩
  obtain ⟨k', hk'⟩ : ∃ k, (s₂.machine.threads false).prog = lock StoreLock.index .sh k := ⟨_, rfl⟩
  -- the update gets the lock, and then the search waits for it
  have hm₃ := Machine.Moves.lock (H := handle noFaults) StoreLock.index .ex k hk rfl
  generalize hs₃ : Machine.mk (Function.update s₂.machine.threads true
    ⟨k, (StoreLock.index, LockMode.ex) :: (s₂.machine.threads true).held⟩)
    (Function.update s₂.machine.locks .index ((s₂.machine.locks .index).enter true .ex))
    s₂.machine.world = m₃ at hm₃
  have hk₃ : (m₃.threads false).prog = lock StoreLock.index .sh k' := by
    rw [← hs₃]
    exact hk'
  have hplace₃ : ((m₃.locks .index).enter false .sh).place = fun t =>
      if t then Place.writing else .readWait false := by
    rw [← hs₃]
    funext t
    cases t <;> rfl
  have hm₄ := Machine.Moves.wait (H := handle noFaults) StoreLock.index .sh k' hk₃
    (by rw [hplace₃]; decide)
  have h₄ := (h₂.tail (.goes _ (.move true m₃ hm₃ fun r hact => by
    rw [hk] at hact; cases hact))).tail (.goes _ (.move false _ hm₄ fun r hact => by
    rw [hk₃] at hact; cases hact))
  obtain ⟨⟨st, m, hatomic, -, -⟩, -, hgo⟩ :=
    store_rwlocks_linearizable blank_empty hlawful hlimit hrun h₄
  refine ⟨w, _, m, h₄, ?_, ⟨.index, .sh, ?_⟩, ⟨st, hatomic⟩, hgo ⟨false, fun r hr => ?_⟩⟩
  · simp [hplace₃]
  · simp [hplace₃, Place.waiting]
  · simp only [hk₃] at hr
    cases hr

/-- Every call returns.  From any state that several threads reach with the rwlocks, let the threads
go on without making further calls.  If something happens as long as some thread can change
something, then all threads are done from some time on. -/
theorem store_calls_return {T : Type} [Fintype T] [DecidableEq T] {w₀ w : World} (hb : Blank w₀)
    {es : List StoreEvent} (hlawful : Client.Lawful 0 ⟨w₀, none⟩ es)
    (hlimit : ∀ largest, .openStorage largest ∈ es →
      effectiveSize largest < beginningSize * 2 ^ maxBlockCnt) {rs : List Reply} {bsp : Handle}
    (hrun : Client.run ⟨w₀, none⟩ es = some (rs, ⟨w, some bsp⟩)) {run : ℕ → LockedStore T}
    (hs : Relation.ReflTransGen LockedStore.Step (LockedStore.initial w) (run 0))
    (hgoes : ∀ n, run (n + 1) = run n ∨ LockedStore.Goes (run n) (run (n + 1)))
    (hfair : ∀ n, (∃ t m, (run n).machine.Moves (handle noFaults) t m ∧ m ≠ (run n).machine) →
      ∃ i ≥ n, run (i + 1) ≠ run i) :
    ∃ N, ∀ n ≥ N, ∀ t, ∃ r, ((run n).machine.threads t).prog = ret r := by
  have hreach : ∀ n, Relation.ReflTransGen LockedStore.Step (LockedStore.initial w) (run n) := by
    intro n
    induction n with
    | zero => exact hs
    | succ n ih =>
      rcases hgoes n with hstay | hg
      · rwa [hstay]
      · exact ih.tail (.goes _ hg)
  have hinv : ∀ n, ∃ k x, LockedStore.Refines k w.config (fun b => (w.fileHandler b).fd) (run n) x := by
    intro n
    obtain ⟨k, x, -, hr, -⟩ := LockedStore.exists_recorded hb hlawful hlimit hrun (hreach n)
    exact ⟨k, x, hr⟩
  obtain ⟨N, hN⟩ : ∃ N, ∀ n ≥ N, (run n).machine = (run N).machine := by
    refine Machine.exists_rest (H := handle noFaults) (fun n => ?_) fun n => ?_
    · obtain ⟨k, x, hr⟩ := hinv n
      exact hr.machine
    · rcases hgoes n with hstay | hg
      · exact Or.inl (by rw [hstay])
      · exact Or.inr hg.exists_moves
  refine ⟨N, fun n hn t => ?_⟩
  rw [hN n hn]
  by_contra hno
  push Not at hno
  -- somebody could go on, but from now on nothing happens
  obtain ⟨k, x, hr⟩ := hinv N
  have habort : ∀ t, ((run N).machine.threads t).prog ≠ abort := by
    rw [hr.threads]
    exact hr.shared.ne_abort
  obtain ⟨u, m, hm, hs⟩ :=
    hr.machine.exists_move hr.ordered StoreLock.rank_le habort ⟨t, hno⟩ (handle noFaults)
  obtain ⟨i, hi, hne⟩ := hfair N ⟨u, m, hm, hm.ne hr.machine hs⟩
  have hsame : (run (i + 1)).machine = (run i).machine :=
    (hN (i + 1) (by omega)).trans (hN i hi).symm
  rcases hgoes i with hstay | hg
  · exact hne hstay
  · exact hne (hg.eq_of_machine hsame)

/-- A thread looks for a key that is not there: it takes the index lock, looks, gives the lock back,
and is done. -/
theorem store_calls_return_find : ∃ (w : World) (run : ℕ → LockedStore Unit),
    Relation.ReflTransGen LockedStore.Step (LockedStore.initial w) (run 0) ∧
    (∀ r, ((run 0).machine.threads ()).prog ≠ ret r) ∧
    ∃ N, ∀ n ≥ N, ∀ t, ∃ r, ((run n).machine.threads t).prog = ret r := by
  obtain ⟨w, hopen, -, -, hindex, -, -⟩ := exists_small_store
  have hlawful : Client.Lawful 0 ⟨World.empty, none⟩ [.openStorage 1024] :=
    ⟨⟨rfl, Nat.zero_le _⟩, fun _ _ _ => trivial⟩
  have hlimit : ∀ largest, StoreEvent.openStorage largest ∈ [.openStorage 1024] →
      effectiveSize largest < beginningSize * 2 ^ maxBlockCnt := by
    intro largest hmem
    obtain rfl : largest = 1024 := by simpa using hmem
    decide
  have hrun : Client.run ⟨World.empty, none⟩ [.openStorage 1024] =
      some ([{ ret := 0 }], ⟨w, some ⟨true, true, true⟩⟩) := by
    simp only [Client.run, Client.step, hopen, Option.map_some]
  have hfind : (Call.find [1]).Fits w.config := fun _ _ heq => by cases heq
  let s₀ : LockedStore Unit := (LockedStore.initial w).start () (.find [1])
  have h₀ : Relation.ReflTransGen LockedStore.Step (LockedStore.initial w) s₀ :=
    .single (.start () _ _ rfl hfind)
  let m₁ : Machine store Reply World Unit :=
    { threads := Function.update s₀.machine.threads ()
        ⟨call (StoreReq.findRecord (fixedKey [1])) findAfter, [(.index, .sh)]⟩
      locks := Function.update s₀.machine.locks .index ((s₀.machine.locks .index).enter () .sh)
      world := w }
  let m₂ : Machine store Reply World Unit :=
    { threads := Function.update m₁.threads () ⟨findAfter (.error dbNotfound), [(.index, .sh)]⟩
      locks := m₁.locks
      world := w }
  let m₃ : Machine store Reply World Unit :=
    { threads := Function.update m₂.threads () ⟨ret (valueReply none), []⟩
      locks := Function.update m₂.locks .index ((m₂.locks .index).exit () .sh)
      world := w }
  have hm₁ : s₀.machine.Moves (handle noFaults) () m₁ :=
    Machine.Moves.lock (I := store) StoreLock.index .sh _ rfl rfl
  have hm₂ : m₁.Moves (handle noFaults) () m₂ := by
    have hfound : (handle noFaults w (.findRecord (fixedKey [1]))).1 = .error dbNotfound := by
      simp [handle, World.findRecord, noFaults, hindex]
    have hm := Machine.Moves.call (H := handle noFaults) (s := m₁) (t := ())
      (StoreReq.findRecord (fixedKey [1])) findAfter rfl
    rw [show m₁.world = w from rfl, hfound] at hm
    exact hm
  have hm₃ : m₂.Moves (handle noFaults) () m₃ :=
    Machine.Moves.unlock (I := store) StoreLock.index .sh _ rfl
  let s₁ : LockedStore Unit := ⟨m₁, s₀.history ++ replied () (m₁.threads ()).prog⟩
  let s₂ : LockedStore Unit := ⟨m₂, s₁.history ++ replied () (m₂.threads ()).prog⟩
  let s₃ : LockedStore Unit := ⟨m₃, s₂.history ++ replied () (m₃.threads ()).prog⟩
  have hg₁ : LockedStore.Goes s₀ s₁ := .move () m₁ hm₁ fun r hact => by cases hact
  have hg₂ : LockedStore.Goes s₁ s₂ := .move () m₂ hm₂ fun r hact x hx => by
    obtain rfl : StoreReq.findRecord (fixedKey [1]) = r := Action.call.inj (Option.some.inj hact)
    cases hx
  have hg₃ : LockedStore.Goes s₂ s₃ := .move () m₃ hm₃ fun r hact => by cases hact
  let run : ℕ → LockedStore Unit := fun n =>
    if n = 0 then s₀ else if n = 1 then s₁ else if n = 2 then s₂ else s₃
  have hgoes : ∀ n, run (n + 1) = run n ∨ LockedStore.Goes (run n) (run (n + 1)) := by
    intro n
    rcases n with _ | _ | _ | n
    · exact Or.inr hg₁
    · exact Or.inr hg₂
    · exact Or.inr hg₃
    · exact Or.inl (by simp [run])
  refine ⟨w, run, h₀, fun r hr => (by cases hr),
    store_calls_return blank_empty hlawful hlimit hrun h₀ hgoes fun n hmove => ?_⟩
  by_cases hn : n ≤ 2
  · -- the last step gives the reply
    refine ⟨2, hn, fun heq => ?_⟩
    have hprog := congrArg (fun s : LockedStore Unit => (s.machine.threads ()).prog) heq
    cases hprog
  · obtain ⟨j, rfl⟩ := Nat.exists_eq_add_of_le' (show 3 ≤ n by omega)
    obtain ⟨t, m, hm, -⟩ := hmove
    exact absurd rfl (hm.ne_ret (valueReply none))

end Linglongta
