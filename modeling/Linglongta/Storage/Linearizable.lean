import Linglongta.Foundations.Atomic
import Linglongta.Storage.Concurrency

/-!
# The store is linearizable

`Recorded` is a store that several threads use, with the history of their calls and replies.  A
`find_block` takes effect when it looks up its key in the index: it gives up the index lock before it
reads the record, and other calls may change the map meanwhile.  `update_block` and `delete_block`
take effect when they give up the index lock.

`store_linearizable` says that every history is one of the atomic map.
-/

namespace Linglongta

open Prog

/-- A store in use, and the calls and replies so far. -/
structure Recorded (T : Type) where
  /-- The store and its threads. -/
  shared : Shared T
  /-- The calls and replies. -/
  history : List (Atomic.Event T Call Reply)

/-- The reply that a thread gets, if it is done. -/
def replied {T : Type} (t : T) : Prog store Reply → List (Atomic.Event T Call Reply)
  | .ret r => [.respond t r]
  | .abort => []
  | .call _ _ => []
  | .lock _ _ _ => []
  | .unlock _ _ _ => []

lemma replied_of_ne {T : Type} {t : T} {p : Prog store Reply} (hp : ∀ r, p ≠ ret r) :
    replied t p = [] := by
  cases p with
  | ret r => exact absurd rfl (hp r)
  | abort => rfl
  | call r k => rfl
  | lock l m k => rfl
  | unlock l m k => rfl

namespace Recorded

variable {T : Type} [DecidableEq T]

/-- A step of one of the threads. -/
inductive Step : Recorded T → Recorded T → Prop
  /-- A thread that is done makes a call. -/
  | start (s : Recorded T) (t : T) (c : Call) (r : Reply) (hret : (s.shared.threads t).prog = ret r)
      (hfits : c.Fits s.shared.world.config) :
      Step s ⟨s.shared.start t c, s.history ++ [.invoke t c]⟩
  /-- A thread takes its next action. -/
  | act (s : Recorded T) (t : T) (q : Point store Reply World)
      (hadv : Advances (handle noFaults) s.shared.threads s.shared.world t q)
      (hrange : ∀ r, (s.shared.threads t).prog.action = some (.call r) → r.InRange) :
      Step s ⟨s.shared.act t q, s.history ++ replied t q.prog⟩

/-- The threads have not made a call yet. -/
def initial (w : World) (m : Kv) : Recorded T where
  shared := Shared.initial w m
  history := []

/-- The steps are those of the store. -/
lemma Step.shared {s s' : Recorded T} (hs : Step s s') : Shared.Step s.shared s'.shared := by
  cases hs with
  | start t c r hret hfits => exact .start _ t c r hret hfits
  | act t q hadv hrange => exact .act _ t q hadv hrange

end Recorded

/-! ## The stages of a call -/

/-- The map, as an object. -/
def Kv.apply (m : Kv) (c : Call) : Reply × Kv :=
  m.step (.call c)

/-- The stage of a thread: its call, what the call has looked up, and what it has left to do. -/
def stage : Option Call → Option (Option (List UInt8)) → Prog store Reply → Atomic.Stage Call Reply
  | none, _, _ => .idle
  | some _, _, .ret _ => .idle
  | some (.find _), some v, _ => .decided (valueReply v)
  | some c, _, _ => .called c

section Stages

variable {cfg : Config} {fds : ℕ → Option Fd} {w : World} {c : Option Call}
variable {seen : Option (Option (List UInt8))} {p : Prog store Reply} {h : Held store}

lemma stage_ret (c : Option Call) (seen : Option (Option (List UInt8))) (r : Reply) :
    stage c seen (ret r) = .idle := by
  cases c with
  | none => rfl
  | some c => rfl

/-- Where a call starts. -/
lemma stage_prog (c : Call) : stage (some c) none c.prog = .called c := by
  cases c with
  | update key data => rfl
  | find key => rfl
  | delete key => rfl

/-- A call that changes the map is at the first stage until it is done. -/
lemma stage_changes {c : Call} (hfind : ∀ key, c ≠ .find key) (hp : ∀ r, p ≠ ret r) :
    stage (some c) seen p = .called c := by
  cases c with
  | find key => exact absurd rfl (hfind key)
  | update key data =>
    cases p with
    | ret r => exact absurd rfl (hp r)
    | abort => rfl
    | call r k => rfl
    | lock l m k => rfl
    | unlock l m k => rfl
  | delete key =>
    cases p with
    | ret r => exact absurd rfl (hp r)
    | abort => rfl
    | call r k => rfl
    | lock l m k => rfl
    | unlock l m k => rfl

lemma stage_ne_idle {c : Call} (hp : ∀ r, p ≠ ret r) : stage (some c) seen p ≠ .idle := by
  cases c with
  | find key =>
    cases seen with
    | none => simp [stage]
    | some v => simp [stage]
  | update key data => simp [stage_changes, hp]
  | delete key => simp [stage_changes, hp]

variable {T : Type} [DecidableEq T] {t : T} {m₀ kv : Kv} {H : List (Atomic.Event T Call Reply)}
variable {st : T → Atomic.Stage Call Reply} {q : Point store Reply World}

/-- A step of `find_block`, as one of the atomic map. -/
lemma atomic_find {n : ℕ} {key : List UInt8} (ha : Atomic Kv.apply m₀ H st kv)
    (hst : st t = stage (some (.find key)) seen p)
    (hph : CallPhase cfg fds w (some (.find key)) seen p h) (hfix : Fixed cfg fds w)
    (hrep : (StoreLock.index, LockMode.sh) ∈ h → Represents n kv w)
    (hn : next (handle noFaults) ⟨p, h, w⟩ = some q) :
    Atomic Kv.apply m₀ (H ++ replied t q.prog)
      (Function.update st t
        (stage (some (.find key)) (Shared.lookedAfter kv seen p.action) q.prog)) kv := by
  generalize hc : some (Call.find key) = c at hph
  cases hph with
  | idle r => cases hc
  | waits p' hprog hp hfits =>
    obtain rfl := Option.some.inj hc
    rw [Call.prog, findBlock_eq] at hprog
    cases hprog
  | changes p' hfind hex hp => exact absurd (Option.some.inj hc).symm (hfind key)
  | changed r hfind => exact absurd (Option.some.inj hc).symm (hfind key)
  | replies key' v => cases hn
  | seeks key' =>
    obtain rfl := Call.find.inj (Option.some.inj hc)
    rw [findBlock_eq] at hn hst ⊢
    obtain rfl := Option.some.inj hn
    exact ha.stutter hst
  | looks key' =>
    obtain rfl := Call.find.inj (Option.some.inj hc)
    obtain rfl := Option.some.inj hn
    -- the call takes effect
    have heff := ha.effect (c := Call.find key) hst
    have hr := hrep (List.mem_singleton_self _)
    show Atomic Kv.apply m₀ (H ++ replied t (findAfter (w.findRecord none (fixedKey key))))
      (Function.update st t (stage (some (.find key)) (some (kv (fixedKey key)))
        (findAfter (w.findRecord none (fixedKey key))))) kv
    cases hkv : kv (fixedKey key) with
    | none =>
      have hnone := (hr.eq_none_iff _).2 hkv
      simp only [World.findRecord, hnone]
      simpa [Kv.apply, Kv.step, hkv, findAfter, replied, stage] using heff
    | some v =>
      obtain ⟨iv, hiv, -⟩ := hr.readable hfix hkv
      simp only [World.findRecord, hiv]
      simpa [Kv.apply, Kv.step, hkv, findAfter, replied, stage] using heff
  | misses key' =>
    obtain rfl := Option.some.inj hn
    exact ha.respond hst
  | finds key' hv =>
    obtain rfl := Option.some.inj hn
    exact ha.stutter hst
  | seeksFile key' hv =>
    obtain rfl : _ = q := by simpa [Prog.next, Admits] using hn
    exact ha.stutter hst
  | handsOver key' hv =>
    obtain rfl := Option.some.inj hn
    exact ha.stutter hst
  | reads key' hv =>
    rw [hv.next_reads] at hn
    obtain rfl := Option.some.inj hn
    exact ha.stutter hst
  | hasRead key' b =>
    obtain rfl := Option.some.inj hn
    exact ha.respond hst

/-- A step of a call that changes the store, before it is done. -/
lemma atomic_changes {c : Call} {q : Prog store Reply} {seen' : Option (Option (List UInt8))}
    (ha : Atomic Kv.apply m₀ H st kv) (hst : st t = stage (some c) seen p)
    (hfind : ∀ key, c ≠ .find key) (hp : ∀ r, p ≠ ret r) (hq : ∀ r, q ≠ ret r) :
    Atomic Kv.apply m₀ (H ++ replied t q) (Function.update st t (stage (some c) seen' q)) kv := by
  rw [replied_of_ne hq, stage_changes hfind hq]
  exact ha.stutter (hst.trans (stage_changes hfind hp))

lemma bind_finish_ne_ret (p : Prog store Int) (r : Reply) : (p >>= finish) ≠ ret r := by
  intro hp
  cases p with
  | ret a => cases hp
  | abort => cases hp
  | call r k => cases hp
  | lock l m k => cases hp
  | unlock l m k => cases hp

end Stages

/-! ## The simulation -/

namespace Recorded

section Sim

variable {T : Type} {n : ℕ} {cfg : Config} {fds : ℕ → Option Fd} {m₀ : Kv} {s s' : Recorded T}
variable {t : T} {q : Point store Reply World}

/-- The stages of the threads. -/
def stages (s : Shared T) (t : T) : Atomic.Stage Call Reply :=
  stage (s.call t) (s.looked t) (s.threads t).prog

variable [DecidableEq T]

/-- The atomic map has the history, and is where the store is. -/
def Sim (m₀ : Kv) (s : Recorded T) : Prop :=
  Atomic Kv.apply m₀ s.history (stages s.shared) s.shared.kv

lemma stages_act (s : Shared T) (t : T) (q : Point store Reply World) :
    stages (s.act t q) = Function.update (stages s) t (stage (s.call t)
      (Shared.lookedAfter s.kv (s.looked t) (s.threads t).prog.action) q.prog) := by
  funext u
  by_cases hu : u = t
  · subst hu
    simp [stages, Shared.act]
  · simp [stages, Shared.act, hu]

lemma stages_start (s : Shared T) (t : T) (c : Call) :
    stages (s.start t c) = Function.update (stages s) t (.called c) := by
  funext u
  by_cases hu : u = t
  · subst hu
    simp [stages, Shared.start, stage_prog]
  · simp [stages, Shared.start, hu]

/-- A call gives up the index lock after it has changed the store. -/
lemma Sim.ends (hs : Sim m₀ s) (hi : Shared.Inv n cfg fds s.shared)
    (hadv : Advances (handle noFaults) s.shared.threads s.shared.world t q) {c : Call}
    (hc : s.shared.call t = some c) {a : Int} (hprog : (s.shared.threads t).prog = finish a)
    (hheld : (s.shared.threads t).held = [(.index, .ex)]) (hfind : ∀ key, c ≠ .find key) :
    ∃ r, q.prog = ret r ∧ Atomic Kv.apply m₀ (s.history ++ [.respond t r])
      (Function.update (stages s.shared) t .idle) (s.shared.act t q).kv := by
  obtain ⟨w₀, reqs, hb⟩ := hi.busy t c hc (by simp [hheld])
  have hn := hadv.1
  rw [hprog, hheld] at hb hn
  obtain rfl : ⟨ret { ret := a }, [(StoreLock.index, LockMode.ex)].erase (.index, .ex),
      s.shared.world⟩ = q := Option.some.inj hn
  -- what it returns is what the specification says
  obtain ⟨h', w', hexec, -⟩ := hb.ends rfl
  obtain ⟨hreply, -, -⟩ := Outcome.returned.inj hexec
  have hst : stages s.shared t = .called c := by
    rw [stages, hc, hprog]
    exact stage_changes hfind (fun r hr => by cases hr)
  have hkv : (s.shared.act t ⟨ret { ret := a },
      [(StoreLock.index, LockMode.ex)].erase (.index, .ex), s.shared.world⟩).kv =
      (s.shared.kv.apply c).2 := by
    simp only [Shared.act, hprog, hc, finish, Prog.action, Shared.kvAfter, Option.elim, Kv.apply]
  refine ⟨_, rfl, ?_⟩
  rw [hkv, hreply]
  exact Atomic.effect_respond hs hst

/-- A thread takes an action. -/
lemma Sim.act (hs : Sim m₀ s) (hi : Shared.Inv n cfg fds s.shared)
    (hadv : Advances (handle noFaults) s.shared.threads s.shared.world t q) :
    Sim m₀ ⟨s.shared.act t q, s.history ++ replied t q.prog⟩ := by
  have hn := hadv.1
  have hph := hi.phase t
  have hst : stages s.shared t = stage (s.shared.call t) (s.shared.looked t)
    (s.shared.threads t).prog := rfl
  rw [Sim, stages_act]
  cases hc : s.shared.call t with
  | none =>
    rw [hc] at hph
    generalize hseen : s.shared.looked t = seen at hph
    generalize hp : (s.shared.threads t).prog = p at hph hn
    generalize hh : (s.shared.threads t).held = h at hph
    cases hph with
    | idle r => cases hn
  | some c =>
    rw [hc] at hph hst
    by_cases hfind : ∃ key, c = .find key
    · obtain ⟨key, rfl⟩ := hfind
      obtain ⟨-, hact, -⟩ := hph.next_find hi.fixed (hi.represents_of_find hc) hn
      have hkv : (s.shared.act t q).kv = s.shared.kv := Shared.kvAfter_of_ne hact
      rw [hkv]
      exact atomic_find hs hst hph hi.fixed (hi.represents_of_find hc) hn
    · push Not at hfind
      generalize hseen : s.shared.looked t = seen at hph hst
      generalize hp : (s.shared.threads t).prog = p at hph hn hst
      generalize hh : (s.shared.threads t).held = h at hph hn
      cases hph with
      | waits p' hprog hdisc hfits =>
        rw [hprog] at hst hn
        obtain rfl : ⟨p' >>= finish, [(.index, .ex)], s.shared.world⟩ = q := by
          rw [next, if_pos (by simp [Admits])] at hn
          exact Option.some.inj hn
        have hkv : (s.shared.act t ⟨p' >>= finish, [(.index, .ex)], s.shared.world⟩).kv =
            s.shared.kv := by
          apply Shared.kvAfter_of_ne
          rw [hp, hprog]
          simp [Prog.action]
        rw [hkv]
        exact atomic_changes hs hst hfind (fun r hr => by cases hr) (bind_finish_ne_ret p')
      | changes p' _ hex hdisc =>
        by_cases hret : ∃ a, p' = ret a
        · obtain ⟨a, rfl⟩ := hret
          obtain ⟨r, hq, hends⟩ := hs.ends hi hadv hc hp (hh.trans hdisc) hfind
          rw [hq, stage_ret]
          exact hends
        · push Not at hret
          obtain ⟨p'', hq, -, -, hact, -⟩ := next_changes hdisc hex hi.fixed hret hn
          have hkv : (s.shared.act t q).kv = s.shared.kv :=
            Shared.kvAfter_of_ne (by rwa [hp])
          rw [hkv, hq]
          exact atomic_changes hs hst hfind (bind_finish_ne_ret p') (bind_finish_ne_ret p'')
      | changed r _ => cases hn
      | seeks key => exact absurd rfl (hfind key)
      | looks key => exact absurd rfl (hfind key)
      | misses key => exact absurd rfl (hfind key)
      | finds key hv => exact absurd rfl (hfind key)
      | seeksFile key hv => exact absurd rfl (hfind key)
      | handsOver key hv => exact absurd rfl (hfind key)
      | reads key hv => exact absurd rfl (hfind key)
      | hasRead key b => exact absurd rfl (hfind key)
      | replies key v => exact absurd rfl (hfind key)

/-- A step keeps the simulation. -/
lemma Sim.step (hs : Sim m₀ s) (hi : Shared.Inv n cfg fds s.shared) (hstep : Step s s') :
    Sim m₀ s' := by
  cases hstep with
  | act t q hadv hrange => exact hs.act hi hadv
  | start t c r hret hfits =>
    have hidle : stages s.shared t = .idle := by
      rw [stages, hret]
      exact stage_ret _ _ _
    rw [Sim, stages_start]
    exact Atomic.invoke hs c hidle

/-- So does a run. -/
lemma Sim.run (hs : Sim m₀ s) (hi : Shared.Inv n cfg fds s.shared) (hfds : Distinct cfg fds)
    (hrun : Relation.ReflTransGen Step s s') :
    Sim m₀ s' ∧ Shared.Inv n cfg fds s'.shared := by
  induction hrun with
  | refl => exact ⟨hs, hi⟩
  | tail _ hstep ih => exact ⟨ih.1.step ih.2 hstep, ih.2.step hfds hstep.shared⟩

omit [DecidableEq T] in
/-- The threads that are done are at the first stage. -/
lemma stages_eq_idle {s : Shared T} (hi : Shared.Inv n cfg fds s) (t : T) :
    stages s t = .idle ↔ ∃ r, (s.threads t).prog = ret r := by
  constructor
  · intro hidle
    have hph := hi.phase t
    cases hc : s.call t with
    | none =>
      rw [hc] at hph
      generalize hseen : s.looked t = seen at hph
      generalize hp : (s.threads t).prog = p at hph ⊢
      generalize hh : (s.threads t).held = h at hph
      cases hph with
      | idle r => exact ⟨r, rfl⟩
    | some c =>
      by_contra hno
      push Not at hno
      rw [stages, hc] at hidle
      exact stage_ne_idle hno hidle
  · rintro ⟨r, hr⟩
    rw [stages, hr]
    exact stage_ret _ _ _

/-- The store that the threads start with. -/
lemma sim_initial (w : World) (m : Kv) : Sim m (initial w m : Recorded T) :=
  Atomic.init

end Sim

end Recorded

/-- The store is linearizable.  Several threads make calls on a store that some lawful use of it has
led to.  In every interleaving of their actions, the calls and replies are a history of the atomic
map that the store has started with; the threads that are done are in no call of it; and while no
thread holds the index lock exclusively, the store holds the values that the atomic map has then. -/
theorem store_linearizable {T : Type} [DecidableEq T] {w₀ w : World} (hb : Blank w₀)
    {es : List StoreEvent} (hlawful : Client.Lawful 0 ⟨w₀, none⟩ es)
    (hlimit : ∀ largest, .openStorage largest ∈ es →
      effectiveSize largest < beginningSize * 2 ^ maxBlockCnt) {rs : List Reply} {bsp : Handle}
    (hrun : Client.run ⟨w₀, none⟩ es = some (rs, ⟨w, some bsp⟩)) {s : Recorded T}
    (hs : Relation.ReflTransGen Recorded.Step
      (Recorded.initial w (Kv.run (fun _ => none) es).2) s) :
    ∃ st m, Atomic Kv.apply (Kv.run (fun _ => none) es).2 s.history st m ∧
      (∀ t, st t = .idle ↔ ∃ r, (s.shared.threads t).prog = ret r) ∧
      ((∀ t, (StoreLock.index, LockMode.ex) ∉ (s.shared.threads t).held) →
        ∀ k, Stored s.shared.world k (m k)) := by
  obtain ⟨c, n, hrun', hinv⟩ := Client.Inv.run es hb.inv hlawful hlimit
  obtain rfl : ⟨w, some bsp⟩ = c := (Prod.mk.inj (Option.some.inj (hrun.symm.trans hrun'))).2
  have hr : Represents n (Kv.run (fun _ => none) es).2 w := hinv
  obtain ⟨hsim, hi⟩ := Recorded.Sim.run (Recorded.sim_initial w _) (Shared.inv_initial hr)
    (fun b hb c hc => hr.sound.usable.fd_ne hb hc) hs
  exact ⟨_, _, hsim, Recorded.stages_eq_idle hi, fun hno => (hi.rest hno).stored⟩

/-- One thread is about to update a key; the other one looks for it, and is done before. -/
theorem store_linearizable_missed : ∃ (w : World) (s : Recorded Bool) (st : _) (m : Kv),
    Relation.ReflTransGen Recorded.Step (Recorded.initial w fun _ => none) s ∧
    s.history = [.invoke true (.update [1] [2]), .invoke false (.find [1]),
      .respond false (valueReply none)] ∧
    Atomic Kv.apply (fun _ => none) s.history st m ∧ st false = .idle ∧ st true ≠ .idle := by
  obtain ⟨w, hopen, -, hcfg, hindex, -, -⟩ := exists_small_store
  have hlawful : Client.Lawful 0 ⟨World.empty, none⟩ [.openStorage 1024] :=
    ⟨⟨rfl, Nat.zero_le _⟩, fun _ _ _ => trivial⟩
  have hlimit : ∀ largest, StoreEvent.openStorage largest ∈ [.openStorage 1024] →
      effectiveSize largest < beginningSize * 2 ^ maxBlockCnt := by
    intro largest hmem
    obtain rfl : largest = 1024 := by simpa using hmem
    decide
  have hrun : Client.run ⟨World.empty, none⟩ [.openStorage 1024] =
      some ([{ ret := 0 }], ⟨w, some ⟨true, true, true⟩⟩) := by
    simp only [Client.run, Client.step, hopen, Option.map_some]
  have hfits : (Call.update [1] [2]).Fits w.config := by
    intro key data heq
    obtain ⟨-, rfl⟩ := Call.update.inj heq
    rw [hcfg]
    exact ⟨0, by decide, by decide⟩
  have hfind : (Call.find [1]).Fits w.config := fun _ _ heq => by cases heq
  let s₁ : Recorded Bool := Recorded.initial w fun _ => none
  let s₂ : Recorded Bool :=
    ⟨s₁.shared.start true (.update [1] [2]), [] ++ [.invoke true (.update [1] [2])]⟩
  let s₃ : Recorded Bool :=
    ⟨s₂.shared.start false (.find [1]), s₂.history ++ [.invoke false (.find [1])]⟩
  -- the search takes the index lock, finds nothing and releases the lock
  let q₄ : Point store Reply World :=
    ⟨call (StoreReq.findRecord (fixedKey [1])) findAfter, [(.index, .sh)], w⟩
  let q₅ : Point store Reply World := ⟨findAfter (.error dbNotfound), [(.index, .sh)], w⟩
  let q₆ : Point store Reply World := ⟨ret (valueReply none), [], w⟩
  let s₄ : Recorded Bool := ⟨s₃.shared.act false q₄, s₃.history ++ replied false q₄.prog⟩
  let s₅ : Recorded Bool := ⟨s₄.shared.act false q₅, s₄.history ++ replied false q₅.prog⟩
  let s₆ : Recorded Bool := ⟨s₅.shared.act false q₆, s₅.history ++ replied false q₆.prog⟩
  have h₃ : Relation.ReflTransGen Recorded.Step s₁ s₃ :=
    (Relation.ReflTransGen.single (Recorded.Step.start s₁ true _ _ rfl hfits)).tail
      (Recorded.Step.start s₂ false _ _ rfl hfind)
  have h₄ : Recorded.Step s₃ s₄ := by
    refine .act s₃ false q₄ ⟨?_, fun l m _ t => ?_⟩ fun r hact => ?_
    · simp [s₃, s₂, s₁, q₄, Recorded.initial, Shared.start, Shared.initial, Call.prog, findBlock_eq,
        Prog.next, Admits]
    · cases m <;> cases t <;>
        simp [s₃, s₂, s₁, Recorded.initial, Shared.start, Shared.initial, Admits]
    · simp [s₃, Shared.start, Call.prog, findBlock_eq, Prog.action] at hact
  have h₅ : Recorded.Step s₄ s₅ := by
    refine .act s₄ false q₅ ⟨?_, fun l m hact => ?_⟩ fun r hact x hx => ?_
    · simp [s₄, q₄, q₅, Shared.act, Prog.next, handle, World.findRecord, noFaults, hindex]
    · simp [s₄, q₄, Shared.act, Prog.action] at hact
    · obtain rfl : StoreReq.findRecord (fixedKey [1]) = r := by
        simpa [s₄, q₄, Shared.act, Prog.action] using hact
      cases hx
  have h₆ : Recorded.Step s₅ s₆ := by
    refine .act s₅ false q₆ ⟨?_, fun l m hact => ?_⟩ fun r hact => ?_
    · simp [s₅, q₅, q₆, Shared.act, findAfter, Prog.next, valueReply]
    · simp [s₅, q₅, Shared.act, findAfter, Prog.action] at hact
    · simp [s₅, q₅, Shared.act, findAfter, Prog.action] at hact
  have hs : Relation.ReflTransGen Recorded.Step s₁ s₆ := ((h₃.tail h₄).tail h₅).tail h₆
  obtain ⟨st, m, hatomic, hidle, -⟩ := store_linearizable blank_empty hlawful hlimit hrun hs
  refine ⟨w, s₆, st, m, hs, ?_, hatomic, ?_, ?_⟩
  · rfl
  · exact (hidle false).2 ⟨valueReply none, by simp [s₆, q₆, Shared.act]⟩
  · intro ht
    obtain ⟨r, hr⟩ := (hidle true).1 ht
    have hprog : (s₆.shared.threads true).prog = (Call.update [1] [2]).prog := by
      simp [s₆, s₅, s₄, s₃, s₂, Shared.act, Shared.start]
    rw [hprog] at hr
    cases hr

end Linglongta
