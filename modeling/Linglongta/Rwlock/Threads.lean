import Linglongta.Rwlock
import Linglongta.Foundations.Concurrency
import Linglongta.Foundations.Progress

/-!
# Programs that take rwlocks

The threads of a `Machine` run programs as on the file on concurrency, but each of their locks is a
`struct rwlock_t`: to take a lock is to call `rwlock_rdlock` or `rwlock_wrlock`, which may take
several sections, and another thread may run between them.

`Machine.Inv` relates the places of the threads at the locks to the locks that they hold.  From it,
`Moves.advances` says that the machine does nothing but what the threads do with abstract locks:
each section is an action that the abstract locks admit, or it changes no thread.

The converse is about progress.  A thread is asleep while it waits without having been notified.
`Inv.exists_move` says that the threads which are not asleep can always go on, and `exists_stable`
that they cannot go on for ever without an end of their programs.
-/

namespace Linglongta

open Prog

namespace Place

/-- The place of a thread that has the lock. -/
def holding : LockMode → Place
  | .sh => reading
  | .ex => writing

/-- The place of a thread that waits for it. -/
def waiting : LockMode → Bool → Place
  | .sh, b => readWait b
  | .ex, b => writeWait b

end Place

namespace Monitor

variable {T : Type} [DecidableEq T]

/-- The counters when a thread that takes the lock comes to the loop of `rwlock_rdlock` or
`rwlock_wrlock`.  If it has waited it is there already. -/
def counted (s : Monitor T) (t : T) : LockMode → Rwlock
  | .sh => if (s.place t).WaitsToRead then s.lock else s.lock.rdlock
  | .ex => if (s.place t).WaitsToWrite then s.lock else s.lock.wrlock

/-- The next section of a thread that takes the lock. -/
def enter (s : Monitor T) (t : T) : LockMode → Monitor T
  | .sh => s.leave t (s.counted t .sh, (s.counted t .sh).rdlockLoop)
  | .ex => s.leave t (s.counted t .ex).wrlockLoop

/-- `rwlock_unrdlock` or `rwlock_unwrlock`. -/
def exit (s : Monitor T) (t : T) : LockMode → Monitor T
  | .sh => (s.leave t (s.lock.unrdlock, .idle)).broadcast s.lock.unrdlock.unrdlockBroadcasts
  | .ex => (s.leave t (s.lock.unwrlock, .idle)).broadcast s.lock.unwrlock.unwrlockBroadcasts

end Monitor

/-- Threads whose locks are rwlocks. -/
structure Machine (I : Interface) (α W T : Type) where
  /-- What each thread has left to do, and the locks it holds. -/
  threads : T → Thread I α
  /-- The locks. -/
  locks : I.Lock → Monitor T
  /-- What the threads share besides. -/
  world : W

/-- A thread goes on: it makes a request, or runs one section of a lock. -/
inductive Machine.Moves {I : Interface} [DecidableEq I.Lock] {α W T : Type} [DecidableEq T]
    (H : Handler I W) (s : Machine I α W T) (t : T) : Machine I α W T → Prop
  /-- It makes a request. -/
  | call (r : I.Req) (k : I.Resp r → Prog I α) (hp : (s.threads t).prog = call r k) :
      Moves H s t
        { threads := Function.update s.threads t ⟨k (H s.world r).1, (s.threads t).held⟩
          locks := s.locks
          world := (H s.world r).2 }
  /-- It does not get the lock yet. -/
  | wait (l : I.Lock) (m : LockMode) (k : Prog I α) (hp : (s.threads t).prog = lock l m k)
      (hno : ((s.locks l).enter t m).place t ≠ Place.holding m) :
      Moves H s t
        { threads := s.threads
          locks := Function.update s.locks l ((s.locks l).enter t m)
          world := s.world }
  /-- It gets the lock. -/
  | lock (l : I.Lock) (m : LockMode) (k : Prog I α) (hp : (s.threads t).prog = lock l m k)
      (hin : ((s.locks l).enter t m).place t = Place.holding m) :
      Moves H s t
        { threads := Function.update s.threads t ⟨k, (l, m) :: (s.threads t).held⟩
          locks := Function.update s.locks l ((s.locks l).enter t m)
          world := s.world }
  /-- It gives the lock back. -/
  | unlock (l : I.Lock) (m : LockMode) (k : Prog I α) (hp : (s.threads t).prog = unlock l m k) :
      Moves H s t
        { threads := Function.update s.threads t ⟨k, (s.threads t).held.erase (l, m)⟩
          locks := Function.update s.locks l ((s.locks l).exit t m)
          world := s.world }

/-! ## Sections -/

namespace Monitor

variable {T : Type} [DecidableEq T] {s : Monitor T} {t u : T} {m : LockMode}

lemma place_enter_of_ne (h : u ≠ t) : (s.enter t m).place u = s.place u := by
  cases m with
  | sh => exact place_leave_of_ne s _ h
  | ex => exact place_leave_of_ne s _ h

/-- A thread that wants the lock gets it or waits for it. -/
lemma place_enter_self (s : Monitor T) (t : T) (m : LockMode) :
    (s.enter t m).place t = Place.holding m ∨ (s.enter t m).place t = Place.waiting m false := by
  cases m with
  | sh =>
    rw [enter, place_leave_self]
    unfold Rwlock.rdlockLoop
    split
    · exact Or.inr rfl
    · exact Or.inl rfl
  | ex =>
    rw [enter, place_leave_self]
    unfold Rwlock.wrlockLoop
    split
    · exact Or.inr rfl
    · exact Or.inl rfl

/-- A thread that reads has found no writer. -/
lemma writeQueueLen_of_enter (h : (s.enter t .sh).place t = .reading) :
    s.lock.writeQueueLen = 0 := by
  have hsame : (s.counted t .sh).writeQueueLen = s.lock.writeQueueLen := by
    rw [counted]
    split <;> rfl
  rw [enter, place_leave_self] at h
  unfold Rwlock.rdlockLoop at h
  split at h
  · cases h
  · omega

/-- A thread that writes has found nobody. -/
lemma queueLen_of_enter (h : (s.enter t .ex).place t = .writing) :
    s.lock.readQueueLen = 0 ∧ s.lock.writeQueueLen = 0 := by
  have hsame : (s.counted t .ex).writeQueueLen = s.lock.writeQueueLen ∧
      (s.counted t .ex).readQueueLen = s.lock.readQueueLen := by
    rw [counted]
    split <;> exact ⟨rfl, rfl⟩
  rw [enter, place_leave_self] at h
  unfold Rwlock.wrlockLoop at h
  split at h
  · cases h
  · omega

/-- A thread that wakes up in vain changes nothing. -/
lemma enter_eq_self (h : s.place t = Place.waiting m false)
    (hno : (s.enter t m).place t ≠ Place.holding m) : s.enter t m = s := by
  have hwait := (place_enter_self s t m).resolve_left hno
  have hplace : (s.enter t m).place = s.place := by
    funext u
    by_cases hu : u = t
    · rw [hu, hwait, h]
    · exact place_enter_of_ne hu
  have hlock : (s.enter t m).lock = s.lock := by
    cases m with
    | sh =>
      show s.counted t .sh = s.lock
      rw [counted, if_pos (by rw [h]; trivial)]
    | ex =>
      have hcounted : s.counted t .ex = s.lock := by
        rw [counted, if_pos (by rw [h]; trivial)]
      have hloop : (s.counted t .ex).wrlockLoop.2 ≠ .writing := by
        rwa [enter, place_leave_self] at hno
      show (s.counted t .ex).wrlockLoop.1 = s.lock
      rw [hcounted] at hloop ⊢
      unfold Rwlock.wrlockLoop at hloop ⊢
      split
      · rfl
      · rename_i hfree
        rw [if_neg hfree] at hloop
        exact absurd rfl hloop
  generalize s.enter t m = s' at hplace hlock
  cases s
  cases s'
  simp_all

/-- To take the lock is a section of the thread. -/
lemma step_enter (h : s.place t = .idle ∨ ∃ b, s.place t = Place.waiting m b) :
    Step s (s.enter t m) := by
  cases m with
  | sh =>
    rcases h with h | ⟨b, h⟩
    · rw [enter, counted, if_neg (by rw [h]; exact id)]
      exact .rdlock t h
    · rw [enter, counted, if_pos (by rw [h]; trivial)]
      exact .rdwake t b h
  | ex =>
    rcases h with h | ⟨b, h⟩
    · rw [enter, counted, if_neg (by rw [h]; exact id)]
      exact .wrlock t h
    · rw [enter, counted, if_pos (by rw [h]; trivial)]
      exact .wrwake t b h

/-- So it is to give it back. -/
lemma step_exit (h : s.place t = Place.holding m) : Step s (s.exit t m) := by
  cases m with
  | sh => exact .unrdlock t h
  | ex => exact .unwrlock t h

lemma place_exit_self : (s.exit t m).place t = .idle := by
  have hself : ∀ (l : Rwlock) (b : Bool), ((s.leave t (l, .idle)).broadcast b).place t = .idle := by
    intro l b
    simp [broadcast, Place.notify]
  cases m with
  | sh => exact hself _ _
  | ex => exact hself _ _

/-- The others stay where they are, and may be notified. -/
lemma place_exit_of_ne (h : u ≠ t) :
    (s.exit t m).place u = s.place u ∨ (s.exit t m).place u = (s.place u).notify := by
  have hother : ∀ (l : Rwlock) (b : Bool),
      ((s.leave t (l, .idle)).broadcast b).place u = s.place u ∨
        ((s.leave t (l, .idle)).broadcast b).place u = (s.place u).notify := by
    intro l b
    cases b with
    | false => exact Or.inl (place_leave_of_ne s _ h)
    | true =>
      refine Or.inr ?_
      simp [broadcast, place_leave_of_ne s _ h]
  cases m with
  | sh => exact hother _ _
  | ex => exact hother _ _

end Monitor

namespace Place

lemma notify_eq_holding {p : Place} {m : LockMode} : p.notify = holding m ↔ p = holding m := by
  cases m with
  | sh => exact notify_eq_reading p
  | ex => exact notify_eq_writing p

/-- A thread that waits after a broadcast has waited before. -/
lemma exists_of_notify {p : Place} {m : LockMode} {b : Bool} (h : p.notify = waiting m b) :
    ∃ b', p = waiting m b' := by
  cases m <;> cases p <;> simp [notify, waiting] at h ⊢

lemma holding_ne_waiting (m m' : LockMode) (b : Bool) : holding m ≠ waiting m' b := by
  cases m <;> cases m' <;> simp [holding, waiting]

lemma holding_inj {m m' : LockMode} (h : holding m = holding m') : m = m' := by
  cases m <;> cases m' <;> simp_all [holding]

lemma waiting_inj {m m' : LockMode} {b b' : Bool} (h : waiting m b = waiting m' b') :
    m = m' ∧ b = b' := by
  cases m <;> cases m' <;> simp_all [waiting]

/-- A thread that does not hold the lock is idle or waits. -/
lemma idle_or_waiting {p : Place} (h : ∀ m, p ≠ holding m) :
    p = idle ∨ ∃ m b, p = waiting m b := by
  cases p with
  | idle => exact Or.inl rfl
  | reading => exact absurd rfl (h .sh)
  | writing => exact absurd rfl (h .ex)
  | readWait b => exact Or.inr ⟨.sh, b, rfl⟩
  | writeWait b => exact Or.inr ⟨.ex, b, rfl⟩

end Place

/-! ## The locks that the threads hold -/

/-- A thread does not ask for a lock that it holds, and gives back only what it holds. -/
structure Orderly {I : Interface} {α : Type} (th : Thread I α) : Prop where
  /-- The next lock is none of those that are held. -/
  lock : ∀ l m k, th.prog = lock l m k → ∀ x ∈ th.held, x.1 ≠ l
  /-- What is given back is held. -/
  unlock : ∀ l m k, th.prog = unlock l m k → (l, m) ∈ th.held

/-- How the locks fit to the threads. -/
structure Machine.Inv {I : Interface} {α W T : Type} [Fintype T] (s : Machine I α W T) : Prop where
  /-- The counters are right. -/
  counters : ∀ l, (s.locks l).Inv
  /-- Those who sleep have a reason to. -/
  awake : ∀ l, (s.locks l).Awake
  /-- A thread holds a lock if it has returned from the call that takes it. -/
  holds : ∀ l t m, (l, m) ∈ (s.threads t).held ↔ (s.locks l).place t = Place.holding m
  /-- A thread waits for a lock only while it takes it. -/
  waits : ∀ l t m b, (s.locks l).place t = Place.waiting m b →
    ∃ k, (s.threads t).prog = lock l m k
  /-- No lock is held twice. -/
  nodup : ∀ t, ((s.threads t).held.map Prod.fst).Nodup

namespace Machine

variable {I : Interface} [DecidableEq I.Lock] {α W T : Type} [Fintype T]
variable {H : Handler I W} {s s' : Machine I α W T} {t u : T} {l : I.Lock} {m : LockMode}

omit [DecidableEq I.Lock] in
/-- Where a thread is at the lock that it takes. -/
lemma Inv.place_of_lock (hi : s.Inv) {k : Prog I α} (hp : (s.threads t).prog = lock l m k)
    (hno : ∀ x ∈ (s.threads t).held, x.1 ≠ l) :
    (s.locks l).place t = .idle ∨ ∃ b, (s.locks l).place t = Place.waiting m b := by
  have hheld : ∀ m', (s.locks l).place t ≠ Place.holding m' := fun m' hm' =>
    hno _ ((hi.holds l t m').2 hm') rfl
  rcases Place.idle_or_waiting hheld with hidle | ⟨m', b, hwait⟩
  · exact Or.inl hidle
  · obtain ⟨k', hp'⟩ := hi.waits l t m' b hwait
    obtain ⟨-, rfl, -⟩ := Prog.lock.inj (hp.symm.trans hp')
    exact Or.inr ⟨b, hwait⟩

omit [DecidableEq I.Lock] in
/-- Nobody uses the locks in the beginning. -/
lemma inv_init {ts : T → Thread I α} (hts : ∀ t, (ts t).held = []) (w : W) :
    Inv (⟨ts, fun _ => Monitor.init, w⟩ : Machine I α W T) where
  counters := fun _ => Monitor.inv_init
  awake := fun _ => by
    constructor <;> exact fun t ht => by cases ht
  holds := fun l t m => by
    rw [hts]
    cases m <;> simp [Monitor.init, Place.holding]
  waits := fun l t m b hwait => by cases m <;> cases hwait
  nodup := fun t => by simp [hts]

variable [DecidableEq T]

omit [DecidableEq I.Lock] in
/-- A lock that a thread gets is free. -/
lemma Inv.free (hi : s.Inv) (hin : ((s.locks l).enter t m).place t = Place.holding m) :
    Free s.threads l m := by
  have hwriter : (s.locks l).lock.writeQueueLen = 0 → ∀ u, (l, .ex) ∉ (s.threads u).held := by
    intro hzero u hu
    have hpos := (hi.counters l).write_pos ((hi.holds l u .ex).1 hu)
    omega
  cases m with
  | sh => exact hwriter (Monitor.writeQueueLen_of_enter hin)
  | ex =>
    obtain ⟨hread, hwrite⟩ := Monitor.queueLen_of_enter hin
    refine fun u => ⟨fun hu => ?_, hwriter hwrite u⟩
    exact (hi.counters l).not_reading hread u ((hi.holds l u .sh).1 hu)

/-- A move of a thread is an action that the abstract locks admit, or changes no thread. -/
lemma Moves.advances (hm : s.Moves H t s') (hi : s.Inv) :
    s'.threads = s.threads ∧ s'.world = s.world ∨
      ∃ q, Advances H s.threads s.world t q ∧
        s'.threads = Function.update s.threads t ⟨q.prog, q.held⟩ ∧ s'.world = q.world := by
  cases hm with
  | call r k hp =>
    refine Or.inr ⟨⟨k (H s.world r).1, (s.threads t).held, (H s.world r).2⟩, ⟨?_, ?_⟩, rfl, rfl⟩
    · rw [hp, next]
    · intro l m hact
      rw [hp] at hact
      cases hact
  | wait l m k hp hno => exact Or.inl ⟨rfl, rfl⟩
  | lock l m k hp hin =>
    have hfree := hi.free hin
    refine Or.inr ⟨⟨k, (l, m) :: (s.threads t).held, s.world⟩, ⟨?_, ?_⟩, rfl, rfl⟩
    · rw [hp, next, if_pos (hfree t)]
    · intro l' m' hact
      rw [hp] at hact
      obtain ⟨rfl, rfl⟩ := Action.lock.inj (Option.some.inj hact)
      exact hfree
  | unlock l m k hp =>
    refine Or.inr ⟨⟨k, (s.threads t).held.erase (l, m), s.world⟩, ⟨?_, ?_⟩, rfl, rfl⟩
    · rw [hp, next]
    · intro l' m' hact
      rw [hp] at hact
      cases hact

/-- A section of a lock, which leads the thread to the point `th`. -/
lemma Inv.moved (hi : s.Inv) {mon : Monitor T} {th : Thread I α} {w : W}
    (hstep : Monitor.Step (s.locks l) mon)
    (hothers : ∀ u ≠ t, mon.place u = (s.locks l).place u ∨
      mon.place u = ((s.locks l).place u).notify)
    (hholds : ∀ l' m', (l', m') ∈ th.held ↔
      (Function.update s.locks l mon l').place t = Place.holding m')
    (hwaits : ∀ l' m' b, (Function.update s.locks l mon l').place t = Place.waiting m' b →
      ∃ k, th.prog = Prog.lock l' m' k)
    (hnodup : (th.held.map Prod.fst).Nodup) :
    Inv (⟨Function.update s.threads t th, Function.update s.locks l mon, w⟩ : Machine I α W T) := by
  have hplace : ∀ l' u, u ≠ t → (Function.update s.locks l mon l').place u = (s.locks l').place u ∨
      (Function.update s.locks l mon l').place u = ((s.locks l').place u).notify := by
    intro l' u hu
    by_cases hl : l' = l
    · subst hl
      rw [Function.update_self]
      exact hothers u hu
    · rw [Function.update_of_ne hl]
      exact Or.inl rfl
  constructor
  · intro l'
    by_cases hl : l' = l
    · subst hl
      simpa using (hi.counters l').step hstep
    · simpa [hl] using hi.counters l'
  · intro l'
    by_cases hl : l' = l
    · subst hl
      simpa using (hi.awake l').step (hi.counters l') hstep
    · simpa [hl] using hi.awake l'
  · intro l' u m'
    by_cases hu : u = t
    · subst hu
      simpa using hholds l' m'
    · simp only [Function.update_of_ne hu]
      rw [hi.holds l' u m']
      rcases hplace l' u hu with hsame | hnotify
      · rw [hsame]
      · rw [hnotify, Place.notify_eq_holding]
  · intro l' u m' b hwait
    by_cases hu : u = t
    · subst hu
      simpa using hwaits l' m' b hwait
    · simp only [Function.update_of_ne hu]
      rcases hplace l' u hu with hsame | hnotify
      · exact hi.waits l' u m' b (hsame ▸ hwait)
      · obtain ⟨b', hb'⟩ := Place.exists_of_notify (hnotify ▸ hwait)
        exact hi.waits l' u m' b' hb'
  · intro u
    by_cases hu : u = t
    · subst hu
      simpa using hnodup
    · simpa [hu] using hi.nodup u

omit [DecidableEq I.Lock] in
/-- A thread that takes no lock goes on with another program. -/
lemma Inv.prog (hi : s.Inv) (hp : ∀ l m k, (s.threads t).prog ≠ Prog.lock l m k) (p : Prog I α)
    (w : W) :
    Inv (⟨Function.update s.threads t ⟨p, (s.threads t).held⟩, s.locks, w⟩ :
      Machine I α W T) := by
  have hheld : ∀ u, (Function.update s.threads t ⟨p, (s.threads t).held⟩ u).held =
      (s.threads u).held := by
    intro u
    by_cases hu : u = t
    · subst hu
      simp
    · simp [hu]
  refine ⟨hi.counters, hi.awake, fun l u m => ?_, fun l u m b hwait => ?_, fun u => ?_⟩
  · rw [hheld]
    exact hi.holds l u m
  · obtain ⟨k', hp'⟩ := hi.waits l u m b hwait
    have hu : u ≠ t := by
      rintro rfl
      exact hp l m k' hp'
    exact ⟨k', by simpa [hu] using hp'⟩
  · rw [hheld]
    exact hi.nodup u

/-- A thread makes a move. -/
lemma Inv.move (hi : s.Inv) (ho : Orderly (s.threads t)) (hm : s.Moves H t s') : s'.Inv := by
  cases hm with
  | call r k hp => exact hi.prog (fun l m k' hl => by rw [hp] at hl; cases hl) _ _
  | wait l m k hp hno =>
    have hplace := hi.place_of_lock hp (ho.lock l m k hp)
    have hwait := ((Monitor.place_enter_self (s.locks l) t m).resolve_left hno)
    suffices hsec : Inv (⟨Function.update s.threads t (s.threads t),
        Function.update s.locks l ((s.locks l).enter t m), s.world⟩ : Machine I α W T) by
      rwa [Function.update_eq_self] at hsec
    refine hi.moved (Monitor.step_enter hplace)
      (fun u hu => Or.inl (Monitor.place_enter_of_ne hu)) ?_ ?_ (hi.nodup t)
    · intro l' m'
      by_cases hl : l' = l
      · subst hl
        rw [Function.update_self, hwait]
        constructor
        · exact fun hmem => absurd rfl (ho.lock l' m k hp _ hmem)
        · exact fun heq => absurd heq.symm (Place.holding_ne_waiting _ _ _)
      · rw [Function.update_of_ne hl]
        exact hi.holds l' t m'
    · intro l' m' b hw
      by_cases hl : l' = l
      · subst hl
        rw [Function.update_self, hwait] at hw
        obtain ⟨rfl, -⟩ := Place.waiting_inj hw
        exact ⟨k, hp⟩
      · rw [Function.update_of_ne hl] at hw
        exact hi.waits l' t m' b hw
  | lock l m k hp hin =>
    have hplace := hi.place_of_lock hp (ho.lock l m k hp)
    refine hi.moved (Monitor.step_enter hplace)
      (fun u hu => Or.inl (Monitor.place_enter_of_ne hu)) (fun l' m' => ?_)
      (fun l' m' b hw => ?_) ?_
    · by_cases hl : l' = l
      · subst hl
        rw [Function.update_self, hin, List.mem_cons]
        constructor
        · rintro (heq | hmem)
          · rw [(Prod.mk.inj heq).2]
          · exact absurd rfl (ho.lock l' m k hp _ hmem)
        · intro heq
          rw [Place.holding_inj heq]
          exact Or.inl rfl
      · rw [Function.update_of_ne hl, List.mem_cons, ← hi.holds l' t m']
        exact or_iff_right fun heq => hl (Prod.mk.inj heq).1
    · by_cases hl : l' = l
      · subst hl
        rw [Function.update_self, hin] at hw
        exact absurd hw (Place.holding_ne_waiting _ _ _)
      · rw [Function.update_of_ne hl] at hw
        obtain ⟨k', hp'⟩ := hi.waits l' t m' b hw
        exact absurd (Prog.lock.inj (hp'.symm.trans hp)).1 hl
    · rw [List.map_cons, List.nodup_cons]
      refine ⟨fun hmem => ?_, hi.nodup t⟩
      obtain ⟨x, hx, hxl⟩ := List.mem_map.1 hmem
      exact ho.lock l m k hp x hx hxl
  | unlock l m k hp =>
    have hmem := ho.unlock l m k hp
    have hnodup : ((s.threads t).held.erase (l, m)).map Prod.fst |>.Nodup :=
      (hi.nodup t).sublist ((List.erase_sublist).map _)
    refine hi.moved (Monitor.step_exit ((hi.holds l t m).1 hmem))
      (fun u hu => Monitor.place_exit_of_ne hu) (fun l' m' => ?_) (fun l' m' b hw => ?_) hnodup
    · by_cases hl : l' = l
      · subst hl
        rw [Function.update_self, Monitor.place_exit_self]
        constructor
        · intro hin
          -- the lock would be held twice
          have htwice := List.perm_cons_erase hmem
          have hn := (htwice.map Prod.fst).nodup_iff.1 (hi.nodup t)
          rw [List.map_cons, List.nodup_cons] at hn
          exact absurd (List.mem_map.2 ⟨_, hin, rfl⟩) hn.1
        · intro heq
          cases m' <;> cases heq
      · rw [Function.update_of_ne hl, ← hi.holds l' t m']
        exact List.mem_erase_of_ne fun heq => hl (Prod.mk.inj heq).1
    · by_cases hl : l' = l
      · subst hl
        rw [Function.update_self, Monitor.place_exit_self] at hw
        cases m' <;> cases hw
      · rw [Function.update_of_ne hl] at hw
        obtain ⟨k', hp'⟩ := hi.waits l' t m' b hw
        rw [hp] at hp'
        cases hp'

/-! ## Progress -/

/-- The thread waits, and has not been notified. -/
def Asleep (s : Machine I α W T) (t : T) : Prop :=
  ∃ l m, (s.locks l).place t = Place.waiting m false

omit [DecidableEq I.Lock] [DecidableEq T] in
/-- A thread sleeps only at the lock that it takes. -/
lemma Inv.place_of_asleep (hi : s.Inv) (hs : s.Asleep t) {l : I.Lock} {m : LockMode} {k : Prog I α}
    (hp : (s.threads t).prog = Prog.lock l m k) : (s.locks l).place t = Place.waiting m false := by
  obtain ⟨l', m', hplace⟩ := hs
  obtain ⟨k', hp'⟩ := hi.waits l' t m' false hplace
  obtain ⟨rfl, rfl, -⟩ := Prog.lock.inj (hp'.symm.trans hp)
  exact hplace

omit [DecidableEq I.Lock] [DecidableEq T] in
lemma Inv.not_asleep (hi : s.Inv) (hp : ∀ l m k, (s.threads t).prog ≠ Prog.lock l m k) :
    ¬s.Asleep t := by
  rintro ⟨l, m, hplace⟩
  obtain ⟨k, hk⟩ := hi.waits l t m false hplace
  exact hp l m k hk

omit [Fintype T] in
/-- A thread that takes a lock can run a section. -/
lemma exists_enter (H : Handler I W) {k : Prog I α} (hp : (s.threads t).prog = Prog.lock l m k) :
    ∃ s', s.Moves H t s' := by
  by_cases hin : ((s.locks l).enter t m).place t = Place.holding m
  · exact ⟨_, .lock l m k hp hin⟩
  · exact ⟨_, .wait l m k hp hin⟩

omit [DecidableEq I.Lock] [Fintype T] [DecidableEq T] in
lemma not_mem_of_free {ts : T → Thread I α} (hfree : Free ts l m) (u : T) :
    (l, .ex) ∉ (ts u).held := by
  cases m with
  | sh => exact hfree u
  | ex => exact (hfree u).2

omit [DecidableEq I.Lock] [DecidableEq T] in
/-- If a thread sleeps although the lock is free for it, then there is a reader that has been
notified. -/
lemma Inv.exists_notified (hi : s.Inv) (hfree : Free s.threads l m)
    (hs : (s.locks l).place t = Place.waiting m false) :
    ∃ u, (s.locks l).place u = Place.waiting .sh true := by
  have hwrite : ¬0 < (s.locks l).lock.writeQueueLen := by
    intro hpos
    obtain ⟨u, hu⟩ := (hi.counters l).exists_writing hpos
    exact not_mem_of_free hfree u ((hi.holds l u .ex).2 hu)
  cases m with
  | sh => exact absurd ((hi.awake l).reader t hs) hwrite
  | ex =>
    have hread := ((hi.awake l).writer t hs).resolve_right hwrite
    obtain ⟨u, hu⟩ := (hi.counters l).exists_reads hread
    cases hp : (s.locks l).place u with
    | idle => rw [hp] at hu; exact absurd hu id
    | writing => rw [hp] at hu; exact absurd hu id
    | writeWait b => rw [hp] at hu; exact absurd hu id
    | reading => exact absurd ((hi.holds l u .sh).2 hp) (hfree u).1
    | readWait b =>
      cases b with
      | true => exact ⟨u, hp⟩
      | false => exact absurd ((hi.awake l).reader u hp) hwrite

/-- Some thread that is not asleep can go on, unless all of them are done. -/
lemma Inv.exists_move (hi : s.Inv) {rank : I.Lock → ℕ} (hord : ∀ t, Ordered rank (s.threads t))
    {N : ℕ} (hrank : ∀ l, rank l ≤ N) (habort : ∀ t, (s.threads t).prog ≠ abort)
    (hrun : ∃ t, ∀ a, (s.threads t).prog ≠ ret a) (H : Handler I W) :
    ∃ t s', s.Moves H t s' ∧ ¬s.Asleep t := by
  obtain ⟨t, q, hadv⟩ := exists_advances (H := H) hord hrank habort hrun s.world
  rcases hadv.cases with ⟨r, k, hp, -⟩ | ⟨l, m, k, hp, hfree, -⟩ | ⟨l, m, k, hp, -⟩
  · exact ⟨t, _, .call r k hp, hi.not_asleep fun l m k' hl => by rw [hp] at hl; cases hl⟩
  · by_cases hs : s.Asleep t
    · -- a reader has been notified, and has not looked at the lock yet
      obtain ⟨u, hu⟩ := hi.exists_notified hfree (hi.place_of_asleep hs hp)
      obtain ⟨k', hp'⟩ := hi.waits l u .sh true hu
      obtain ⟨s', hm⟩ := exists_enter H hp'
      refine ⟨u, s', hm, fun hs' => ?_⟩
      have hsleep := hi.place_of_asleep hs' hp'
      rw [hu] at hsleep
      exact absurd (Place.waiting_inj hsleep).2 (by decide)
    · obtain ⟨s', hm⟩ := exists_enter H hp
      exact ⟨t, s', hm, hs⟩
  · exact ⟨t, _, .unlock l m k hp, hi.not_asleep fun l m k' hl => by rw [hp] at hl; cases hl⟩

omit [Fintype T] in
/-- A thread waits for a lock, or takes the next action of its program. -/
lemma Moves.rest (hm : s.Moves H t s') :
    (∃ l m k, (s.threads t).prog = Prog.lock l m k ∧
      ((s.locks l).enter t m).place t ≠ Place.holding m ∧
      s' = ⟨s.threads, Function.update s.locks l ((s.locks l).enter t m), s.world⟩) ∨
      Rest (s'.threads t).prog (s.threads t).prog ∧ ∀ u ≠ t, s'.threads u = s.threads u := by
  cases hm with
  | call r k hp =>
    refine Or.inr ⟨?_, fun u hu => Function.update_of_ne hu _ _⟩
    simp only [hp, Function.update_self]
    exact .call r k _
  | wait l m k hp hno => exact Or.inl ⟨l, m, k, hp, hno, rfl⟩
  | lock l m k hp hin =>
    refine Or.inr ⟨?_, fun u hu => Function.update_of_ne hu _ _⟩
    simp only [hp, Function.update_self]
    exact .lock l m k
  | unlock l m k hp =>
    refine Or.inr ⟨?_, fun u hu => Function.update_of_ne hu _ _⟩
    simp only [hp, Function.update_self]
    exact .unlock l m k

omit [Fintype T] in
/-- A thread that is done makes no move. -/
lemma Moves.ne_ret (hm : s.Moves H t s') (a : α) : (s.threads t).prog ≠ ret a := by
  intro ha
  cases hm with
  | call r k hp => rw [ha] at hp; cases hp
  | wait l m k hp hno => rw [ha] at hp; cases hp
  | lock l m k hp hin => rw [ha] at hp; cases hp
  | unlock l m k hp => rw [ha] at hp; cases hp

/-- A thread that waits for a lock falls asleep, or has slept and nothing changes. -/
lemma Moves.sleeps (hm : s.Moves H t s') (hi : s.Inv) (hsame : s'.threads = s.threads) :
    s.Asleep t ∧ s' = s ∨ ¬s.Asleep t ∧ s'.Asleep t ∧ ∀ u, s.Asleep u → s'.Asleep u := by
  rcases hm.rest with ⟨l, m, k, hp, hno, rfl⟩ | ⟨hrest, -⟩
  · by_cases hs : s.Asleep t
    · refine Or.inl ⟨hs, ?_⟩
      rw [Monitor.enter_eq_self (hi.place_of_asleep hs hp) hno, Function.update_eq_self]
    · have hwait := (Monitor.place_enter_self (s.locks l) t m).resolve_left hno
      refine Or.inr ⟨hs, ⟨l, m, by simpa using hwait⟩, ?_⟩
      rintro u ⟨l', m', hu⟩
      refine ⟨l', m', ?_⟩
      by_cases hl : l' = l
      · have hne : u ≠ t := by
          rintro rfl
          exact hs ⟨l', m', hu⟩
        subst hl
        simpa [Monitor.place_enter_of_ne hne] using hu
      · simpa [hl] using hu
  · rw [hsame] at hrest
    exact absurd rfl hrest.ne

/-- A thread that is not asleep changes something. -/
lemma Moves.ne (hm : s.Moves H t s') (hi : s.Inv) (hs : ¬s.Asleep t) : s' ≠ s := by
  rintro rfl
  rcases hm.sleeps hi rfl with ⟨hasleep, -⟩ | ⟨-, hasleep, -⟩ <;> exact hs hasleep

/-- If no thread begins anew, the machine comes to rest. -/
lemma exists_rest {run : ℕ → Machine I α W T} (hi : ∀ n, (run n).Inv)
    (hrun : ∀ n, run (n + 1) = run n ∨ ∃ t, (run n).Moves H t (run (n + 1))) :
    ∃ N, ∀ n ≥ N, run n = run N := by
  -- first the programs come to rest, then the places of the threads
  have hprogs : ∀ t, ∃ N, ∀ n ≥ N, ((run n).threads t).prog = ((run N).threads t).prog := by
    intro t
    refine exists_stable wellFounded_rest fun n => ?_
    rcases hrun n with hstay | ⟨u, hm⟩
    · exact Or.inl (by rw [hstay])
    · rcases hm.rest with ⟨l, m, k, -, -, hs'⟩ | ⟨hrest, hothers⟩
      · exact Or.inl (by rw [hs'])
      · by_cases hu : t = u
        · exact Or.inr (hu ▸ hrest)
        · exact Or.inl (by rw [hothers t hu])
  choose N hN using hprogs
  obtain ⟨B, hB⟩ : ∃ B, ∀ t, N t ≤ B := ⟨Finset.univ.sup N, fun t => Finset.le_sup (Finset.mem_univ t)⟩
  have hwait : ∀ n ≥ B, ∀ t, (run n).Moves H t (run (n + 1)) →
      (run (n + 1)).threads = (run n).threads := by
    intro n hn t hm
    rcases hm.rest with ⟨l, m, k, -, -, hs'⟩ | ⟨hrest, -⟩
    · rw [hs']
    · have hle := hB t
      refine absurd ?_ hrest.ne
      rw [hN t n (by omega), hN t (n + 1) (by omega)]
  have hsleep : ∃ M, ∀ n ≥ M, run (B + n) = run (B + M) := by
    refine exists_stable (InvImage.wf (fun s : Machine I α W T => {u | ¬s.Asleep u}.ncard)
      Nat.lt_wfRel.wf) fun n => ?_
    rcases hrun (B + n) with hstay | ⟨t, hm⟩
    · exact Or.inl hstay
    · rcases hm.sleeps (hi _) (hwait _ (by omega) t hm) with ⟨-, hsame⟩ | ⟨hs, hs', hothers⟩
      · exact Or.inl hsame
      · refine Or.inr (Set.ncard_lt_ncard ?_ (Set.toFinite _))
        refine ⟨fun u hu hasleep => hu (hothers u hasleep), fun hsub => ?_⟩
        exact hsub hs hs'
  obtain ⟨M, hM⟩ := hsleep
  refine ⟨B + M, fun n hn => ?_⟩
  obtain ⟨j, rfl⟩ := Nat.exists_eq_add_of_le (show B ≤ n by omega)
  exact hM j (by omega)

end Machine

end Linglongta
