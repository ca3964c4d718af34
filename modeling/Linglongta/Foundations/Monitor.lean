import Linglongta.Foundations.Concurrency

/-!
# Objects that are guarded by one lock

A `LockedObject` is an object whose calls are programs over one interface.  A call first takes the
lock of the object; all its requests, and all further locks that it takes, come before it releases
that lock.

`Calls` is such an object in use by several threads.  A step of it is one action of one thread.  Two
fields are kept for the specification only: `made` has the calls that each thread has made, and
`done` the calls that have released the lock, in this order, each with the value that it returns.

`Calls.inv` says what holds whenever the threads have run for a while: the calls that are done are
those of a run in one thread, in the order of `done` and with the same values (`Serial`), and the
thread that is inside a call, if there is one, is at a point of a run from the world that they leave
behind.  So what is known of the calls when they run alone carries over to all their interleavings.
-/

namespace Prog

variable {I : Interface} [DecidableEq I.Lock] {α W C T : Type}

/-- What is required of an action of a call: while the lock `l` is not held, the call may only
release locks. -/
def Under (l : I.Lock) (rank : I.Lock → ℕ) : Action I → Held I → Prop
  | .call _, h => (l, .ex) ∈ h
  | .lock l' _, h => (l, .ex) ∈ h ∧ ∀ x ∈ h, rank x.1 < rank l'
  | .unlock l' m, h => (l', m) ∈ h
  | .abort, h => (l, .ex) ∈ h

/-- All actions of the program are as `Under` requires, and it returns without a lock. -/
def Guarded (l : I.Lock) (rank : I.Lock → ℕ) (p : Prog I α) (h : Held I) : Prop :=
  Always (fun _ _ => True) (Under l rank) (fun _ h' => h' = []) p h

/-- An object whose calls are programs that take its lock first. -/
structure LockedObject (I : Interface) [DecidableEq I.Lock] (W C α : Type) where
  /-- The answers to the requests. -/
  handler : Handler I W
  /-- The lock of the object. -/
  lock : I.Lock
  /-- The order in which locks are taken. -/
  rank : I.Lock → ℕ
  /-- A bound of the ranks. -/
  bound : ℕ
  rank_le : ∀ l, rank l ≤ bound
  /-- What a call does when it has the lock. -/
  body : C → Prog I α
  guarded : ∀ c, Guarded lock rank (body c) [(lock, .ex)]

/-- The program of a call. -/
def LockedObject.prog (M : LockedObject I W C α) (c : C) : Prog I α :=
  .lock M.lock .ex (M.body c)

/-- What a program returns that is only about to release locks. -/
def result? : Prog I α → Option α
  | ret a => some a
  | unlock _ _ k => k.result?
  | abort => none
  | call _ _ => none
  | lock _ _ _ => none

section Guarded

variable {l : I.Lock} {rank : I.Lock → ℕ} {H : Handler I W} {p : Prog I α} {h : Held I} {w : W}
variable {q : Point I α W}

lemma Guarded.next (hg : Guarded l rank p h) (hn : next H ⟨p, h, w⟩ = some q) :
    Guarded l rank q.prog q.held := by
  cases p with
  | ret a => cases hn
  | abort => cases hn
  | call r k =>
    obtain rfl := Option.some.inj hn
    exact hg.2 _ trivial
  | lock l' m k =>
    rw [Prog.next] at hn
    split at hn
    · obtain rfl := Option.some.inj hn
      exact hg.2
    · cases hn
  | unlock l' m k =>
    obtain rfl := Option.some.inj hn
    exact hg.2

lemma Guarded.ordered (hg : Guarded l rank p h) : Ordered rank ⟨p, h⟩ := by
  constructor
  · rintro l' m k rfl
    exact hg.1.2
  · rintro a rfl
    exact hg

/-- Once the lock is released, nothing that is left of a call reads or changes the world. -/
lemma Guarded.leaves (hg : Guarded l rank p h) (hl : (l, .ex) ∉ h) :
    ∃ a, p.result? = some a ∧ ∀ w, exec H p h w = .returned a [] w := by
  induction p generalizing h with
  | ret a =>
    obtain rfl : h = [] := hg
    exact ⟨a, rfl, fun _ => rfl⟩
  | abort => exact absurd hg hl
  | call r k ih => exact absurd hg.1 hl
  | lock l' m k ih => exact absurd hg.1.1 hl
  | unlock l' m k ih => exact ih hg.2 fun hmem => hl (List.mem_of_mem_erase hmem)

/-- A safe run returns, if it is safe neither to fail nor to wait. -/
lemma Safe.returned {P : Action I → Held I → W → Prop} {Q : α → Held I → W → Prop}
    (hs : Safe H P Q p h w) (habort : ∀ h w, ¬P .abort h w)
    (hlock : ∀ l m h w, P (.lock l m) h w → Admits h l m) :
    ∃ a h' w', exec H p h w = .returned a h' w' ∧ Q a h' w' := by
  induction p generalizing h w with
  | ret a => exact ⟨a, h, w, rfl, hs⟩
  | abort => exact absurd hs (habort h w)
  | call r k ih => exact ih _ hs.2
  | lock l m k ih =>
    have hadm := hlock l m h w hs.1
    rw [exec_lock, if_pos hadm]
    exact ih (hs.2 hadm)
  | unlock l m k ih => exact ih hs.2

end Guarded

/-! ## Runs in one thread, and threads that share the object -/

namespace LockedObject

variable (M : LockedObject I W C α)

/-- The calls run to their end one after the other, with these values, from the first world to the
second. -/
inductive Serial : W → List (T × C × α) → W → Prop
  /-- No calls. -/
  | nil (w : W) : Serial w [] w
  /-- One more call. -/
  | snoc {w w₁ w₂ : W} {xs : List (T × C × α)} {t : T} {c : C} {a : α} (h : Serial w xs w₁)
      (hexec : exec M.handler (M.prog c) [] w₁ = .returned a [] w₂) :
      Serial w (xs ++ [(t, c, a)]) w₂

/-- Every call that runs alone returns, and keeps the condition on the world. -/
def Keeps (J : W → Prop) : Prop :=
  ∀ c w, J w → ∃ a w', exec M.handler (M.prog c) [] w = .returned a [] w' ∧ J w'

end LockedObject

/-- An object and the threads that use it. -/
structure Calls (M : LockedObject I W C α) (T : Type) where
  /-- What each thread has left to do, and the locks it holds. -/
  threads : T → Thread I α
  /-- What the threads share. -/
  world : W
  /-- The calls that each thread has made. -/
  made : T → List C
  /-- The calls that have released the lock, with the values that they return. -/
  done : List (T × C × α)

namespace Calls

variable {M : LockedObject I W C α} [DecidableEq T]

/-- The calls of a thread that have released the lock. -/
def doneBy (s : Calls M T) (t : T) : List (C × α) :=
  (s.done.filter fun x => x.1 = t).map Prod.snd

/-- The call that an action completes: the one that releases the lock of the object. -/
def completed (t : T) (c : Option C) (p : Prog I α) : Option (Action I) → List (T × C × α)
  | some (.unlock l .ex) =>
    if l = M.lock then (c.bind fun c => p.result?.map fun a => (t, c, a)).toList else []
  | _ => []

/-- A thread that is done makes a call. -/
def start (s : Calls M T) (t : T) (c : C) : Calls M T :=
  { s with
    threads := Function.update s.threads t ⟨M.prog c, (s.threads t).held⟩
    made := Function.update s.made t (s.made t ++ [c]) }

/-- A thread takes an action, which leads to the given point. -/
def act (s : Calls M T) (t : T) (q : Point I α W) : Calls M T :=
  { s with
    threads := Function.update s.threads t ⟨q.prog, q.held⟩
    world := q.world
    done := s.done ++
      completed (M := M) t (s.made t).getLast? q.prog (s.threads t).prog.action }

/-- A step of one of the threads. -/
inductive Step : Calls M T → Calls M T → Prop
  /-- A thread that is done makes a call. -/
  | start (s : Calls M T) (t : T) (c : C) (a : α) (hret : (s.threads t).prog = ret a) :
      Step s (s.start t c)
  /-- A thread takes its next action. -/
  | act (s : Calls M T) (t : T) (q : Point I α W)
      (hadv : Advances M.handler s.threads s.world t q) : Step s (s.act t q)

/-- The threads have not made a call yet. -/
def initial [Inhabited α] (w : W) : Calls M T where
  threads := fun _ => ⟨ret default, []⟩
  world := w
  made := fun _ => []
  done := []

/-! ## What holds in every interleaving -/

/-- Where a thread is. -/
inductive Phase (s : Calls M T) (t : T) : Prop
  /-- It waits for the lock of the object. -/
  | waits (c : C) (hprog : (s.threads t).prog = M.prog c) (hheld : (s.threads t).held = [])
      (hmade : s.made t = (s.doneBy t).map Prod.fst ++ [c])
  /-- It holds the lock. -/
  | inside (c : C) (hlock : (M.lock, .ex) ∈ (s.threads t).held)
      (hguard : Guarded M.lock M.rank (s.threads t).prog (s.threads t).held)
      (hnodup : (s.threads t).held.Nodup) (hmade : s.made t = (s.doneBy t).map Prod.fst ++ [c])
  /-- It has released the lock, or has made no call. -/
  | outside (hlock : (M.lock, .ex) ∉ (s.threads t).held)
      (hguard : Guarded M.lock M.rank (s.threads t).prog (s.threads t).held)
      (hmade : s.made t = (s.doneBy t).map Prod.fst)
      (hlast : ∀ x, (s.doneBy t).getLast? = some x → (s.threads t).prog.result? = some x.2)

/-- The calls that are done, the world that they leave behind, and the thread that is inside. -/
structure Inv (J : W → Prop) (w₀ : W) (s : Calls M T) : Prop where
  /-- No two threads hold the lock. -/
  compatible : Compatible s.threads
  /-- Every thread is somewhere. -/
  phase : ∀ t, Phase s t
  /-- The thread that holds the lock has begun where the calls that are done have ended. -/
  serial : ∃ w₁, M.Serial w₀ s.done w₁ ∧ J w₁ ∧
    ((∀ t, (M.lock, .ex) ∉ (s.threads t).held) → s.world = w₁) ∧
    ∀ t, (M.lock, .ex) ∈ (s.threads t).held → ∀ c, (s.made t).getLast? = some c →
      Reaches M.handler ⟨M.prog c, [], w₁⟩ ⟨(s.threads t).prog, (s.threads t).held, s.world⟩

section Inv

variable {J : W → Prop} {w₀ : W} {s s' : Calls M T} {t : T} {c : C} {q : Point I α W}

lemma exec_of_reaches {H : Handler I W} {p : Point I α W} (hr : Reaches H p q) :
    exec H q.prog q.held q.world = exec H p.prog p.held p.world := by
  induction hr with
  | refl => rfl
  | tail _ hn ih => exact (exec_next hn).trans ih

/-- A thread other than the one that takes a step stays where it is. -/
lemma Phase.congr (hph : Phase s t) (hthread : s'.threads t = s.threads t)
    (hmade : s'.made t = s.made t) (hdone : s'.doneBy t = s.doneBy t) : Phase s' t := by
  cases hph with
  | waits c hp hh hm => exact .waits c (hthread ▸ hp) (hthread ▸ hh) (by rw [hmade, hdone, hm])
  | inside c hl hg hn hm =>
    exact .inside c (hthread ▸ hl) (hthread ▸ hg) (hthread ▸ hn) (by rw [hmade, hdone, hm])
  | outside hl hg hm hx =>
    refine .outside (hthread ▸ hl) (hthread ▸ hg) (by rw [hmade, hdone, hm]) fun x hx' => ?_
    rw [hthread]
    exact hx x (hdone ▸ hx')

lemma start_threads_of_ne {t' : T} (hne : t' ≠ t) : (s.start t c).threads t' = s.threads t' :=
  Function.update_of_ne hne _ _

@[simp] lemma start_threads_self :
    (s.start t c).threads t = ⟨M.prog c, (s.threads t).held⟩ :=
  Function.update_self _ _ _

@[simp] lemma start_made_self : (s.start t c).made t = s.made t ++ [c] :=
  Function.update_self _ _ _

lemma start_made_of_ne {t' : T} (hne : t' ≠ t) : (s.start t c).made t' = s.made t' :=
  Function.update_of_ne hne _ _

lemma act_threads_of_ne {t' : T} (hne : t' ≠ t) : (s.act t q).threads t' = s.threads t' :=
  Function.update_of_ne hne _ _

@[simp] lemma act_threads_self : (s.act t q).threads t = ⟨q.prog, q.held⟩ :=
  Function.update_self _ _ _

/-- The next action of a thread is a step, if no other thread holds a lock. -/
lemma advances_of_next (hno : ∀ u, u ≠ t → (s.threads u).held = [])
    (hn : next M.handler ⟨(s.threads t).prog, (s.threads t).held, s.world⟩ = some q) :
    Advances M.handler s.threads s.world t q := by
  refine ⟨hn, fun l m hact u => ?_⟩
  by_cases hu : u = t
  · subst hu
    cases hp : (s.threads u).prog with
    | lock l' m' k =>
      rw [hp] at hact hn
      obtain ⟨rfl, rfl⟩ := Action.lock.inj (Option.some.inj hact)
      rw [next] at hn
      split at hn
      · assumption
      · cases hn
    | ret a => rw [hp] at hact; cases hact
    | abort => rw [hp] at hact; cases hact
    | call r k => rw [hp] at hact; cases hact
    | unlock l' m' k => rw [hp] at hact; cases hact
  · rw [hno u hu]
    cases m with
    | sh => exact List.not_mem_nil
    | ex => exact ⟨List.not_mem_nil, List.not_mem_nil⟩

/-- A thread may run to the end of its call, if no other thread holds a lock. -/
lemma exists_run_alone (hno : ∀ u, u ≠ t → (s.threads u).held = []) {a : α} {h : Held I} {w : W}
    (hexec : exec M.handler (s.threads t).prog (s.threads t).held s.world = .returned a h w) :
    ∃ s', Relation.ReflTransGen Step s s' ∧
      s'.threads = Function.update s.threads t ⟨ret a, h⟩ ∧ s'.world = w ∧ s'.made = s.made := by
  generalize hp : (s.threads t).prog = p
  -- after a step of the thread, the rest of its run starts from the state that it leads to
  have hstep : ∀ {s : Calls M T} {q : Point I α W}, (∀ u, u ≠ t → (s.threads u).held = []) →
      next M.handler ⟨(s.threads t).prog, (s.threads t).held, s.world⟩ = some q →
      (∃ s', Relation.ReflTransGen Step (s.act t q) s' ∧
        s'.threads = Function.update (s.act t q).threads t ⟨ret a, h⟩ ∧ s'.world = w ∧
        s'.made = (s.act t q).made) →
      ∃ s', Relation.ReflTransGen Step s s' ∧
        s'.threads = Function.update s.threads t ⟨ret a, h⟩ ∧ s'.world = w ∧ s'.made = s.made := by
    rintro s q hno hn ⟨s', hs', hthreads, hworld, hmade⟩
    refine ⟨s', Relation.ReflTransGen.head (.act s t q (advances_of_next hno hn)) hs', ?_, hworld,
      hmade⟩
    rw [hthreads, act, Function.update_idem]
  have hno' : ∀ {s : Calls M T} {q : Point I α W}, (∀ u, u ≠ t → (s.threads u).held = []) →
      ∀ u, u ≠ t → ((s.act t q).threads u).held = [] := by
    intro s q hno u hu
    rw [act_threads_of_ne hu]
    exact hno u hu
  induction p generalizing s with
  | ret b =>
    rw [hp] at hexec
    obtain ⟨rfl, rfl, rfl⟩ := Outcome.returned.inj hexec
    refine ⟨s, Relation.ReflTransGen.refl, ?_, rfl, rfl⟩
    rw [← hp, Function.update_eq_self]
  | abort =>
    rw [hp] at hexec
    cases hexec
  | call r k ih =>
    have hn : next M.handler ⟨(s.threads t).prog, (s.threads t).held, s.world⟩ =
        some ⟨k (M.handler s.world r).1, (s.threads t).held, (M.handler s.world r).2⟩ := by
      rw [hp, next]
    refine hstep hno hn (ih _ (hno' hno) ?_ (by rw [act_threads_self]))
    rw [act_threads_self]
    exact (exec_next hn).trans hexec
  | lock l m k ih =>
    have hadm : Admits (s.threads t).held l m := by
      rw [hp, exec_lock] at hexec
      split at hexec
      · assumption
      · cases hexec
    have hn : next M.handler ⟨(s.threads t).prog, (s.threads t).held, s.world⟩ =
        some ⟨k, (l, m) :: (s.threads t).held, s.world⟩ := by
      rw [hp, next, if_pos hadm]
    refine hstep hno hn (ih (hno' hno) ?_ (by rw [act_threads_self]))
    rw [act_threads_self]
    exact (exec_next hn).trans hexec
  | unlock l m k ih =>
    have hn : next M.handler ⟨(s.threads t).prog, (s.threads t).held, s.world⟩ =
        some ⟨k, (s.threads t).held.erase (l, m), s.world⟩ := by
      rw [hp, next]
    refine hstep hno hn (ih (hno' hno) ?_ (by rw [act_threads_self]))
    rw [act_threads_self]
    exact (exec_next hn).trans hexec

/-- An action that does not release the lock of the object completes no call. -/
lemma act_done (hact : (s.threads t).prog.action ≠ some (.unlock M.lock .ex)) :
    (s.act t q).done = s.done := by
  have hnil : completed (M := M) t (s.made t).getLast? q.prog (s.threads t).prog.action = [] := by
    unfold completed
    split
    · rename_i l hl
      rw [if_neg]
      rintro rfl
      exact hact hl
    · rfl
  rw [act, hnil, List.append_nil]

lemma act_doneBy (hdone : (s.act t q).done = s.done) (t' : T) :
    (s.act t q).doneBy t' = s.doneBy t' := by
  rw [doneBy, hdone, doneBy]

/-- A thread that is done is outside, and holds no lock. -/
lemma Phase.of_ret {a : α} (hph : Phase s t) (hret : (s.threads t).prog = ret a) :
    (s.threads t).held = [] ∧ s.made t = (s.doneBy t).map Prod.fst := by
  cases hph with
  | waits c hp => rw [hret] at hp; cases hp
  | inside c hl hg =>
    rw [hret] at hg
    have hnil : (s.threads t).held = [] := hg
    rw [hnil] at hl
    exact absurd hl List.not_mem_nil
  | outside hl hg hm =>
    rw [hret] at hg
    exact ⟨hg, hm⟩

lemma Inv.start (hi : Inv J w₀ s) {a : α} (hret : (s.threads t).prog = ret a) (c : C) :
    Inv J w₀ (s.start t c) := by
  obtain ⟨hnil, hmade⟩ := (hi.phase t).of_ret hret
  obtain ⟨w₁, hserial, hJ, hout, hin⟩ := hi.serial
  have hheld : ∀ t', ((s.start t c).threads t').held = (s.threads t').held := by
    intro t'
    by_cases ht : t' = t
    · subst ht
      rw [start_threads_self]
    · rw [start_threads_of_ne ht]
  refine ⟨hi.compatible.update fun l m hmem => Or.inl hmem, fun t' => ?_, w₁, hserial, hJ, ?_, ?_⟩
  · by_cases ht : t' = t
    · subst ht
      refine .waits c ?_ ?_ ?_
      · rw [start_threads_self]
      · rw [hheld, hnil]
      · rw [start_made_self, hmade]
        rfl
    · exact (hi.phase t').congr (start_threads_of_ne ht) (start_made_of_ne ht) rfl
  · intro hno
    exact hout fun t' => hheld t' ▸ hno t'
  · intro t' hmem c' hc'
    have ht : t' ≠ t := by
      rintro rfl
      rw [hheld, hnil] at hmem
      exact absurd hmem List.not_mem_nil
    rw [start_made_of_ne ht] at hc'
    rw [start_threads_of_ne ht] at hmem ⊢
    exact hin t' hmem c' hc'

/-- Nobody else is inside. -/
lemma Inv.not_inside (hi : Inv J w₀ s) (hlock : (M.lock, .ex) ∈ (s.threads t).held) {t' : T}
    (hne : t' ≠ t) : (M.lock, .ex) ∉ (s.threads t').held :=
  hi.compatible t t' hne.symm M.lock .ex hlock

omit [DecidableEq I.Lock] [DecidableEq T] in
lemma getLast_made {made : List C} {xs : List (C × α)} {c' : C}
    (hmade : made = xs.map Prod.fst ++ [c]) (hc : made.getLast? = some c') : c' = c := by
  rw [hmade, List.getLast?_concat] at hc
  exact (Option.some.inj hc).symm

/-- A thread takes the lock of the object. -/
lemma Inv.enter (hi : Inv J w₀ s) (hadv : Advances M.handler s.threads s.world t q)
    (hprog : (s.threads t).prog = M.prog c) (hheld : (s.threads t).held = [])
    (hmade : s.made t = (s.doneBy t).map Prod.fst ++ [c]) : Inv J w₀ (s.act t q) := by
  obtain ⟨w₁, hserial, hJ, hout, -⟩ := hi.serial
  have hfree : Free s.threads M.lock .ex := hadv.2 _ _ (by rw [hprog]; rfl)
  obtain rfl := hout fun t' => (hfree t').not_mem .ex
  have hnext : next M.handler ⟨M.prog c, [], s.world⟩ = some q := by
    rw [← hprog, ← hheld]
    exact hadv.1
  have hq : q = ⟨M.body c, [(M.lock, .ex)], s.world⟩ := by
    rw [LockedObject.prog, next, if_pos (hheld ▸ hfree t)] at hnext
    exact (Option.some.inj hnext).symm
  have hdone : (s.act t q).done = s.done := act_done (by rw [hprog]; intro hact; cases hact)
  refine ⟨hi.compatible.advance hadv, fun t' => ?_, s.world, hdone ▸ hserial, hJ, fun _ => ?_, ?_⟩
  · by_cases ht : t' = t
    · subst ht
      refine .inside c ?_ ?_ ?_ ((act_doneBy hdone t').symm ▸ hmade)
      · rw [act_threads_self, hq]
        exact List.mem_singleton_self _
      · rw [act_threads_self, hq]
        exact M.guarded c
      · rw [act_threads_self, hq]
        exact List.nodup_singleton _
    · exact (hi.phase t').congr (act_threads_of_ne ht) rfl (act_doneBy hdone t')
  · rw [act, hq]
  · intro t' hmem c' hc'
    have ht : t' = t := by
      by_contra ht
      rw [act_threads_of_ne ht] at hmem
      exact (hfree t').not_mem .ex hmem
    subst ht
    rw [act_threads_self, getLast_made hmade hc']
    exact Relation.ReflTransGen.single hnext

/-- A thread goes on inside. -/
lemma Inv.go_on (hi : Inv J w₀ s) (hadv : Advances M.handler s.threads s.world t q)
    (hlock : (M.lock, .ex) ∈ (s.threads t).held) (hlock' : (M.lock, .ex) ∈ q.held)
    (hguard : Guarded M.lock M.rank (s.threads t).prog (s.threads t).held) (hnodup : q.held.Nodup)
    (hmade : s.made t = (s.doneBy t).map Prod.fst ++ [c])
    (hact : (s.threads t).prog.action ≠ some (.unlock M.lock .ex)) : Inv J w₀ (s.act t q) := by
  obtain ⟨w₁, hserial, hJ, -, hin⟩ := hi.serial
  have hdone : (s.act t q).done = s.done := act_done hact
  refine ⟨hi.compatible.advance hadv, fun t' => ?_, w₁, hdone ▸ hserial, hJ, fun hno => ?_, ?_⟩
  · by_cases ht : t' = t
    · subst ht
      refine .inside c ?_ ?_ ?_ ((act_doneBy hdone t').symm ▸ hmade)
      · rwa [act_threads_self]
      · rw [act_threads_self]
        exact hguard.next hadv.1
      · rwa [act_threads_self]
    · exact (hi.phase t').congr (act_threads_of_ne ht) rfl (act_doneBy hdone t')
  · have hnot := hno t
    rw [act_threads_self] at hnot
    exact absurd hlock' hnot
  · intro t' hmem c' hc'
    have ht : t' = t := by
      by_contra ht
      rw [act_threads_of_ne ht] at hmem
      exact hi.not_inside hlock ht hmem
    subst ht
    rw [act_threads_self]
    exact (hin t' hlock c' hc').tail hadv.1

/-- A thread releases the lock of the object: its call is done, and returns what it does when it
runs alone after the calls that are done. -/
lemma Inv.leave (hi : Inv J w₀ s) (hkeeps : M.Keeps J)
    (hadv : Advances M.handler s.threads s.world t q) (hlock : (M.lock, .ex) ∈ (s.threads t).held)
    (hguard : Guarded M.lock M.rank (s.threads t).prog (s.threads t).held)
    (hnodup : (s.threads t).held.Nodup) (hmade : s.made t = (s.doneBy t).map Prod.fst ++ [c])
    {k : Prog I α} (hprog : (s.threads t).prog = unlock M.lock .ex k)
    (hq : q = ⟨k, (s.threads t).held.erase (M.lock, .ex), s.world⟩) : Inv J w₀ (s.act t q) := by
  obtain ⟨w₁, hserial, hJ, -, hin⟩ := hi.serial
  have hlast : (s.made t).getLast? = some c := by rw [hmade, List.getLast?_concat]
  have hreach := (hin t hlock c hlast).tail hadv.1
  have hlock' : (M.lock, .ex) ∉ q.held := by
    rw [hq]
    exact hnodup.not_mem_erase
  have hguard' : Guarded M.lock M.rank q.prog q.held := hguard.next hadv.1
  obtain ⟨a, hresult, hexec⟩ := hguard'.leaves (H := M.handler) hlock'
  obtain ⟨b, w₂, hcall, hJ₂⟩ := hkeeps c w₁ hJ
  -- the call ends as the rest of it does, and the rest leaves the world as it is
  have hends : exec M.handler (M.prog c) [] w₁ = .returned a [] q.world :=
    (exec_of_reaches hreach).symm.trans (hexec q.world)
  obtain ⟨rfl, -, rfl⟩ : a = b ∧ ([] : Held I) = [] ∧ q.world = w₂ := by
    simpa using hends.symm.trans hcall
  have hdone : (s.act t q).done = s.done ++ [(t, c, a)] := by
    have haction : (s.threads t).prog.action = some (.unlock M.lock .ex) := by rw [hprog]; rfl
    simp [act, completed, haction, hlast, hresult]
  have hheld : ∀ t', (M.lock, .ex) ∉ ((s.act t q).threads t').held := by
    intro t'
    by_cases ht : t' = t
    · subst ht
      rwa [act_threads_self]
    · rw [act_threads_of_ne ht]
      exact hi.not_inside hlock ht
  refine ⟨hi.compatible.advance hadv, fun t' => ?_, q.world, ?_, hJ₂, fun _ => rfl, ?_⟩
  · by_cases ht : t' = t
    · subst ht
      have hby : (s.act t' q).doneBy t' = s.doneBy t' ++ [(c, a)] := by
        simp [doneBy, hdone]
      refine .outside (hheld t') ?_ ?_ ?_
      · rwa [act_threads_self]
      · rw [hby, List.map_append]
        exact hmade
      · intro x hx
        rw [hby, List.getLast?_concat] at hx
        obtain rfl := Option.some.inj hx
        rwa [act_threads_self]
    · refine (hi.phase t').congr (act_threads_of_ne ht) rfl ?_
      have hne : ¬t = t' := fun heq => ht heq.symm
      simp [doneBy, hdone, hne]
  · rw [hdone]
    exact hserial.snoc hends
  · intro t' hmem
    exact absurd hmem (hheld t')

/-- A thread that is outside releases another lock. -/
lemma Inv.drop (hi : Inv J w₀ s) (hadv : Advances M.handler s.threads s.world t q)
    (hlock : (M.lock, .ex) ∉ (s.threads t).held)
    (hguard : Guarded M.lock M.rank (s.threads t).prog (s.threads t).held)
    (hmade : s.made t = (s.doneBy t).map Prod.fst)
    (hlast : ∀ x, (s.doneBy t).getLast? = some x → (s.threads t).prog.result? = some x.2)
    {l : I.Lock} {m : LockMode} {k : Prog I α} (hprog : (s.threads t).prog = unlock l m k)
    (hq : q = ⟨k, (s.threads t).held.erase (l, m), s.world⟩) : Inv J w₀ (s.act t q) := by
  obtain ⟨w₁, hserial, hJ, hout, hin⟩ := hi.serial
  have hheld : (l, m) ∈ (s.threads t).held := by
    rw [hprog] at hguard
    exact hguard.1
  have hdone : (s.act t q).done = s.done := by
    apply act_done
    rw [hprog]
    intro hact
    obtain ⟨rfl, rfl⟩ := Action.unlock.inj (Option.some.inj hact)
    exact hlock hheld
  have hlock' : (M.lock, .ex) ∉ q.held := by
    rw [hq]
    exact fun hmem => hlock (List.mem_of_mem_erase hmem)
  have hworld : (s.act t q).world = s.world := by rw [act, hq]
  refine ⟨hi.compatible.advance hadv, fun t' => ?_, w₁, hdone ▸ hserial, hJ, fun hno => ?_, ?_⟩
  · by_cases ht : t' = t
    · subst ht
      refine .outside ?_ ?_ ((act_doneBy hdone t').symm ▸ hmade) fun x hx => ?_
      · rwa [act_threads_self]
      · rw [act_threads_self]
        exact hguard.next hadv.1
      · have hresult := hlast x (act_doneBy hdone t' ▸ hx)
        rw [hprog] at hresult
        rw [act_threads_self, hq]
        exact hresult
    · exact (hi.phase t').congr (act_threads_of_ne ht) rfl (act_doneBy hdone t')
  · rw [hworld]
    refine hout fun t' => ?_
    by_cases ht : t' = t
    · rwa [ht]
    · have hnot := hno t'
      rwa [act_threads_of_ne ht] at hnot
  · intro t' hmem c' hc'
    have ht : t' ≠ t := by
      rintro rfl
      rw [act_threads_self] at hmem
      exact hlock' hmem
    rw [act_threads_of_ne ht] at hmem ⊢
    rw [hworld]
    exact hin t' hmem c' hc'

lemma Inv.act (hi : Inv J w₀ s) (hkeeps : M.Keeps J)
    (hadv : Advances M.handler s.threads s.world t q) : Inv J w₀ (s.act t q) := by
  cases hi.phase t with
  | waits c hprog hheld hmade => exact hi.enter hadv hprog hheld hmade
  | inside c hlock hguard hnodup hmade =>
    rcases hadv.cases with ⟨r, k, hp, hq⟩ | ⟨l, m, k, hp, hfree, hq⟩ | ⟨l, m, k, hp, hq⟩
    · refine hi.go_on hadv hlock ?_ hguard ?_ hmade (by rw [hp]; intro hact; cases hact)
      · rwa [hq]
      · rwa [hq]
    · refine hi.go_on hadv hlock ?_ hguard ?_ hmade (by rw [hp]; intro hact; cases hact)
      · rw [hq]
        exact List.mem_cons_of_mem _ hlock
      · rw [hp] at hguard
        rw [hq]
        exact List.nodup_cons.2 ⟨fun hmem => absurd (hguard.1.2 _ hmem) (lt_irrefl _), hnodup⟩
    · by_cases hlm : (l, m) = (M.lock, .ex)
      · obtain ⟨rfl, rfl⟩ := Prod.mk.inj hlm
        exact hi.leave hkeeps hadv hlock hguard hnodup hmade hp hq
      · refine hi.go_on hadv hlock ?_ hguard ?_ hmade ?_
        · rw [hq]
          exact (List.mem_erase_of_ne fun heq => hlm heq.symm).2 hlock
        · rw [hq]
          exact hnodup.erase _
        · rw [hp]
          intro hact
          obtain ⟨rfl, rfl⟩ := Action.unlock.inj (Option.some.inj hact)
          exact hlm rfl
  | outside hlock hguard hmade hlast =>
    rcases hadv.cases with ⟨r, k, hp, -⟩ | ⟨l, m, k, hp, -, -⟩ | ⟨l, m, k, hp, hq⟩
    · rw [hp] at hguard
      exact absurd hguard.1 hlock
    · rw [hp] at hguard
      exact absurd hguard.1.1 hlock
    · exact hi.drop hadv hlock hguard hmade hlast hp hq

lemma inv_initial [Inhabited α] (hJ : J w₀) : Inv J w₀ (initial w₀ : Calls M T) := by
  refine ⟨fun t t' _ l m hmem => absurd hmem List.not_mem_nil, fun t => ?_, w₀, .nil w₀, hJ,
    fun _ => rfl, fun t hmem => absurd hmem List.not_mem_nil⟩
  refine .outside List.not_mem_nil rfl rfl fun x hx => ?_
  cases hx

/-- The invariant holds in every interleaving. -/
lemma inv [Inhabited α] (hJ : J w₀) (hkeeps : M.Keeps J)
    (hs : Relation.ReflTransGen Step (initial w₀) s) : Inv J w₀ s := by
  induction hs with
  | refl => exact inv_initial hJ
  | tail _ hstep ih =>
    cases hstep with
    | start t c a hret => exact ih.start hret c
    | act t q hadv => exact ih.act hkeeps hadv

/-- The calls that are done stay done. -/
lemma done_prefix (hs : Relation.ReflTransGen Step s s') : s.done <+: s'.done := by
  induction hs with
  | refl => exact List.prefix_rfl
  | tail _ hstep ih =>
    cases hstep with
    | start t c a hret => exact ih
    | act t q hadv => exact ih.trans (List.prefix_append _ _)

/-! ## What follows for the threads -/

lemma Inv.ordered (hi : Inv J w₀ s) (t : T) : Ordered M.rank (s.threads t) := by
  cases hi.phase t with
  | waits c hprog hheld =>
    have hth : s.threads t = ⟨(s.threads t).prog, []⟩ := by rw [← hheld]
    rw [hth]
    exact ordered_nil _
  | inside c hlock hguard => exact hguard.ordered
  | outside hlock hguard => exact hguard.ordered

/-- The calls do not fail, because they do not when they run alone. -/
lemma Inv.ne_abort (hi : Inv J w₀ s) (hkeeps : M.Keeps J) (t : T) :
    (s.threads t).prog ≠ abort := by
  intro habort
  cases hi.phase t with
  | waits c hprog =>
    rw [habort] at hprog
    cases hprog
  | inside c hlock hguard hnodup hmade =>
    obtain ⟨w₁, -, hJ, -, hin⟩ := hi.serial
    obtain ⟨a, w₂, hcall, -⟩ := hkeeps c w₁ hJ
    have hreach := hin t hlock c (by rw [hmade, List.getLast?_concat])
    have hends := exec_of_reaches hreach
    simp only [habort, exec_abort, hcall] at hends
    cases hends
  | outside hlock hguard =>
    rw [habort] at hguard
    exact hlock hguard

/-- A thread that is done has got the value of its last call in the run in one thread. -/
lemma Inv.returned (hi : Inv J w₀ s) {a : α} (hret : (s.threads t).prog = ret a) :
    (s.doneBy t).map Prod.fst = s.made t ∧
      ∀ x, (s.doneBy t).getLast? = some x → x.2 = a := by
  refine ⟨((hi.phase t).of_ret hret).2.symm, fun x hx => ?_⟩
  cases hi.phase t with
  | waits c hprog =>
    rw [hret] at hprog
    cases hprog
  | inside c hlock hguard =>
    rw [((hi.phase t).of_ret hret).1] at hlock
    exact absurd hlock List.not_mem_nil
  | outside hlock hguard hmade hlast =>
    have hx' := hlast x hx
    rw [hret] at hx'
    exact (Option.some.inj hx').symm

/-- A thread has made the calls that it has done, and at most one more. -/
lemma Inv.made_cases (hi : Inv J w₀ s) (t : T) :
    s.made t = (s.doneBy t).map Prod.fst ∨ ∃ c, s.made t = (s.doneBy t).map Prod.fst ++ [c] := by
  cases hi.phase t with
  | waits c _ _ hmade => exact Or.inr ⟨c, hmade⟩
  | inside c _ _ _ hmade => exact Or.inr ⟨c, hmade⟩
  | outside _ _ hmade => exact Or.inl hmade

/-- A thread that was done has made a call and is done again: the call was done in between. -/
lemma Inv.done_since (hi : Inv J w₀ s) (hi' : Inv J w₀ s') (hdone : s.done <+: s'.done) {a a' : α}
    (hret : (s.threads t).prog = ret a) (hret' : (s'.threads t).prog = ret a')
    (hmade : s.made t ++ [c] <+: s'.made t) :
    ∃ xs r ys, s'.done = s.done ++ (xs ++ (t, c, r) :: ys) := by
  obtain ⟨more, hmore⟩ := hdone
  obtain ⟨rest, hrest⟩ := hmade
  have hby : (s'.doneBy t).map Prod.fst = (s.doneBy t).map Prod.fst ++
      ((more.filter fun x => x.1 = t).map Prod.snd).map Prod.fst := by
    rw [doneBy, ← hmore, List.filter_append, List.map_append, List.map_append]
    rfl
  rw [(hi'.returned hret').1, (hi.returned hret).1, ← hrest, List.append_assoc] at hby
  have hcalls := List.append_cancel_left hby
  have hmem : c ∈ ((more.filter fun x => x.1 = t).map Prod.snd).map Prod.fst := by
    rw [← hcalls]
    exact List.mem_append_left _ (List.mem_singleton_self c)
  obtain ⟨y, hy, rfl⟩ := List.mem_map.1 hmem
  obtain ⟨x, hx, rfl⟩ := List.mem_map.1 hy
  obtain ⟨hx, heq⟩ := List.mem_filter.1 hx
  obtain ⟨xs, ys, rfl⟩ := List.append_of_mem hx
  refine ⟨xs, x.2.2, ys, ?_⟩
  rw [← hmore, ← of_decide_eq_true heq]

/-- A thread that is inside is about to take an action, and whatever is safe for its call when it
runs alone after the calls that are done holds at this action. -/
lemma Inv.safe_inside (hi : Inv J w₀ s) (hlock : (M.lock, .ex) ∈ (s.threads t).held) :
    ∃ w₁ c a, M.Serial w₀ s.done w₁ ∧ (s.threads t).prog.action = some a ∧
      ∀ P Q, Safe M.handler P Q (M.prog c) [] w₁ → P a (s.threads t).held s.world := by
  cases hi.phase t with
  | waits c hprog hheld =>
    rw [hheld] at hlock
    exact absurd hlock List.not_mem_nil
  | outside hno => exact absurd hlock hno
  | inside c _ hguard _ hmade =>
    obtain ⟨w₁, hserial, -, -, hin⟩ := hi.serial
    have hreach := hin t hlock c (by rw [hmade, List.getLast?_concat])
    have hact : ∃ a, (s.threads t).prog.action = some a := by
      cases hp : (s.threads t).prog with
      | ret a =>
        rw [hp] at hguard
        have hnil : (s.threads t).held = [] := hguard
        rw [hnil] at hlock
        exact absurd hlock List.not_mem_nil
      | abort => exact ⟨_, rfl⟩
      | call r k => exact ⟨_, rfl⟩
      | lock l m k => exact ⟨_, rfl⟩
      | unlock l m k => exact ⟨_, rfl⟩
    obtain ⟨a, ha⟩ := hact
    exact ⟨w₁, c, a, hserial, ha, fun P Q hsafe => (hsafe.reaches hreach).action ha⟩

/-- A thread that makes a request is inside. -/
lemma Inv.inside_of_call (hi : Inv J w₀ s) {r : I.Req}
    (hact : (s.threads t).prog.action = some (.call r)) :
    (M.lock, .ex) ∈ (s.threads t).held := by
  cases hi.phase t with
  | waits c hprog =>
    rw [hprog] at hact
    cases hact
  | inside c hlock => exact hlock
  | outside hlock hguard =>
    cases hp : (s.threads t).prog with
    | call r' k =>
      rw [hp] at hguard
      exact hguard.1
    | ret a =>
      rw [hp] at hact
      cases hact
    | abort =>
      rw [hp] at hact
      cases hact
    | lock l m k =>
      rw [hp] at hact
      cases hact
    | unlock l m k =>
      rw [hp] at hact
      cases hact

lemma Inv.not_deadlocked (hi : Inv J w₀ s) (S : Set T) : ¬Deadlocked s.threads S :=
  Prog.not_deadlocked hi.ordered M.rank_le S

lemma Inv.exists_advances (hi : Inv J w₀ s) (hkeeps : M.Keeps J)
    (hrun : ∃ t, ∀ a, (s.threads t).prog ≠ ret a) :
    ∃ t q, Advances M.handler s.threads s.world t q :=
  Prog.exists_advances hi.ordered M.rank_le (hi.ne_abort hkeeps) hrun s.world

end Inv

end Calls

end Prog
