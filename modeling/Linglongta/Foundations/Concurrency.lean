import Linglongta.Foundations.Program

/-!
# Programs that run in several threads

Several threads run programs over one interface and share its world and its locks.  `Advances` is a
step of one of them: its next action, where a lock is only taken if the locks that the threads hold
admit it.

Two rules are about any such system.  The threads always hold compatible locks
(`Compatible.advance`).  And if every thread takes its locks in the order of a rank, and holds none
when it is done, then no threads wait for each other (`not_deadlocked`), and there is always one
that can go on (`exists_advances`).

`Always R P Q p h` says that, whatever the other threads do, the program satisfies `P` at every
action and `Q` where it returns; all that is known of the answers to its requests is `R`.  Like
`Safe` and `Returns` it is computed along the program and composes over `>>=`.
-/

namespace Prog

variable {I : Interface} [DecidableEq I.Lock] {α β W T : Type}

/-! ## What is left of a run -/

/-- The request that an action makes, if it makes one. -/
def Action.requests : Option (Action I) → List I.Req
  | some (.call r) => [r]
  | some (.lock _ _) => []
  | some (.unlock _ _) => []
  | some .abort => []
  | none => []

section Rest

variable {H : Handler I W} {p : Prog I α} {h : Held I} {w : W} {q : Point I α W}

/-- A run ends as the rest of it does. -/
lemma exec_next (hn : next H ⟨p, h, w⟩ = some q) :
    exec H q.prog q.held q.world = exec H p h w := by
  cases p with
  | ret a => cases hn
  | abort => cases hn
  | call r k =>
    obtain rfl := Option.some.inj hn
    rfl
  | lock l m k =>
    rw [next] at hn
    split at hn
    · rename_i hadm
      obtain rfl := Option.some.inj hn
      rw [exec_lock, if_pos hadm]
    · cases hn
  | unlock l m k =>
    obtain rfl := Option.some.inj hn
    rfl

/-- The requests of a run are that of its next action and those of the rest. -/
lemma requests_next (hn : next H ⟨p, h, w⟩ = some q) :
    Action.requests p.action ++ requests H q.prog q.held q.world = requests H p h w := by
  cases p with
  | ret a => cases hn
  | abort => cases hn
  | call r k =>
    obtain rfl := Option.some.inj hn
    rfl
  | lock l m k =>
    rw [next] at hn
    split at hn
    · rename_i hadm
      obtain rfl := Option.some.inj hn
      rw [requests_lock, if_pos hadm]
      rfl
    · cases hn
  | unlock l m k =>
    obtain rfl := Option.some.inj hn
    rfl

end Rest

/-! ## Threads -/

/-- What a thread has left to do, and the locks it holds. -/
structure Thread (I : Interface) (α : Type) where
  /-- What is left to do. -/
  prog : Prog I α
  /-- The locks held. -/
  held : Held I

/-- The locks of all the threads let a lock be taken. -/
def Free (ts : T → Thread I α) (l : I.Lock) (m : LockMode) : Prop :=
  ∀ t, Admits (ts t).held l m

/-- A thread takes its next action, which leads to this point. -/
def Advances (H : Handler I W) (ts : T → Thread I α) (w : W) (t : T) (q : Point I α W) : Prop :=
  next H ⟨(ts t).prog, (ts t).held, w⟩ = some q ∧
    ∀ l m, (ts t).prog.action = some (.lock l m) → Free ts l m

/-- No thread holds a lock that another one holds exclusively. -/
def Compatible (ts : T → Thread I α) : Prop :=
  ∀ t t', t ≠ t' → ∀ l m, (l, .ex) ∈ (ts t).held → (l, m) ∉ (ts t').held

section Threads

variable {H : Handler I W} {ts : T → Thread I α} {w : W} {t : T} {q : Point I α W}

/-- What a step of a thread can be. -/
lemma Advances.cases (h : Advances H ts w t q) :
    (∃ r k, (ts t).prog = call r k ∧ q = ⟨k (H w r).1, (ts t).held, (H w r).2⟩) ∨
      (∃ l m k, (ts t).prog = lock l m k ∧ Free ts l m ∧ q = ⟨k, (l, m) :: (ts t).held, w⟩) ∨
      ∃ l m k, (ts t).prog = unlock l m k ∧ q = ⟨k, (ts t).held.erase (l, m), w⟩ := by
  obtain ⟨hnext, hfree⟩ := h
  cases hp : (ts t).prog with
  | ret a => simp [hp, next] at hnext
  | abort => simp [hp, next] at hnext
  | call r k =>
    rw [hp] at hnext
    exact Or.inl ⟨r, k, rfl, (Option.some.inj hnext).symm⟩
  | lock l m k =>
    have hl : Free ts l m := hfree l m (by rw [hp]; rfl)
    rw [hp, next, if_pos (hl t)] at hnext
    exact Or.inr (Or.inl ⟨l, m, k, rfl, hl, (Option.some.inj hnext).symm⟩)
  | unlock l m k =>
    rw [hp] at hnext
    exact Or.inr (Or.inr ⟨l, m, k, rfl, (Option.some.inj hnext).symm⟩)

/-- A thread holds a lock of the others if it does not admit it. -/
lemma exists_held_of_not_admits {h : Held I} {l : I.Lock} {m : LockMode} (hno : ¬ Admits h l m) :
    ∃ m', (l, m') ∈ h := by
  cases m with
  | sh => exact ⟨.ex, not_not.1 hno⟩
  | ex =>
    by_cases hsh : (l, LockMode.sh) ∈ h
    · exact ⟨.sh, hsh⟩
    · exact ⟨.ex, by_contra fun hex => hno ⟨hsh, hex⟩⟩

omit [DecidableEq I.Lock] in
/-- A thread that admits a lock exclusively does not hold it. -/
lemma Admits.not_mem {h : Held I} {l : I.Lock} (hadm : Admits h l .ex) (m : LockMode) :
    (l, m) ∉ h := by
  cases m with
  | sh => exact hadm.1
  | ex => exact hadm.2

variable [DecidableEq T]

omit [DecidableEq I.Lock] in
/-- A thread may give up locks, or take one that is free. -/
lemma Compatible.update (hc : Compatible ts) {p : Prog I α} {h : Held I}
    (hh : ∀ l m, (l, m) ∈ h → (l, m) ∈ (ts t).held ∨ Free ts l m) :
    Compatible (Function.update ts t ⟨p, h⟩) := by
  intro t₁ t₂ hne l m hex hmem
  by_cases h₁ : t₁ = t
  · have h₂ : t₂ ≠ t := fun heq => hne (h₁.trans heq.symm)
    rw [h₁, Function.update_self] at hex
    rw [Function.update_of_ne h₂] at hmem
    rcases hh l .ex hex with hold | hfree
    · exact hc t t₂ h₂.symm l m hold hmem
    · exact (hfree t₂).not_mem m hmem
  · rw [Function.update_of_ne h₁] at hex
    by_cases h₂ : t₂ = t
    · rw [h₂, Function.update_self] at hmem
      rcases hh l m hmem with hold | hfree
      · exact hc t₁ t h₁ l m hex hold
      · cases m with
        | sh => exact hfree t₁ hex
        | ex => exact (hfree t₁).2 hex
    · rw [Function.update_of_ne h₂] at hmem
      exact hc t₁ t₂ hne l m hex hmem

/-- The threads hold compatible locks after a step. -/
lemma Compatible.advance (hc : Compatible ts) (h : Advances H ts w t q) :
    Compatible (Function.update ts t ⟨q.prog, q.held⟩) := by
  apply hc.update
  intro l m hmem
  rcases h.cases with ⟨r, k, -, rfl⟩ | ⟨l', m', k, -, hfree, rfl⟩ | ⟨l', m', k, -, rfl⟩
  · exact Or.inl hmem
  · rcases List.mem_cons.1 hmem with heq | hold
    · obtain ⟨rfl, rfl⟩ := Prod.mk.inj heq
      exact Or.inr hfree
    · exact Or.inl hold
  · exact Or.inl (List.mem_of_mem_erase hmem)

end Threads

/-! ## Deadlocks -/

/-- These threads will never go on: each of them is done, or waits for a lock that one of them
holds, and one of them waits. -/
def Deadlocked (ts : T → Thread I α) (S : Set T) : Prop :=
  (∃ t ∈ S, ∃ l m k, (ts t).prog = lock l m k) ∧
    ∀ t ∈ S, (∃ a, (ts t).prog = ret a) ∨
      ∃ l m k, (ts t).prog = lock l m k ∧ ∃ t' ∈ S, ¬ Admits (ts t').held l m

/-- A thread takes its locks in the order of their rank, and holds none when it is done. -/
structure Ordered (rank : I.Lock → ℕ) (th : Thread I α) : Prop where
  /-- The next lock ranks above those that are held. -/
  lock : ∀ l m k, th.prog = lock l m k → ∀ x ∈ th.held, rank x.1 < rank l
  /-- A thread that is done holds nothing. -/
  ret : ∀ a, th.prog = ret a → th.held = []

section Ordered

variable {rank : I.Lock → ℕ}

omit [DecidableEq I.Lock] in
lemma ordered_call (r : I.Req) (k : I.Resp r → Prog I α) (h : Held I) : Ordered rank ⟨call r k, h⟩ := by
  constructor
  · intro l m k' hp
    cases hp
  · intro a hp
    cases hp

omit [DecidableEq I.Lock] in
lemma ordered_unlock (l : I.Lock) (m : LockMode) (k : Prog I α) (h : Held I) :
    Ordered rank ⟨unlock l m k, h⟩ := by
  constructor
  · intro l' m' k' hp
    cases hp
  · intro a hp
    cases hp

omit [DecidableEq I.Lock] in
lemma ordered_nil (p : Prog I α) : Ordered rank ⟨p, []⟩ := by
  constructor
  · intro l m k hp x hx
    exact absurd hx List.not_mem_nil
  · intro a hp
    rfl

end Ordered

/-- Threads that take their locks in order do not wait for each other. -/
lemma not_deadlocked {ts : T → Thread I α} {rank : I.Lock → ℕ} (hord : ∀ t, Ordered rank (ts t))
    {N : ℕ} (hrank : ∀ l, rank l ≤ N) (S : Set T) : ¬ Deadlocked ts S := by
  rintro ⟨⟨t, ht, l, m, k, hp⟩, hall⟩
  -- whoever holds the lock that a thread waits for, waits for a lock of a higher rank
  suffices hno : ∀ n t l m k, t ∈ S → (ts t).prog = Prog.lock l m k → N - rank l = n → False from
    hno _ t l m k ht hp rfl
  intro n
  induction n using Nat.strong_induction_on with
  | _ n ih =>
    intro t l m k ht hp hn
    rcases hall t ht with ⟨a, ha⟩ | ⟨l₁, m₁, k₁, hp₁, t', ht', hadm⟩
    · rw [hp] at ha
      cases ha
    · rw [hp] at hp₁
      obtain ⟨rfl, rfl, rfl⟩ := Prog.lock.inj hp₁
      obtain ⟨m', hheld⟩ := exists_held_of_not_admits hadm
      rcases hall t' ht' with ⟨a, ha⟩ | ⟨l₂, m₂, k₂, hp₂, -⟩
      · rw [(hord t').ret a ha] at hheld
        exact absurd hheld (List.not_mem_nil)
      · have hlt := (hord t').lock l₂ m₂ k₂ hp₂ _ hheld
        have hle := hrank l₂
        exact ih (N - rank l₂) (by simp only at hlt; omega) t' l₂ m₂ k₂ ht' hp₂ rfl

/-- Threads that take their locks in order, and do not fail, can go on until all of them are
done. -/
lemma exists_advances {H : Handler I W} {ts : T → Thread I α} {rank : I.Lock → ℕ}
    (hord : ∀ t, Ordered rank (ts t)) {N : ℕ} (hrank : ∀ l, rank l ≤ N)
    (habort : ∀ t, (ts t).prog ≠ abort) (hrun : ∃ t, ∀ a, (ts t).prog ≠ ret a) (w : W) :
    ∃ t q, Advances H ts w t q := by
  by_contra hstuck
  push Not at hstuck
  -- all that a thread can be about to do is to wait
  have hwaits : ∀ t, (∃ a, (ts t).prog = ret a) ∨
      ∃ l m k, (ts t).prog = lock l m k ∧ ∃ t', ¬ Admits (ts t').held l m := by
    intro t
    cases hp : (ts t).prog with
    | ret a => exact Or.inl ⟨a, rfl⟩
    | abort => exact absurd hp (habort t)
    | call r k =>
      refine absurd ⟨?_, ?_⟩ (hstuck t ⟨k (H w r).1, (ts t).held, (H w r).2⟩)
      · rw [hp, next]
      · intro l m hact
        rw [hp] at hact
        cases hact
    | unlock l m k =>
      refine absurd ⟨?_, ?_⟩ (hstuck t ⟨k, (ts t).held.erase (l, m), w⟩)
      · rw [hp, next]
      · intro l' m' hact
        rw [hp] at hact
        cases hact
    | lock l m k =>
      refine Or.inr ⟨l, m, k, rfl, ?_⟩
      by_contra hfree
      push Not at hfree
      refine hstuck t ⟨k, (l, m) :: (ts t).held, w⟩ ⟨?_, ?_⟩
      · rw [hp, next, if_pos (hfree t)]
      · intro l' m' hact
        rw [hp] at hact
        obtain ⟨rfl, rfl⟩ := Action.lock.inj (Option.some.inj hact)
        exact hfree
  obtain ⟨t, ht⟩ := hrun
  refine not_deadlocked hord hrank Set.univ ⟨?_, fun t _ => ?_⟩
  · rcases hwaits t with ⟨a, ha⟩ | ⟨l, m, k, hp, -⟩
    · exact absurd ha (ht a)
    · exact ⟨t, Set.mem_univ t, l, m, k, hp⟩
  · rcases hwaits t with hret | ⟨l, m, k, hp, t', hadm⟩
    · exact Or.inl hret
    · exact Or.inr ⟨l, m, k, hp, t', Set.mem_univ t', hadm⟩

/-! ## Whatever the others do -/

/-- The program satisfies `P` at every action and `Q` where it returns, if its requests are answered
in accordance with `R`. -/
def Always (R : (r : I.Req) → I.Resp r → Prop) (P : Action I → Held I → Prop)
    (Q : α → Held I → Prop) : Prog I α → Held I → Prop
  | ret a, h => Q a h
  | abort, h => P .abort h
  | call r k, h => P (.call r) h ∧ ∀ x, R r x → Always R P Q (k x) h
  | lock l m k, h => P (.lock l m) h ∧ Always R P Q k ((l, m) :: h)
  | unlock l m k, h => P (.unlock l m) h ∧ Always R P Q k (h.erase (l, m))

section Always

variable {R : (r : I.Req) → I.Resp r → Prop} {P : Action I → Held I → Prop}
variable {Q : α → Held I → Prop} {h : Held I}

@[simp] lemma always_ret (a : α) : Always R P Q (ret a) h ↔ Q a h := Iff.rfl

@[simp] lemma always_abort : Always R P Q (abort : Prog I α) h ↔ P .abort h := Iff.rfl

@[simp] lemma always_call (r : I.Req) (k : I.Resp r → Prog I α) :
    Always R P Q (call r k) h ↔ P (.call r) h ∧ ∀ x, R r x → Always R P Q (k x) h := Iff.rfl

@[simp] lemma always_lock (l : I.Lock) (m : LockMode) (k : Prog I α) :
    Always R P Q (lock l m k) h ↔ P (.lock l m) h ∧ Always R P Q k ((l, m) :: h) := Iff.rfl

@[simp] lemma always_unlock (l : I.Lock) (m : LockMode) (k : Prog I α) :
    Always R P Q (unlock l m k) h ↔ P (.unlock l m) h ∧ Always R P Q k (h.erase (l, m)) := Iff.rfl

@[simp] lemma always_ite {c : Prop} [Decidable c] (p q : Prog I α) :
    Always R P Q (if c then p else q) h ↔ (c → Always R P Q p h) ∧ (¬c → Always R P Q q h) := by
  split <;> simp_all

lemma always_bind {Q : β → Held I → Prop} (p : Prog I α) (f : α → Prog I β) :
    Always R P Q (p >>= f) h ↔ Always R P (fun a h' => Always R P Q (f a) h') p h := by
  induction p generalizing h with
  | ret a => rfl
  | abort => rfl
  | call r k ih => simp [ih]
  | lock l m k ih => simp [ih]
  | unlock l m k ih => simp [ih]

lemma always_assert_bind {Q : β → Held I → Prop} {c : Prop} [Decidable c] (habort : ∀ h, P .abort h)
    (f : Unit → Prog I β) : Always R P Q (assert c >>= f) h ↔ (c → Always R P Q (f ()) h) := by
  unfold assert
  split <;> simp_all

lemma Always.mono {Q' : α → Held I → Prop} {p : Prog I α} (hp : Always R P Q p h)
    (hQ : ∀ a h, Q a h → Q' a h) : Always R P Q' p h := by
  induction p generalizing h with
  | ret a => exact hQ _ _ hp
  | abort => exact hp
  | call r k ih => exact ⟨hp.1, fun x hx => ih x (hp.2 x hx)⟩
  | lock l m k ih => exact ⟨hp.1, ih hp.2⟩
  | unlock l m k ih => exact ⟨hp.1, ih hp.2⟩

end Always

end Prog
