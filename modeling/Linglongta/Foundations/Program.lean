import Mathlib.Tactic
import Mathlib.Logic.Relation

/-!
# Programs over an interface, and what happens along their runs

A `Prog I α` is a program that computes a value of type `α` by making requests of an interface `I`
and by taking and releasing reader/writer locks; a failed assertion aborts it.  A `Handler` answers
the requests from a world.  The same program text is then read in three ways:

* `exec` runs it to its end in one thread and says how it ended;
* `Reaches` is the relation between a point of a run and the points after it, so that a property
  of every intermediate world (of every crash point, say) can be stated;
* `Safe H P Q p h w` says that the run of `p` from the world `w` with the locks `h` held satisfies
  `P` at every action it is about to take and `Q` where it returns.  It is computed along the
  program, so it is proved by executing the program symbolically, and it composes over `>>=`.

The interleavings of several programs are in the file on concurrency.
-/

/-- What a program may ask for: requests, the type of the answer to each, and lock names. -/
structure Interface where
  /-- The requests. -/
  Req : Type
  /-- The type of the answer to a request. -/
  Resp : Req → Type
  /-- The names of the locks. -/
  Lock : Type

/-- The two modes of a reader/writer lock. -/
inductive LockMode
  /-- Shared: any number of holders. -/
  | sh
  /-- Exclusive: one holder. -/
  | ex
deriving DecidableEq

/-- A program over the interface `I` with results in `α`. -/
inductive Prog (I : Interface) (α : Type) : Type
  /-- The program has returned. -/
  | ret (a : α)
  /-- An assertion has failed. -/
  | abort
  /-- The program makes a request and continues with the answer. -/
  | call (r : I.Req) (k : I.Resp r → Prog I α)
  /-- The program takes a lock. -/
  | lock (l : I.Lock) (m : LockMode) (k : Prog I α)
  /-- The program releases a lock. -/
  | unlock (l : I.Lock) (m : LockMode) (k : Prog I α)

namespace Prog

variable {I : Interface} {α β γ W : Type}

/-- Sequential composition. -/
def bind : Prog I α → (α → Prog I β) → Prog I β
  | ret a, f => f a
  | abort, _ => abort
  | call r k, f => call r fun x => (k x).bind f
  | lock l m k, f => lock l m (k.bind f)
  | unlock l m k, f => unlock l m (k.bind f)

instance : Monad (Prog I) where
  pure := ret
  bind := bind

/-- Make a request and return the answer. -/
def request (r : I.Req) : Prog I (I.Resp r) :=
  call r ret

/-- Take a lock. -/
def acquire (l : I.Lock) (m : LockMode) : Prog I Unit :=
  lock l m (ret ())

/-- Release a lock. -/
def release (l : I.Lock) (m : LockMode) : Prog I Unit :=
  unlock l m (ret ())

/-- `assert(3)`: abort unless the condition holds. -/
def assert (p : Prop) [Decidable p] : Prog I Unit :=
  if p then ret () else abort

@[simp] lemma pure_eq_ret (a : α) : (pure a : Prog I α) = ret a := rfl

@[simp] lemma ret_bind (a : α) (f : α → Prog I β) : ret a >>= f = f a := rfl

@[simp] lemma abort_bind (f : α → Prog I β) : (abort : Prog I α) >>= f = abort := rfl

@[simp] lemma call_bind (r : I.Req) (k : I.Resp r → Prog I α) (f : α → Prog I β) :
    call r k >>= f = call r fun x => k x >>= f := rfl

@[simp] lemma lock_bind (l : I.Lock) (m : LockMode) (k : Prog I α) (f : α → Prog I β) :
    lock l m k >>= f = lock l m (k >>= f) := rfl

@[simp] lemma unlock_bind (l : I.Lock) (m : LockMode) (k : Prog I α) (f : α → Prog I β) :
    unlock l m k >>= f = unlock l m (k >>= f) := rfl

@[simp] lemma request_bind (r : I.Req) (f : I.Resp r → Prog I β) :
    request r >>= f = call r f := rfl

@[simp] lemma acquire_bind (l : I.Lock) (m : LockMode) (f : Unit → Prog I β) :
    acquire l m >>= f = lock l m (f ()) := rfl

@[simp] lemma release_bind (l : I.Lock) (m : LockMode) (f : Unit → Prog I β) :
    release l m >>= f = unlock l m (f ()) := rfl

end Prog

/-- A handler answers the requests of an interface from a world. -/
abbrev Handler (I : Interface) (W : Type) : Type :=
  W → (r : I.Req) → I.Resp r × W

/-- The locks a thread holds, the latest first. -/
abbrev Held (I : Interface) : Type :=
  List (I.Lock × LockMode)

namespace Prog

variable {I : Interface} [DecidableEq I.Lock] {α β γ W : Type}

/-- The locks held by the other side (or leaked by earlier calls of the same thread) let the lock
`l` be taken in the mode `m`: shared means no exclusive holder, exclusive means no holder. -/
def Admits (held : Held I) (l : I.Lock) : LockMode → Prop
  | .sh => (l, .ex) ∉ held
  | .ex => (l, .sh) ∉ held ∧ (l, .ex) ∉ held

instance (held : Held I) (l : I.Lock) (m : LockMode) : Decidable (Admits held l m) := by
  cases m <;> unfold Admits <;> infer_instance

/-- How a run in one thread ends: in the locks then held and the world then reached. -/
inductive Outcome (I : Interface) (α W : Type) : Type
  /-- The program returned a value. -/
  | returned (a : α) (held : Held I) (w : W)
  /-- An assertion failed. -/
  | aborted (w : W)
  /-- The thread waits forever for a lock it holds itself. -/
  | blocked (w : W)

/-- Continue a run that returned. -/
def Outcome.andThen (o : Outcome I α W) (f : α → Held I → W → Outcome I β W) :
    Outcome I β W :=
  match o with
  | .returned a h w => f a h w
  | .aborted w => .aborted w
  | .blocked w => .blocked w

/-- The world in which a run ends. -/
def Outcome.world : Outcome I α W → W
  | .returned _ _ w => w
  | .aborted w => w
  | .blocked w => w

/-- The locks held by a run that returned. -/
def Outcome.held? : Outcome I α W → Option (Held I)
  | .returned _ h _ => some h
  | .aborted _ => none
  | .blocked _ => none

/-- Run a program to its end in one thread. -/
def exec (H : Handler I W) : Prog I α → Held I → W → Outcome I α W
  | ret a, h, w => .returned a h w
  | abort, _, w => .aborted w
  | call r k, h, w => exec H (k (H w r).1) h (H w r).2
  | lock l m k, h, w => if Admits h l m then exec H k ((l, m) :: h) w else .blocked w
  | unlock l m k, h, w => exec H k (h.erase (l, m)) w

section Exec

variable (H : Handler I W) (h : Held I) (w : W)

@[simp] lemma exec_ret (a : α) : exec H (ret a) h w = .returned a h w := rfl

@[simp] lemma exec_abort : exec H (abort : Prog I α) h w = .aborted w := rfl

lemma exec_call (r : I.Req) (k : I.Resp r → Prog I α) :
    exec H (call r k) h w = exec H (k (H w r).1) h (H w r).2 := rfl

@[simp] lemma exec_lock (l : I.Lock) (m : LockMode) (k : Prog I α) :
    exec H (lock l m k) h w = if Admits h l m then exec H k ((l, m) :: h) w else .blocked w := rfl

@[simp] lemma exec_unlock (l : I.Lock) (m : LockMode) (k : Prog I α) :
    exec H (unlock l m k) h w = exec H k (h.erase (l, m)) w := rfl

@[simp] lemma exec_release (l : I.Lock) (m : LockMode) :
    exec H (release l m) h w = .returned () (h.erase (l, m)) w := rfl

/-- A composition runs its first part and then, if that returned, its second. -/
lemma exec_bind (p : Prog I α) (f : α → Prog I β) :
    exec H (p >>= f) h w = (exec H p h w).andThen fun a h' w' => exec H (f a) h' w' := by
  induction p generalizing h w with
  | ret a => rfl
  | abort => rfl
  | call r k ih => simp [exec_call, ih]
  | lock l m k ih =>
    rw [lock_bind, exec_lock, exec_lock]
    split
    · exact ih _ _
    · rfl
  | unlock l m k ih => simp [ih]

end Exec

/-! ## Points of a run -/

/-- A point of a run: what is left to do, the locks held and the world. -/
structure Point (I : Interface) (α W : Type) where
  /-- What is left to do. -/
  prog : Prog I α
  /-- The locks held. -/
  held : Held I
  /-- The world. -/
  world : W

/-- The next point of a run in one thread. -/
def next (H : Handler I W) : Point I α W → Option (Point I α W)
  | ⟨ret _, _, _⟩ => none
  | ⟨abort, _, _⟩ => none
  | ⟨call r k, h, w⟩ => some ⟨k (H w r).1, h, (H w r).2⟩
  | ⟨lock l m k, h, w⟩ => if Admits h l m then some ⟨k, (l, m) :: h, w⟩ else none
  | ⟨unlock l m k, h, w⟩ => some ⟨k, h.erase (l, m), w⟩

/-- One point of a run is reached from another. -/
def Reaches (H : Handler I W) : Point I α W → Point I α W → Prop :=
  Relation.ReflTransGen fun p q => next H p = some q

/-- The action a program is about to take. -/
inductive Action (I : Interface) : Type
  /-- A request. -/
  | call (r : I.Req)
  /-- Taking a lock. -/
  | lock (l : I.Lock) (m : LockMode)
  /-- Releasing a lock. -/
  | unlock (l : I.Lock) (m : LockMode)
  /-- Stopping at a failed assertion. -/
  | abort

/-- The next action of a program, none if it has returned. -/
def action : Prog I α → Option (Action I)
  | ret _ => none
  | abort => some .abort
  | call r _ => some (.call r)
  | lock l m _ => some (.lock l m)
  | unlock l m _ => some (.unlock l m)

/-- The run of the program from the world with the locks held satisfies `P` at every action it is
about to take, and `Q` where it returns. -/
def Safe (H : Handler I W) (P : Action I → Held I → W → Prop) (Q : α → Held I → W → Prop) :
    Prog I α → Held I → W → Prop
  | ret a, h, w => Q a h w
  | abort, h, w => P .abort h w
  | call r k, h, w => P (.call r) h w ∧ Safe H P Q (k (H w r).1) h (H w r).2
  | lock l m k, h, w => P (.lock l m) h w ∧ (Admits h l m → Safe H P Q k ((l, m) :: h) w)
  | unlock l m k, h, w => P (.unlock l m) h w ∧ Safe H P Q k (h.erase (l, m)) w

section Safe

variable {H : Handler I W} {P : Action I → Held I → W → Prop} {Q : α → Held I → W → Prop}
variable {h : Held I} {w : W}

@[simp] lemma safe_ret (a : α) : Safe H P Q (ret a) h w ↔ Q a h w := Iff.rfl

@[simp] lemma safe_abort : Safe H P Q (abort : Prog I α) h w ↔ P .abort h w := Iff.rfl

lemma safe_call (r : I.Req) (k : I.Resp r → Prog I α) :
    Safe H P Q (call r k) h w ↔
      P (.call r) h w ∧ Safe H P Q (k (H w r).1) h (H w r).2 := Iff.rfl

@[simp] lemma safe_lock (l : I.Lock) (m : LockMode) (k : Prog I α) :
    Safe H P Q (lock l m k) h w ↔
      P (.lock l m) h w ∧ (Admits h l m → Safe H P Q k ((l, m) :: h) w) := Iff.rfl

@[simp] lemma safe_unlock (l : I.Lock) (m : LockMode) (k : Prog I α) :
    Safe H P Q (unlock l m k) h w ↔
      P (.unlock l m) h w ∧ Safe H P Q k (h.erase (l, m)) w := Iff.rfl

@[simp] lemma safe_release {Q : Unit → Held I → W → Prop} (l : I.Lock) (m : LockMode) :
    Safe H P Q (release l m) h w ↔ P (.unlock l m) h w ∧ Q () (h.erase (l, m)) w := Iff.rfl

/-- A composition is safe if its first part is safe and leads to worlds from which the second
part is safe. -/
lemma safe_bind {Q : β → Held I → W → Prop} (p : Prog I α) (f : α → Prog I β) :
    Safe H P Q (p >>= f) h w ↔ Safe H P (fun a h' w' => Safe H P Q (f a) h' w') p h w := by
  induction p generalizing h w with
  | ret a => rfl
  | abort => rfl
  | call r k ih => simp [safe_call, ih]
  | lock l m k ih => simp [ih]
  | unlock l m k ih => simp [ih]

/-- A safe run may be held to less. -/
lemma Safe.mono {P' : Action I → Held I → W → Prop} {Q' : α → Held I → W → Prop} {p : Prog I α}
    (hs : Safe H P Q p h w) (hP : ∀ a h w, P a h w → P' a h w)
    (hQ : ∀ a h w, Q a h w → Q' a h w) : Safe H P' Q' p h w := by
  induction p generalizing h w with
  | ret a => exact hQ _ _ _ hs
  | abort => exact hP _ _ _ hs
  | call r k ih => exact ⟨hP _ _ _ hs.1, ih _ hs.2⟩
  | lock l m k ih => exact ⟨hP _ _ _ hs.1, fun hadm => ih (hs.2 hadm)⟩
  | unlock l m k ih => exact ⟨hP _ _ _ hs.1, ih hs.2⟩

/-- A safe run stays safe from one point to the next. -/
lemma Safe.next {p q : Point I α W} (hs : Safe H P Q p.prog p.held p.world)
    (hn : next H p = some q) : Safe H P Q q.prog q.held q.world := by
  obtain ⟨p, h, w⟩ := p
  cases p with
  | ret a => simp [Prog.next] at hn
  | abort => simp [Prog.next] at hn
  | call r k =>
    simp only [Prog.next, Option.some.injEq] at hn
    subst hn
    exact hs.2
  | lock l m k =>
    simp only [Prog.next] at hn
    split at hn
    · rename_i hadm
      simp only [Option.some.injEq] at hn
      subst hn
      exact hs.2 hadm
    · simp at hn
  | unlock l m k =>
    simp only [Prog.next, Option.some.injEq] at hn
    subst hn
    exact hs.2

/-- A safe run is safe at every point it reaches. -/
lemma Safe.reaches {p q : Point I α W} (hs : Safe H P Q p.prog p.held p.world)
    (hr : Reaches H p q) : Safe H P Q q.prog q.held q.world := by
  induction hr with
  | refl => exact hs
  | tail _ hn ih => exact ih.next hn

/-- At every point of a safe run the next action satisfies the condition on actions. -/
lemma Safe.action {p : Prog I α} (hs : Safe H P Q p h w) {a : Action I}
    (ha : p.action = some a) : P a h w := by
  cases p with
  | ret b => simp [Prog.action] at ha
  | abort =>
    simp only [Prog.action, Option.some.injEq] at ha
    exact ha ▸ hs
  | call r k =>
    simp only [Prog.action, Option.some.injEq] at ha
    exact ha ▸ hs.1
  | lock l m k =>
    simp only [Prog.action, Option.some.injEq] at ha
    exact ha ▸ hs.1
  | unlock l m k =>
    simp only [Prog.action, Option.some.injEq] at ha
    exact ha ▸ hs.1

/-- A run that is not safe reaches a point with an action that breaks the condition. -/
lemma exists_reaches_of_not_safe {p : Prog I α} (hs : ¬Safe H P (fun _ _ _ => True) p h w) :
    ∃ q : Point I α W, Reaches H ⟨p, h, w⟩ q ∧
      ∃ a, q.prog.action = some a ∧ ¬P a q.held q.world := by
  -- an action that satisfies the condition leads to the next point
  have hstep : ∀ (p p' : Point I α W) (a : Action I), p.prog.action = some a →
      (P a p.held p.world → Prog.next H p = some p' ∧
        ∃ q, Reaches H p' q ∧ ∃ a, q.prog.action = some a ∧ ¬P a q.held q.world) →
      ∃ q, Reaches H p q ∧ ∃ a, q.prog.action = some a ∧ ¬P a q.held q.world := by
    intro p p' a ha hcont
    by_cases hP : P a p.held p.world
    · obtain ⟨hnext, q, hr, hq⟩ := hcont hP
      exact ⟨q, Relation.ReflTransGen.head hnext hr, hq⟩
    · exact ⟨p, Relation.ReflTransGen.refl, a, ha, hP⟩
  induction p generalizing h w with
  | ret a => exact absurd trivial hs
  | abort => exact ⟨_, Relation.ReflTransGen.refl, .abort, rfl, hs⟩
  | call r k ih =>
    exact hstep _ _ (.call r) rfl fun hP => ⟨rfl, ih _ fun hk => hs ⟨hP, hk⟩⟩
  | lock l m k ih =>
    by_cases hadm : Admits h l m
    · exact hstep ⟨lock l m k, h, w⟩ ⟨k, (l, m) :: h, w⟩ (.lock l m) rfl fun hP =>
        ⟨by simp [Prog.next, hadm], ih fun hk => hs ⟨hP, fun _ => hk⟩⟩
    · exact ⟨_, Relation.ReflTransGen.refl, .lock l m, rfl,
        fun hP => hs ⟨hP, fun hadm' => absurd hadm' hadm⟩⟩
  | unlock l m k ih =>
    exact hstep _ _ (.unlock l m) rfl fun hP => ⟨rfl, ih fun hk => hs ⟨hP, hk⟩⟩

end Safe

/-! ## Whatever the answers are -/

/-- Every run of the program that starts with the locks `h` and returns satisfies `Q` where it
returns, whatever its requests are answered and whatever locks it has to wait for. -/
def Returns (Q : α → Held I → Prop) : Prog I α → Held I → Prop
  | ret a, h => Q a h
  | abort, _ => True
  | call _ k, h => ∀ x, Returns Q (k x) h
  | lock l m k, h => Returns Q k ((l, m) :: h)
  | unlock l m k, h => Returns Q k (h.erase (l, m))

section Returns

variable {Q : α → Held I → Prop} {h : Held I}

@[simp] lemma returns_ret (a : α) : Returns Q (ret a) h ↔ Q a h := Iff.rfl

@[simp] lemma returns_abort : Returns Q (abort : Prog I α) h := trivial

@[simp] lemma returns_call (r : I.Req) (k : I.Resp r → Prog I α) :
    Returns Q (call r k) h ↔ ∀ x, Returns Q (k x) h := Iff.rfl

@[simp] lemma returns_lock (l : I.Lock) (m : LockMode) (k : Prog I α) :
    Returns Q (lock l m k) h ↔ Returns Q k ((l, m) :: h) := Iff.rfl

@[simp] lemma returns_unlock (l : I.Lock) (m : LockMode) (k : Prog I α) :
    Returns Q (unlock l m k) h ↔ Returns Q k (h.erase (l, m)) := Iff.rfl

@[simp] lemma returns_ite {c : Prop} [Decidable c] (p q : Prog I α) :
    Returns Q (if c then p else q) h ↔ (c → Returns Q p h) ∧ (¬c → Returns Q q h) := by
  split <;> simp_all

lemma returns_bind {Q : β → Held I → Prop} (p : Prog I α) (f : α → Prog I β) :
    Returns Q (p >>= f) h ↔ Returns (fun a h' => Returns Q (f a) h') p h := by
  induction p generalizing h with
  | ret a => rfl
  | abort => rfl
  | call r k ih => simp [ih]
  | lock l m k ih => simp [ih]
  | unlock l m k ih => simp [ih]

@[simp] lemma returns_assert_bind {Q : β → Held I → Prop} {c : Prop} [Decidable c]
    (f : Unit → Prog I β) : Returns Q (assert c >>= f) h ↔ (c → Returns Q (f ()) h) := by
  unfold assert
  split <;> simp_all

lemma Returns.mono {Q' : α → Held I → Prop} {p : Prog I α} (hp : Returns Q p h)
    (hQ : ∀ a h, Q a h → Q' a h) : Returns Q' p h := by
  induction p generalizing h with
  | ret a => exact hQ _ _ hp
  | abort => trivial
  | call r k ih => exact fun x => ih x (hp x)
  | lock l m k ih => exact ih hp
  | unlock l m k ih => exact ih hp

/-- A run that returns ends in the condition. -/
lemma Returns.returned {H : Handler I W} {w w' : W} {p : Prog I α} {a : α} {h' : Held I}
    (hp : Returns Q p h) (he : exec H p h w = .returned a h' w') : Q a h' := by
  induction p generalizing h w with
  | ret b =>
    simp only [exec_ret, Outcome.returned.injEq] at he
    obtain ⟨rfl, rfl, -⟩ := he
    exact hp
  | abort => simp at he
  | call r k ih => exact ih _ (hp _) he
  | lock l m k ih =>
    rw [exec_lock] at he
    split at he
    · exact ih hp he
    · simp at he
  | unlock l m k ih => exact ih hp he

end Returns

/-! ## The requests of a run -/

/-- The requests a run makes, in order. -/
def requests (H : Handler I W) : Prog I α → Held I → W → List I.Req
  | ret _, _, _ => []
  | abort, _, _ => []
  | call r k, h, w => r :: requests H (k (H w r).1) h (H w r).2
  | lock l m k, h, w => if Admits h l m then requests H k ((l, m) :: h) w else []
  | unlock l m k, h, w => requests H k (h.erase (l, m)) w

section Requests

variable (H : Handler I W) (h : Held I) (w : W)

@[simp] lemma requests_ret (a : α) : requests H (ret a) h w = [] := rfl

@[simp] lemma requests_abort : requests H (abort : Prog I α) h w = [] := rfl

lemma requests_call (r : I.Req) (k : I.Resp r → Prog I α) :
    requests H (call r k) h w = r :: requests H (k (H w r).1) h (H w r).2 := rfl

@[simp] lemma requests_lock (l : I.Lock) (m : LockMode) (k : Prog I α) :
    requests H (lock l m k) h w =
      if Admits h l m then requests H k ((l, m) :: h) w else [] := rfl

@[simp] lemma requests_unlock (l : I.Lock) (m : LockMode) (k : Prog I α) :
    requests H (unlock l m k) h w = requests H k (h.erase (l, m)) w := rfl

/-- The requests of a composition are those of its first part and then, if that returned, those of
its second. -/
lemma requests_bind (p : Prog I α) (f : α → Prog I β) :
    requests H (p >>= f) h w = requests H p h w ++
      match exec H p h w with
      | .returned a h' w' => requests H (f a) h' w'
      | .aborted _ => []
      | .blocked _ => [] := by
  induction p generalizing h w with
  | ret a => rfl
  | abort => rfl
  | call r k ih => simp [requests_call, exec_call, ih]
  | lock l m k ih =>
    rw [lock_bind, requests_lock, requests_lock, exec_lock]
    split
    · exact ih _ _
    · rfl
  | unlock l m k ih => simp [ih]

end Requests

end Prog
