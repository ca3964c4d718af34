import Linglongta.Foundations.Census
import Mathlib.Logic.Relation

/-!
# The reader/writer lock

`rwlock_rdlock`, `rwlock_unrdlock`, `rwlock_wrlock` and `rwlock_unwrlock` run under a mutex, so a
section between taking the mutex and releasing it, or waiting on the condition, is one step of a
monitor.  `Monitor.Step` is the step relation for any number of threads.  A broadcast marks the
waiting threads as notified; a thread that waits may be woken at any time, notified or not, and then
looks at its condition again.

`Monitor.Inv` relates the three counters to the places of the threads, and `rwlock_exclusion` is the
exclusion of readers and writers in every reachable state.  `Monitor.Awake` says what a thread that
is asleep waits for, and `rwlock_no_lost_wakeup` that the lock is not free while all who want it
sleep.
-/

namespace Linglongta

open Census

/-- The counters of `struct rwlock_t`. -/
structure Rwlock where
  /-- `tobe_write_queue_len`. -/
  tobeWriteQueueLen : ℕ
  /-- `write_queue_len`. -/
  writeQueueLen : ℕ
  /-- `read_queue_len`: the readers that hold the lock and those that wait for it. -/
  readQueueLen : ℕ
deriving DecidableEq

/-- One less in a `size_t`: zero wraps around. -/
def sizeTPred : ℕ → ℕ
  | 0 => 2 ^ 64 - 1
  | n + 1 => n

lemma sizeTPred_of_pos {n : ℕ} (h : 0 < n) : sizeTPred n + 1 = n := by
  cases n with
  | zero => exact absurd h (lt_irrefl 0)
  | succ n => rfl

/-- Where a thread is. -/
inductive Place
  /-- It does not use the lock. -/
  | idle
  /-- It waits in `rwlock_rdlock`. -/
  | readWait (notified : Bool)
  /-- It has returned from `rwlock_rdlock`. -/
  | reading
  /-- It waits in `rwlock_wrlock`. -/
  | writeWait (notified : Bool)
  /-- It has returned from `rwlock_wrlock`. -/
  | writing
deriving DecidableEq

namespace Place

/-- `pthread_cond_broadcast`, for one thread. -/
def notify : Place → Place
  | readWait _ => readWait true
  | writeWait _ => writeWait true
  | idle => idle
  | reading => reading
  | writing => writing

/-- The readers that `read_queue_len` counts. -/
def Reads : Place → Prop
  | readWait _ => True
  | reading => True
  | idle => False
  | writeWait _ => False
  | writing => False

/-- The readers that wait. -/
def WaitsToRead : Place → Prop
  | readWait _ => True
  | idle => False
  | reading => False
  | writeWait _ => False
  | writing => False

/-- The writers that `tobe_write_queue_len` counts. -/
def WaitsToWrite : Place → Prop
  | writeWait _ => True
  | idle => False
  | readWait _ => False
  | reading => False
  | writing => False

instance : DecidablePred Reads := fun p => by
  cases p <;> unfold Reads <;> infer_instance

instance : DecidablePred WaitsToRead := fun p => by
  cases p <;> unfold WaitsToRead <;> infer_instance

instance : DecidablePred WaitsToWrite := fun p => by
  cases p <;> unfold WaitsToWrite <;> infer_instance

@[simp] lemma reads_reading : Reads reading := trivial

@[simp] lemma reads_readWait (b : Bool) : Reads (readWait b) := trivial

@[simp] lemma not_reads_idle : ¬Reads idle := id

@[simp] lemma not_reads_writeWait (b : Bool) : ¬Reads (writeWait b) := id

@[simp] lemma not_reads_writing : ¬Reads writing := id

@[simp] lemma waitsToWrite_writeWait (b : Bool) : WaitsToWrite (writeWait b) := trivial

@[simp] lemma not_waitsToWrite_idle : ¬WaitsToWrite idle := id

@[simp] lemma not_waitsToWrite_readWait (b : Bool) : ¬WaitsToWrite (readWait b) := id

@[simp] lemma not_waitsToWrite_reading : ¬WaitsToWrite reading := id

@[simp] lemma not_waitsToWrite_writing : ¬WaitsToWrite writing := id

@[simp] lemma reads_notify (p : Place) : p.notify.Reads ↔ p.Reads := by
  cases p <;> exact Iff.rfl

@[simp] lemma waitsToWrite_notify (p : Place) : p.notify.WaitsToWrite ↔ p.WaitsToWrite := by
  cases p <;> exact Iff.rfl

@[simp] lemma notify_eq_writing (p : Place) : p.notify = writing ↔ p = writing := by
  cases p <;> simp [notify]

@[simp] lemma notify_eq_reading (p : Place) : p.notify = reading ↔ p = reading := by
  cases p <;> simp [notify]

/-- The readers are those that hold the lock and those that wait. -/
lemma census_reads {T : Type} [Fintype T] [DecidableEq T] (f : T → Place) :
    census Reads f = census (· = reading) f + census WaitsToRead f := by
  refine census_add (fun p => ?_) (fun p hp => ?_) f
  · cases p <;> simp [WaitsToRead]
  · rw [hp]
    exact id

end Place

namespace Rwlock

/-- `rwlock_build`. -/
def build : Rwlock where
  tobeWriteQueueLen := 0
  writeQueueLen := 0
  readQueueLen := 0

/-- The loop of `rwlock_rdlock`: where the thread is when it gives the mutex back. -/
def rdlockLoop (l : Rwlock) : Place :=
  if 0 < l.writeQueueLen then .readWait false else .reading

/-- `rwlock_rdlock`, up to its loop. -/
def rdlock (l : Rwlock) : Rwlock :=
  { l with readQueueLen := l.readQueueLen + 1 }

/-- The decrement of `rwlock_unrdlock`. -/
def unrdlock (l : Rwlock) : Rwlock :=
  { l with readQueueLen := sizeTPred l.readQueueLen }

/-- Whether `rwlock_unrdlock` broadcasts. -/
def unrdlockBroadcasts (l : Rwlock) : Bool :=
  l.readQueueLen = 0 ∧ 0 < l.tobeWriteQueueLen

/-- `rwlock_wrlock`, up to its loop. -/
def wrlock (l : Rwlock) : Rwlock :=
  { l with tobeWriteQueueLen := l.tobeWriteQueueLen + 1 }

/-- The loop of `rwlock_wrlock` and what follows it. -/
def wrlockLoop (l : Rwlock) : Rwlock × Place :=
  if 0 < l.readQueueLen ∨ 0 < l.writeQueueLen then (l, .writeWait false)
  else
    ({ l with
        tobeWriteQueueLen := sizeTPred l.tobeWriteQueueLen
        writeQueueLen := l.writeQueueLen + 1 }, .writing)

/-- The decrement of `rwlock_unwrlock`. -/
def unwrlock (l : Rwlock) : Rwlock :=
  { l with writeQueueLen := sizeTPred l.writeQueueLen }

/-- Whether `rwlock_unwrlock` broadcasts. -/
def unwrlockBroadcasts (l : Rwlock) : Bool :=
  0 < l.readQueueLen ∨ 0 < l.tobeWriteQueueLen

end Rwlock

/-- The lock and the places of its threads. -/
structure Monitor (T : Type) where
  /-- The counters. -/
  lock : Rwlock
  /-- Where each thread is. -/
  place : T → Place

namespace Monitor

variable {T : Type} [DecidableEq T]

/-- Nobody uses the lock. -/
def init : Monitor T where
  lock := Rwlock.build
  place := fun _ => .idle

/-- The section of one thread ends with the given counters, and the thread at the given place. -/
def leave (s : Monitor T) (t : T) (r : Rwlock × Place) : Monitor T where
  lock := r.1
  place := Function.update s.place t r.2

/-- A broadcast, if there is one. -/
def broadcast (s : Monitor T) (b : Bool) : Monitor T where
  lock := s.lock
  place := fun t => if b then (s.place t).notify else s.place t

/-- One section of one thread. -/
inductive Step (s : Monitor T) : Monitor T → Prop
  /-- A call of `rwlock_rdlock`. -/
  | rdlock (t : T) (h : s.place t = .idle) :
      Step s (s.leave t (s.lock.rdlock, s.lock.rdlock.rdlockLoop))
  /-- A thread wakes up in `rwlock_rdlock`. -/
  | rdwake (t : T) (b : Bool) (h : s.place t = .readWait b) :
      Step s (s.leave t (s.lock, s.lock.rdlockLoop))
  /-- A call of `rwlock_unrdlock`. -/
  | unrdlock (t : T) (h : s.place t = .reading) :
      Step s ((s.leave t (s.lock.unrdlock, .idle)).broadcast s.lock.unrdlock.unrdlockBroadcasts)
  /-- A call of `rwlock_wrlock`. -/
  | wrlock (t : T) (h : s.place t = .idle) : Step s (s.leave t s.lock.wrlock.wrlockLoop)
  /-- A thread wakes up in `rwlock_wrlock`. -/
  | wrwake (t : T) (b : Bool) (h : s.place t = .writeWait b) :
      Step s (s.leave t s.lock.wrlockLoop)
  /-- A call of `rwlock_unwrlock`. -/
  | unwrlock (t : T) (h : s.place t = .writing) :
      Step s ((s.leave t (s.lock.unwrlock, .idle)).broadcast s.lock.unwrlock.unwrlockBroadcasts)

/-- The states that are reached. -/
def Reachable (s : Monitor T) : Prop :=
  Relation.ReflTransGen Step init s

@[simp] lemma place_leave_self (s : Monitor T) (t : T) (r : Rwlock × Place) :
    (s.leave t r).place t = r.2 :=
  Function.update_self _ _ _

lemma place_leave_of_ne (s : Monitor T) {t u : T} (r : Rwlock × Place) (h : u ≠ t) :
    (s.leave t r).place u = s.place u :=
  Function.update_of_ne h _ _

end Monitor

/-! ## The counters count the threads -/

namespace Monitor

variable {T : Type} [Fintype T]

/-- The counters count the threads, and no reader holds the lock while a writer does. -/
structure Inv (s : Monitor T) : Prop where
  /-- `write_queue_len` is the number of the writers that hold the lock. -/
  write : s.lock.writeQueueLen = census (· = .writing) s.place
  /-- There is at most one. -/
  one : s.lock.writeQueueLen ≤ 1
  /-- `tobe_write_queue_len` is the number of the waiting writers. -/
  tobe : s.lock.tobeWriteQueueLen = census Place.WaitsToWrite s.place
  /-- `read_queue_len` is the number of the readers that hold the lock or wait for it. -/
  read : s.lock.readQueueLen = census Place.Reads s.place
  /-- No reader holds the lock while a writer does. -/
  exclusion : 0 < s.lock.writeQueueLen → ∀ t, s.place t ≠ .reading

variable {s s' : Monitor T} {t : T}

/-- A broadcast moves nobody. -/
lemma Inv.broadcast (hi : Inv s) (b : Bool) : Inv (s.broadcast b) := by
  cases b with
  | false => exact hi
  | true =>
    constructor
    · exact hi.write.trans (census_congr fun t => Place.notify_eq_writing _).symm
    · exact hi.one
    · exact hi.tobe.trans (census_congr fun t => Place.waitsToWrite_notify _).symm
    · exact hi.read.trans (census_congr fun t => Place.reads_notify _).symm
    · intro hpos t hreading
      exact hi.exclusion hpos t ((Place.notify_eq_reading _).1 hreading)

/-- A thread that reads or waits to read is counted. -/
lemma Inv.read_pos (hi : Inv s) (h : (s.place t).Reads) : 0 < s.lock.readQueueLen := by
  rw [hi.read]
  exact census_pos h

/-- A thread that writes is counted. -/
lemma Inv.write_pos (hi : Inv s) (h : s.place t = .writing) : 0 < s.lock.writeQueueLen := by
  rw [hi.write]
  exact census_pos (p := (· = Place.writing)) h

/-- A thread that waits to write is counted. -/
lemma Inv.tobe_pos (hi : Inv s) (h : (s.place t).WaitsToWrite) : 0 < s.lock.tobeWriteQueueLen := by
  rw [hi.tobe]
  exact census_pos h

/-- Nobody reads if the counter of the readers is zero. -/
lemma Inv.not_reading (hi : Inv s) (h : s.lock.readQueueLen = 0) (t : T) :
    s.place t ≠ .reading := by
  intro hreading
  have hpos : 0 < s.lock.readQueueLen := hi.read_pos (t := t) (by rw [hreading]; trivial)
  omega

/-- Nobody uses the lock in the beginning. -/
lemma inv_init : Inv (init : Monitor T) where
  write := (census_eq_zero fun _ => by simp [init]).symm
  one := Nat.zero_le 1
  tobe := (census_eq_zero fun _ => by simp [init]).symm
  read := (census_eq_zero fun _ => by simp [init]).symm
  exclusion := fun hpos => absurd hpos (lt_irrefl 0)

variable [DecidableEq T] {x : Place}

/-- The end of a section, given what it does to the counters. -/
lemma Inv.leave (hi : Inv s) (hx : s.place t = x) {l : Rwlock} {y : Place}
    (hw : l.writeQueueLen + (if x = .writing then 1 else 0) =
      s.lock.writeQueueLen + if y = .writing then 1 else 0)
    (ht : l.tobeWriteQueueLen + (if x.WaitsToWrite then 1 else 0) =
      s.lock.tobeWriteQueueLen + if y.WaitsToWrite then 1 else 0)
    (hr : l.readQueueLen + (if x.Reads then 1 else 0) =
      s.lock.readQueueLen + if y.Reads then 1 else 0)
    (hone : l.writeQueueLen ≤ 1)
    (hexcl : 0 < l.writeQueueLen → y ≠ .reading ∧ ∀ u, u ≠ t → s.place u ≠ .reading) :
    Inv (s.leave t (l, y)) := by
  have hcensus : ∀ (p : Place → Prop) [DecidablePred p],
      census p (s.leave t (l, y)).place + (if p x then 1 else 0) =
        census p s.place + if p y then 1 else 0 := by
    intro p _
    have hupdate := census_update (p := p) s.place t y
    rwa [hx] at hupdate
  have hw' := hcensus (· = .writing)
  have ht' := hcensus Place.WaitsToWrite
  have hr' := hcensus Place.Reads
  rw [← hi.write] at hw'
  rw [← hi.tobe] at ht'
  rw [← hi.read] at hr'
  constructor
  · exact Nat.add_right_cancel (hw.trans hw'.symm)
  · exact hone
  · exact Nat.add_right_cancel (ht.trans ht'.symm)
  · exact Nat.add_right_cancel (hr.trans hr'.symm)
  · intro hpos u
    obtain ⟨hy, hother⟩ := hexcl hpos
    by_cases hut : u = t
    · subst hut
      rwa [place_leave_self]
    · rw [place_leave_of_ne s _ hut]
      exact hother u hut

/-- The loop of `rwlock_rdlock`, with the counters `l` that have counted the reader. -/
lemma Inv.rdlockLoop (hi : Inv s) (hx : s.place t = x) (hx₁ : x ≠ .writing)
    (hx₂ : ¬x.WaitsToWrite) {l : Rwlock} (hw : l.writeQueueLen = s.lock.writeQueueLen)
    (ht : l.tobeWriteQueueLen = s.lock.tobeWriteQueueLen)
    (hr : l.readQueueLen + (if x.Reads then 1 else 0) = s.lock.readQueueLen + 1) :
    Inv (s.leave t (l, l.rdlockLoop)) := by
  unfold Rwlock.rdlockLoop
  split
  · rename_i hpos
    refine hi.leave hx ?_ ?_ hr (hw ▸ hi.one) fun hpos' => ⟨by decide, fun u _ => ?_⟩
    · simpa [hx₁] using hw
    · simpa [hx₂] using ht
    · exact hi.exclusion (hw ▸ hpos') u
  · rename_i hpos
    refine hi.leave hx ?_ ?_ hr (hw ▸ hi.one) fun hpos' => absurd hpos' hpos
    · simpa [hx₁] using hw
    · simpa [hx₂] using ht

/-- The loop of `rwlock_wrlock`, with the counters `l` that have counted the writer as waiting. -/
lemma Inv.wrlockLoop (hi : Inv s) (hx : s.place t = x) (hx₁ : x ≠ .writing) (hx₂ : ¬x.Reads)
    {l : Rwlock} (hw : l.writeQueueLen = s.lock.writeQueueLen)
    (ht : l.tobeWriteQueueLen + (if x.WaitsToWrite then 1 else 0) = s.lock.tobeWriteQueueLen + 1)
    (htpos : 0 < l.tobeWriteQueueLen) (hr : l.readQueueLen = s.lock.readQueueLen) :
    Inv (s.leave t l.wrlockLoop) := by
  unfold Rwlock.wrlockLoop
  split
  · refine hi.leave hx ?_ ht ?_ (hw ▸ hi.one) fun hpos => ⟨by decide, fun u _ => ?_⟩
    · simpa [hx₁] using hw
    · simpa [hx₂] using hr
    · exact hi.exclusion (hw ▸ hpos) u
  · rename_i hfree
    have hpred := sizeTPred_of_pos htpos
    have hzero : s.lock.writeQueueLen = 0 := by omega
    refine hi.leave hx ?_ ?_ ?_ ?_ fun _ => ⟨by decide, fun u _ => hi.not_reading (by omega) u⟩
    · simp only [hx₁, if_true, if_false]
      omega
    · simp only [Place.not_waitsToWrite_writing, if_false]
      omega
    · simpa [hx₂] using hr
    · simp only
      omega

/-- Every section keeps the invariant. -/
lemma Inv.step (hi : Inv s) (hstep : Step s s') : Inv s' := by
  cases hstep with
  | rdlock t h => exact hi.rdlockLoop h (by decide) (by decide) rfl rfl rfl
  | rdwake t b h => exact hi.rdlockLoop h (by simp) (by simp) rfl rfl rfl
  | unrdlock t h =>
    have hpred := sizeTPred_of_pos (hi.read_pos (t := t) (by rw [h]; trivial))
    apply Inv.broadcast
    exact hi.leave h rfl rfl hpred hi.one fun hpos => ⟨by decide, fun u _ => hi.exclusion hpos u⟩
  | wrlock t h =>
    exact hi.wrlockLoop h (by decide) (by decide) rfl rfl (Nat.succ_pos _) rfl
  | wrwake t b h =>
    have hpos := hi.tobe_pos (t := t) (by rw [h]; trivial)
    exact hi.wrlockLoop h (by simp) (by simp) rfl rfl hpos rfl
  | unwrlock t h =>
    have hpred := sizeTPred_of_pos (hi.write_pos h)
    have hone := hi.one
    apply Inv.broadcast
    refine hi.leave h hpred rfl rfl ?_ fun hpos => ?_
    · simp only [Rwlock.unwrlock]
      omega
    · simp only [Rwlock.unwrlock] at hpos
      omega

/-- Every reachable state has the invariant. -/
lemma Reachable.inv (hr : Reachable s) : Inv s := by
  induction hr with
  | refl => exact inv_init
  | tail _ hstep ih => exact ih.step hstep

end Monitor

/-- Readers and writers exclude each other.  In every reachable state `write_queue_len` is the
number of the writers that hold the lock, which is at most one, `tobe_write_queue_len` is the number
of the waiting writers and `read_queue_len` the number of the readers that hold the lock or wait for
it; a counter that a thread may decrement is not zero; and if a writer holds the lock, no reader
does. -/
theorem rwlock_exclusion {T : Type} [Fintype T] [DecidableEq T] {s : Monitor T}
    (hr : s.Reachable) :
    s.lock.writeQueueLen = census (· = .writing) s.place ∧ s.lock.writeQueueLen ≤ 1 ∧
    s.lock.tobeWriteQueueLen = census Place.WaitsToWrite s.place ∧
    s.lock.readQueueLen = census (· = .reading) s.place + census Place.WaitsToRead s.place ∧
    (∀ t, s.place t = .reading → 0 < s.lock.readQueueLen) ∧
    (∀ t, s.place t = .writing → 0 < s.lock.writeQueueLen) ∧
    (∀ t b, s.place t = .writeWait b → 0 < s.lock.tobeWriteQueueLen) ∧
    ∀ t u, s.place t = .writing → s.place u ≠ .reading := by
  have hi := hr.inv
  refine ⟨hi.write, hi.one, hi.tobe, ?_, ?_, ?_, ?_, ?_⟩
  · exact hi.read.trans (Place.census_reads s.place)
  · intro t h
    exact hi.read_pos (t := t) (by rw [h]; trivial)
  · intro t h
    exact hi.write_pos h
  · intro t b h
    exact hi.tobe_pos (t := t) (by rw [h]; trivial)
  · intro t u h
    exact hi.exclusion (hi.write_pos h) u

/-- One thread has the lock for writing, and another one waits to read. -/
theorem rwlock_exclusion_waiting_reader :
    ∃ s : Monitor Bool, s.Reachable ∧ s.place true = .writing ∧ s.place false = .readWait false ∧
      s.lock.readQueueLen = census (· = .reading) s.place + census Place.WaitsToRead s.place ∧
      s.lock.writeQueueLen ≤ 1 := by
  have h₁ := Monitor.Step.wrlock (s := Monitor.init) true rfl
  have h₂ := Monitor.Step.rdlock (s := Monitor.init.leave true Rwlock.build.wrlock.wrlockLoop) false
    (by decide)
  have hr := (Relation.ReflTransGen.single h₁).tail h₂
  obtain ⟨-, hone, -, hread, -⟩ := rwlock_exclusion hr
  exact ⟨_, hr, by decide, by decide, hread, hone⟩

/-! ## Who is asleep -/

namespace Monitor

variable {T : Type}

/-- A thread that sleeps without having been notified waits for somebody who will broadcast. -/
structure Awake (s : Monitor T) : Prop where
  /-- A reader waits for a writer. -/
  reader : ∀ t, s.place t = .readWait false → 0 < s.lock.writeQueueLen
  /-- A writer waits for a reader or a writer. -/
  writer : ∀ t, s.place t = .writeWait false → 0 < s.lock.readQueueLen ∨ 0 < s.lock.writeQueueLen

/-- After a broadcast nobody sleeps without having been notified. -/
lemma awake_broadcast (s : Monitor T) : Awake (s.broadcast true) := by
  constructor
  · intro t ht
    cases hp : s.place t <;> simp [Monitor.broadcast, hp, Place.notify] at ht
  · intro t ht
    cases hp : s.place t <;> simp [Monitor.broadcast, hp, Place.notify] at ht

variable [DecidableEq T] {s s' : Monitor T} {t : T}

/-- The end of a section, if the counters go on blocking those who sleep. -/
lemma Awake.leave (ha : Awake s) {l : Rwlock} {y : Place}
    (hw : 0 < s.lock.writeQueueLen → 0 < l.writeQueueLen)
    (hr : 0 < s.lock.readQueueLen → 0 < l.readQueueLen)
    (hself : y = .readWait false → 0 < l.writeQueueLen)
    (hself' : y = .writeWait false → 0 < l.readQueueLen ∨ 0 < l.writeQueueLen) :
    Awake (s.leave t (l, y)) := by
  constructor
  · intro u hu
    by_cases hut : u = t
    · rw [hut, place_leave_self] at hu
      exact hself hu
    · rw [place_leave_of_ne s _ hut] at hu
      exact hw (ha.reader u hu)
  · intro u hu
    by_cases hut : u = t
    · rw [hut, place_leave_self] at hu
      exact hself' hu
    · rw [place_leave_of_ne s _ hut] at hu
      exact (ha.writer u hu).imp hr hw

/-- A reader sleeps only while a writer holds the lock. -/
lemma Awake.rdlockLoop (ha : Awake s) {l : Rwlock} (hw : l.writeQueueLen = s.lock.writeQueueLen)
    (hr : s.lock.readQueueLen ≤ l.readQueueLen) : Awake (s.leave t (l, l.rdlockLoop)) := by
  refine ha.leave (fun h => hw ▸ h) (fun h => h.trans_le hr) (fun hy => ?_) (fun hy => ?_)
  · unfold Rwlock.rdlockLoop at hy
    split at hy
    · assumption
    · cases hy
  · unfold Rwlock.rdlockLoop at hy
    split at hy <;> cases hy

/-- A writer sleeps only while others hold the lock or wait to read. -/
lemma Awake.wrlockLoop (ha : Awake s) {l : Rwlock} (hw : l.writeQueueLen = s.lock.writeQueueLen)
    (hr : l.readQueueLen = s.lock.readQueueLen) : Awake (s.leave t l.wrlockLoop) := by
  unfold Rwlock.wrlockLoop
  split
  · rename_i hbusy
    exact ha.leave (fun h => hw ▸ h) (fun h => hr ▸ h) (fun hy => by cases hy) fun _ => hbusy
  · exact ha.leave (fun _ => Nat.succ_pos _) (fun h => hr ▸ h) (fun hy => by cases hy)
      fun hy => by cases hy

/-- A thread that waits after an unlock without a broadcast has waited before. -/
lemma place_of_waits {l : Rwlock} {u : T} {x : Place}
    (hu : ((s.leave t (l, .idle)).broadcast false).place u = x) (hx : .idle ≠ x) :
    s.place u = x := by
  by_cases hut : u = t
  · subst hut
    simp only [Monitor.broadcast, Bool.false_eq_true, if_false, place_leave_self] at hu
    exact absurd hu hx
  · simpa [Monitor.broadcast, place_leave_of_ne s _ hut] using hu

/-- Every section leaves a reason to those who sleep. -/
lemma Awake.step [Fintype T] (ha : Awake s) (hi : Inv s) (hstep : Step s s') : Awake s' := by
  cases hstep with
  | rdlock t h => exact ha.rdlockLoop rfl (Nat.le_succ _)
  | rdwake t b h => exact ha.rdlockLoop rfl le_rfl
  | wrlock t h => exact ha.wrlockLoop rfl rfl
  | wrwake t b h => exact ha.wrlockLoop rfl rfl
  | unrdlock t h =>
    cases hb : s.lock.unrdlock.unrdlockBroadcasts with
    | true => exact awake_broadcast _
    | false =>
      have hno : ¬(s.lock.unrdlock.readQueueLen = 0 ∧ 0 < s.lock.unrdlock.tobeWriteQueueLen) := by
        simpa [Rwlock.unrdlockBroadcasts] using hb
      constructor
      · intro u hu
        exact ha.reader u (place_of_waits hu (by simp))
      · intro u hu
        have hu' := place_of_waits hu (by simp)
        have hpos : 0 < s.lock.unrdlock.tobeWriteQueueLen :=
          hi.tobe_pos (t := u) (by rw [hu']; trivial)
        exact Or.inl (Nat.pos_of_ne_zero fun hzero => hno ⟨hzero, hpos⟩)
  | unwrlock t h =>
    cases hb : s.lock.unwrlock.unwrlockBroadcasts with
    | true => exact awake_broadcast _
    | false =>
      have hno : ¬(0 < s.lock.unwrlock.readQueueLen ∨ 0 < s.lock.unwrlock.tobeWriteQueueLen) := by
        simpa [Rwlock.unwrlockBroadcasts] using hb
      constructor
      · intro u hu
        have hu' := place_of_waits hu (by simp)
        exact absurd (Or.inl (hi.read_pos (t := u) (by rw [hu']; trivial))) hno
      · intro u hu
        have hu' := place_of_waits hu (by simp)
        exact absurd (Or.inr (hi.tobe_pos (t := u) (by rw [hu']; trivial))) hno

/-- In every reachable state those who sleep have a reason to. -/
lemma Reachable.awake [Fintype T] (hr : Reachable s) : Awake s := by
  induction hr with
  | refl =>
    constructor
    · intro t ht
      cases ht
    · intro t ht
      cases ht
  | tail hprev hstep ih => exact ih.step (Reachable.inv hprev) hstep

omit [DecidableEq T] in
/-- A writer that is counted is there. -/
lemma Inv.exists_writing [Fintype T] (hi : Inv s) (hpos : 0 < s.lock.writeQueueLen) :
    ∃ u, s.place u = .writing := by
  by_contra hnone
  push Not at hnone
  rw [hi.write, census_eq_zero hnone] at hpos
  exact absurd hpos (lt_irrefl 0)

omit [DecidableEq T] in
/-- A reader that is counted holds the lock or waits for it. -/
lemma Inv.exists_reads [Fintype T] (hi : Inv s) (hpos : 0 < s.lock.readQueueLen) :
    ∃ u, (s.place u).Reads := by
  by_contra hnone
  push Not at hnone
  rw [hi.read, census_eq_zero hnone] at hpos
  exact absurd hpos (lt_irrefl 0)

end Monitor

/-- No wake-up is lost.  In no reachable state does nobody hold the lock while some thread waits for
it and all those who wait sleep without having been notified; and a reader sleeps without having
been notified only while a writer holds the lock. -/
theorem rwlock_no_lost_wakeup {T : Type} [Fintype T] [DecidableEq T] {s : Monitor T}
    (hr : s.Reachable) :
    ¬((∀ t, s.place t ≠ .reading ∧ s.place t ≠ .writing) ∧
      (∃ t b, s.place t = .readWait b ∨ s.place t = .writeWait b) ∧
      ∀ t b, s.place t = .readWait b ∨ s.place t = .writeWait b → b = false) ∧
    ∀ t, s.place t = .readWait false → ∃ u, s.place u = .writing := by
  have hi := hr.inv
  have ha := hr.awake
  have hreader : ∀ t, s.place t = .readWait false → ∃ u, s.place u = .writing := fun t ht =>
    hi.exists_writing (ha.reader t ht)
  refine ⟨?_, hreader⟩
  rintro ⟨hfree, ⟨t, b, ht⟩, hasleep⟩
  obtain rfl := hasleep t b ht
  have hnoreader : ∀ u, s.place u ≠ .readWait false := by
    intro u hu
    obtain ⟨v, hv⟩ := hreader u hu
    exact (hfree v).2 hv
  rcases ht with ht | ht
  · exact hnoreader t ht
  · rcases ha.writer t ht with hread | hwrite
    · -- whoever is counted as a reader waits, and would have been notified
      obtain ⟨u, hu⟩ := hi.exists_reads hread
      cases hp : s.place u with
      | idle => rw [hp] at hu; exact hu
      | reading => exact (hfree u).1 hp
      | writeWait b => rw [hp] at hu; exact hu
      | writing => exact (hfree u).2 hp
      | readWait b =>
        obtain rfl := hasleep u b (Or.inl hp)
        exact hnoreader u hp
    · obtain ⟨u, hu⟩ := hi.exists_writing hwrite
      exact (hfree u).2 hu

/-- One thread has the lock for writing, and another one sleeps in `rwlock_rdlock`. -/
theorem rwlock_no_lost_wakeup_sleeping_reader :
    ∃ s : Monitor Bool, s.Reachable ∧ s.place false = .readWait false ∧
      ∃ u, s.place u = .writing := by
  have h₁ := Monitor.Step.wrlock (s := Monitor.init) true rfl
  have h₂ := Monitor.Step.rdlock (s := Monitor.init.leave true Rwlock.build.wrlock.wrlockLoop) false
    (by decide)
  have hr := (Relation.ReflTransGen.single h₁).tail h₂
  exact ⟨_, hr, by decide, (rwlock_no_lost_wakeup hr).2 false (by decide)⟩

end Linglongta
