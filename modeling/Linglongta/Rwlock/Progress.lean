import Linglongta.Rwlock

/-!
# Who waits for how long

`rwlock.h` calls the lock one "with priority for read".  `rwlock_read_priority` is what this means
for a run of the monitor: while a thread reads or waits to read, no thread begins to write, so a
reader waits for the one writer it has found at its arrival and for no other.

The other side is that nobody waits for ever when no thread asks anew.  `Monitor.Drain` is a step
of a thread that holds the lock and gives it back, or of a thread that wakes up because it has been
notified.  Every such step lowers a measure (`Drain.measure_lt`), and as long as some thread uses
the lock there is such a step (`exists_drain`): `rwlock_drains` concludes that every thread that
waits gets the lock after a bounded number of steps.
-/

namespace Linglongta

open Census

namespace Monitor

variable {T : Type} [DecidableEq T] {s s' : Monitor T} {t u : T}

/-! ## Priority for read -/

omit [DecidableEq T] in
/-- A broadcast does not make anybody write. -/
lemma writing_of_broadcast {b : Bool} (h : (s.broadcast b).place u = .writing) :
    s.place u = .writing := by
  cases b with
  | false => exact h
  | true => exact (Place.notify_eq_writing _).1 h

/-- The thread that leaves a section is the only one that may have begun to write. -/
lemma writing_of_leave {r : Rwlock × Place} (h : (s.leave t r).place u = .writing)
    (hr : r.2 ≠ .writing) : s.place u = .writing := by
  by_cases hut : u = t
  · rw [hut, place_leave_self] at h
    exact absurd h hr
  · rwa [place_leave_of_ne s _ hut] at h

lemma rdlockLoop_ne_writing (l : Rwlock) : l.rdlockLoop ≠ .writing := by
  unfold Rwlock.rdlockLoop
  split <;> simp

/-- The loop of `rwlock_wrlock` lets nobody pass while a reader is counted. -/
lemma wrlockLoop_ne_writing {l : Rwlock} (h : 0 < l.readQueueLen) :
    l.wrlockLoop.2 ≠ .writing := by
  rw [Rwlock.wrlockLoop, if_pos (Or.inl h)]
  simp

/-- While a thread reads or waits to read, a step does not let a writer in. -/
lemma Step.writing_of_reads [Fintype T] (hstep : Step s s') (hi : Inv s)
    (ht : (s.place t).Reads) (hu : s'.place u = .writing) : s.place u = .writing := by
  have hpos := hi.read_pos ht
  cases hstep with
  | rdlock v h => exact writing_of_leave hu (rdlockLoop_ne_writing _)
  | rdwake v b h => exact writing_of_leave hu (rdlockLoop_ne_writing _)
  | unrdlock v h => exact writing_of_leave (writing_of_broadcast hu) (by simp)
  | wrlock v h => exact writing_of_leave hu (wrlockLoop_ne_writing hpos)
  | wrwake v b h => exact writing_of_leave hu (wrlockLoop_ne_writing hpos)
  | unwrlock v h => exact writing_of_leave (writing_of_broadcast hu) (by simp)

/-- A run from a reachable state stays within the reachable states. -/
lemma Reachable.run {run : ℕ → Monitor T} {n : ℕ} (hr : (run 0).Reachable)
    (hrun : ∀ i < n, Step (run i) (run (i + 1))) : ∀ i ≤ n, (run i).Reachable := by
  intro i hi
  induction i with
  | zero => exact hr
  | succ i ih => exact Relation.ReflTransGen.tail (ih (by omega)) (hrun i (by omega))

/-- Whoever writes in a run during which a thread reads or waits to read has been writing since
the beginning of the run. -/
lemma writing_since [Fintype T] {run : ℕ → Monitor T} {n : ℕ} (hr : (run 0).Reachable)
    (hrun : ∀ i < n, Step (run i) (run (i + 1))) (ht : ∀ i < n, ((run i).place t).Reads)
    (hu : (run n).place u = .writing) : ∀ j ≤ n, (run j).place u = .writing := by
  induction n with
  | zero =>
    intro j hj
    obtain rfl : j = 0 := by omega
    exact hu
  | succ n ih =>
    have hinv := (hr.run (fun i hi => hrun i (by omega)) n le_rfl).inv
    have hn := (hrun n (by omega)).writing_of_reads hinv (ht n (by omega)) hu
    intro j hj
    rcases Nat.lt_or_ge n j with hlt | hge
    · obtain rfl : j = n + 1 := by omega
      exact hu
    · exact ih (fun i hi => hrun i (by omega)) (fun i hi => ht i (by omega)) hn j hge

end Monitor

/-- The lock gives priority to readers.  In a run during which a thread reads or waits to read, no
thread begins to write; and at its end the thread reads, or it waits for the writer that has held
the lock since the beginning of the run, or it has been notified and reads when it wakes up. -/
theorem rwlock_read_priority {T : Type} [Fintype T] [DecidableEq T] {run : ℕ → Monitor T} {n : ℕ}
    {t : T} (hr : (run 0).Reachable) (hrun : ∀ i < n, (run i).Step (run (i + 1)))
    (ht : ∀ i ≤ n, ((run i).place t).Reads) :
    (∀ u, (run n).place u = .writing → ∀ j ≤ n, (run j).place u = .writing) ∧
    ((run n).place t = .reading ∨ (∃ u, ∀ j ≤ n, (run j).place u = .writing) ∨
      (run n).place t = .readWait true ∧ (run n).lock.rdlockLoop = .reading) := by
  have hsince : ∀ u, (run n).place u = .writing → ∀ j ≤ n, (run j).place u = .writing := fun u =>
    Monitor.writing_since hr hrun fun i hi => ht i (by omega)
  refine ⟨hsince, ?_⟩
  have hlast := hr.run hrun n le_rfl
  by_cases hw : 0 < (run n).lock.writeQueueLen
  · obtain ⟨u, hu⟩ := hlast.inv.exists_writing hw
    exact Or.inr (Or.inl ⟨u, hsince u hu⟩)
  · have hreads := ht n le_rfl
    cases hp : (run n).place t with
    | idle => rw [hp] at hreads; exact absurd hreads id
    | reading => exact Or.inl rfl
    | writeWait b => rw [hp] at hreads; exact absurd hreads id
    | writing => rw [hp] at hreads; exact absurd hreads id
    | readWait b =>
      cases b with
      | false => exact absurd (hlast.awake.reader t hp) hw
      | true => exact Or.inr (Or.inr ⟨rfl, by rw [Rwlock.rdlockLoop, if_neg hw]⟩)

/-- The thread `true` writes and the thread `false` sleeps in `rwlock_rdlock`. -/
def sleepingReader : Monitor Bool :=
  (Monitor.init.leave true Rwlock.build.wrlock.wrlockLoop).leave false
    (Rwlock.build.wrlock.wrlockLoop.1.rdlock, Rwlock.build.wrlock.wrlockLoop.1.rdlock.rdlockLoop)

lemma sleepingReader_reachable : sleepingReader.Reachable :=
  (Relation.ReflTransGen.single (.wrlock (s := Monitor.init) true rfl)).tail
    (.rdlock (s := Monitor.init.leave true Rwlock.build.wrlock.wrlockLoop) false (by decide))

/-- The writer has given the lock back, and the reader has been notified. -/
def wokenReader : Monitor Bool :=
  (sleepingReader.leave true (sleepingReader.lock.unwrlock, .idle)).broadcast
    sleepingReader.lock.unwrlock.unwrlockBroadcasts

lemma sleepingReader_step : sleepingReader.Step wokenReader := .unwrlock true (by decide)

/-- The reader that has slept until the writer was done reads when it wakes up. -/
theorem rwlock_read_priority_after_writer :
    sleepingReader.place false = .readWait false ∧ wokenReader.place true = .idle ∧
      (wokenReader.place false = .reading ∨
        wokenReader.place false = .readWait true ∧ wokenReader.lock.rdlockLoop = .reading) := by
  refine ⟨by decide, by decide, ?_⟩
  let run : ℕ → Monitor Bool := fun i => if i = 0 then sleepingReader else wokenReader
  have hstep : ∀ i < 1, (run i).Step (run (i + 1)) := by
    intro i hi
    rw [Nat.lt_one_iff.1 hi]
    exact sleepingReader_step
  have hreach : (run 0).Reachable := sleepingReader_reachable
  obtain ⟨-, hread | ⟨u, hu⟩ | hwait⟩ := rwlock_read_priority (t := false) hreach hstep (by decide)
  · exact Or.inl hread
  · exact absurd (hu 1 le_rfl) (by revert u; decide)
  · exact Or.inr hwait

/-! ## Every waiting thread is served -/

namespace Monitor

variable {T : Type} [DecidableEq T] {s s' : Monitor T} {t u : T}

/-- A step in which no thread asks for the lock anew and no thread wakes up unless it has been
notified. -/
inductive Drain (s : Monitor T) : Monitor T → Prop
  /-- A reader gives the lock back. -/
  | unrdlock (t : T) (h : s.place t = .reading) :
      Drain s ((s.leave t (s.lock.unrdlock, .idle)).broadcast s.lock.unrdlock.unrdlockBroadcasts)
  /-- A writer gives the lock back. -/
  | unwrlock (t : T) (h : s.place t = .writing) :
      Drain s ((s.leave t (s.lock.unwrlock, .idle)).broadcast s.lock.unwrlock.unwrlockBroadcasts)
  /-- A notified reader wakes up. -/
  | rdwake (t : T) (h : s.place t = .readWait true) :
      Drain s (s.leave t (s.lock, s.lock.rdlockLoop))
  /-- A notified writer wakes up. -/
  | wrwake (t : T) (h : s.place t = .writeWait true) :
      Drain s (s.leave t s.lock.wrlockLoop)

lemma Drain.step (h : Drain s s') : Step s s' := by
  cases h with
  | unrdlock t h => exact .unrdlock t h
  | unwrlock t h => exact .unwrlock t h
  | rdwake t h => exact .rdwake t true h
  | wrwake t h => exact .wrwake t true h

/-- What a thread at a place has still to do, for `n` threads: it gets the lock, it gives it back,
and in between it may be woken in vain once after each step that gives the lock back. -/
def cost (n : ℕ) : Place → ℕ
  | .idle => 0
  | .reading => n + 1
  | .writing => n + 1
  | .readWait b => 2 * (n + 1) + b.toNat
  | .writeWait b => 2 * (n + 1) + b.toNat

lemma cost_readWait (n : ℕ) (b : Bool) : cost n (.readWait b) = 2 * (n + 1) + b.toNat := rfl

lemma cost_writeWait (n : ℕ) (b : Bool) : cost n (.writeWait b) = 2 * (n + 1) + b.toNat := rfl

/-- What the threads have still to do. -/
def measure [Fintype T] (s : Monitor T) : ℕ := ∑ t, cost (Fintype.card T) (s.place t)

section measure

variable [Fintype T]

/-- What the end of a section does to the measure. -/
lemma measure_leave (s : Monitor T) (t : T) (r : Rwlock × Place) :
    (s.leave t r).measure + cost (Fintype.card T) (s.place t) =
      s.measure + cost (Fintype.card T) r.2 := by
  unfold measure
  rw [← Finset.add_sum_erase _ _ (Finset.mem_univ t),
    ← Finset.add_sum_erase _ (fun u => cost _ (s.place u)) (Finset.mem_univ t)]
  have hrest : ∑ u ∈ Finset.univ.erase t, cost (Fintype.card T) ((s.leave t r).place u) =
      ∑ u ∈ Finset.univ.erase t, cost (Fintype.card T) (s.place u) :=
    Finset.sum_congr rfl fun u hu => by rw [place_leave_of_ne s r (Finset.ne_of_mem_erase hu)]
  rw [hrest, place_leave_self]
  omega

omit [DecidableEq T] in
/-- A broadcast may wake each thread once more. -/
lemma measure_broadcast_le (s : Monitor T) (b : Bool) :
    (s.broadcast b).measure ≤ s.measure + Fintype.card T := by
  have hle : ∀ t, cost (Fintype.card T) ((s.broadcast b).place t) ≤
      cost (Fintype.card T) (s.place t) + 1 := by
    intro t
    cases b with
    | false => exact Nat.le_succ _
    | true =>
      simp only [broadcast, if_true]
      cases s.place t with
      | idle => simp [Place.notify, cost]
      | reading => simp [Place.notify, cost]
      | writing => simp [Place.notify, cost]
      | readWait b => cases b <;> simp [Place.notify, cost]
      | writeWait b => cases b <;> simp [Place.notify, cost]
  calc (s.broadcast b).measure
      ≤ ∑ t, (cost (Fintype.card T) (s.place t) + 1) := Finset.sum_le_sum fun t _ => hle t
    _ = s.measure + Fintype.card T := by
        rw [Finset.sum_add_distrib, Finset.sum_const, Finset.card_univ, smul_eq_mul, mul_one]
        rfl

omit [DecidableEq T] in
lemma measure_le (s : Monitor T) :
    s.measure ≤ Fintype.card T * (2 * (Fintype.card T + 1) + 1) := by
  have hle : ∀ t, cost (Fintype.card T) (s.place t) ≤ 2 * (Fintype.card T + 1) + 1 := by
    intro t
    cases s.place t with
    | idle => exact Nat.zero_le _
    | reading => simp only [cost]; omega
    | writing => simp only [cost]; omega
    | readWait b => cases b <;> simp [cost]
    | writeWait b => cases b <;> simp [cost]
  refine (Finset.sum_le_sum fun t _ => hle t).trans_eq ?_
  rw [Finset.sum_const, Finset.card_univ, smul_eq_mul]

/-- Every such step lowers the measure. -/
lemma Drain.measure_lt (h : Drain s s') : s'.measure < s.measure := by
  cases h with
  | unrdlock t h =>
    have hleave := measure_leave s t (s.lock.unrdlock, .idle)
    have hle := measure_broadcast_le (s.leave t (s.lock.unrdlock, .idle))
      s.lock.unrdlock.unrdlockBroadcasts
    simp only [h, cost] at hleave
    omega
  | unwrlock t h =>
    have hleave := measure_leave s t (s.lock.unwrlock, .idle)
    have hle := measure_broadcast_le (s.leave t (s.lock.unwrlock, .idle))
      s.lock.unwrlock.unwrlockBroadcasts
    simp only [h, cost] at hleave
    omega
  | rdwake t h =>
    have hleave := measure_leave s t (s.lock, s.lock.rdlockLoop)
    have hcost : cost (Fintype.card T) s.lock.rdlockLoop ≤ 2 * (Fintype.card T + 1) := by
      unfold Rwlock.rdlockLoop
      split <;> simp only [cost, Bool.toNat_false] <;> omega
    rw [h] at hleave
    simp only [cost_readWait, Bool.toNat_true] at hleave
    omega
  | wrwake t h =>
    have hleave := measure_leave s t s.lock.wrlockLoop
    have hcost : cost (Fintype.card T) s.lock.wrlockLoop.2 ≤ 2 * (Fintype.card T + 1) := by
      unfold Rwlock.wrlockLoop
      split <;> simp only [cost, Bool.toNat_false] <;> omega
    rw [h] at hleave
    simp only [cost_writeWait, Bool.toNat_true] at hleave
    omega

/-- While some thread uses the lock, one of them can go on. -/
lemma exists_drain (hi : Inv s) (ha : Awake s) (ht : s.place t ≠ .idle) : ∃ s', Drain s s' := by
  by_cases hhold : ∃ u, s.place u = .reading ∨ s.place u = .writing
  · obtain ⟨u, hu | hu⟩ := hhold
    · exact ⟨_, .unrdlock u hu⟩
    · exact ⟨_, .unwrlock u hu⟩
  · push Not at hhold
    have hnowriter : ¬0 < s.lock.writeQueueLen := by
      intro hpos
      obtain ⟨u, hu⟩ := hi.exists_writing hpos
      exact (hhold u).2 hu
    -- whoever waits to read has been notified, since no writer holds the lock
    have hreader : ∀ u, (s.place u).Reads → ∃ s', Drain s s' := by
      intro u hu
      cases hp : s.place u with
      | readWait b =>
        cases b with
        | true => exact ⟨_, .rdwake u hp⟩
        | false => exact absurd (ha.reader u hp) hnowriter
      | reading => exact absurd hp (hhold u).1
      | idle => rw [hp] at hu; exact absurd hu id
      | writeWait b => rw [hp] at hu; exact absurd hu id
      | writing => exact absurd hp (hhold u).2
    cases hp : s.place t with
    | idle => exact absurd hp ht
    | reading => exact absurd hp (hhold t).1
    | writing => exact absurd hp (hhold t).2
    | readWait b => exact hreader t (by rw [hp]; trivial)
    | writeWait b =>
      cases b with
      | true => exact ⟨_, .wrwake t hp⟩
      | false =>
        rcases ha.writer t hp with hread | hwrite
        · obtain ⟨u, hu⟩ := hi.exists_reads hread
          exact hreader u hu
        · exact absurd hwrite hnowriter

end measure

/-- What one step does to the place of one thread: nothing but a broadcast unless it is the thread
whose step it is. -/
lemma Drain.place_cases (h : Drain s s') (u : T) :
    s'.place u = s.place u ∨ s'.place u = (s.place u).notify ∨
    (s.place u = .reading ∨ s.place u = .writing) ∧ s'.place u = .idle ∨
    s.place u = .readWait true ∧ (s'.place u = .reading ∨ s'.place u = .readWait false) ∨
    s.place u = .writeWait true ∧ (s'.place u = .writing ∨ s'.place u = .writeWait false) := by
  have hunlock : ∀ (t : T) (l : Rwlock) (b : Bool), s.place t = .reading ∨ s.place t = .writing →
      ((s.leave t (l, .idle)).broadcast b).place u = s.place u ∨
      ((s.leave t (l, .idle)).broadcast b).place u = (s.place u).notify ∨
      (s.place u = .reading ∨ s.place u = .writing) ∧
        ((s.leave t (l, .idle)).broadcast b).place u = .idle := by
    intro t l b ht
    by_cases hut : u = t
    · subst hut
      exact Or.inr (Or.inr ⟨ht, by cases b <;> simp [broadcast, Place.notify]⟩)
    · cases b with
      | false => exact Or.inl (place_leave_of_ne s _ hut)
      | true => exact Or.inr (Or.inl (by simp [broadcast, place_leave_of_ne s _ hut]))
  cases h with
  | unrdlock t h =>
    rcases hunlock t _ _ (Or.inl h) with h | h | h
    · exact Or.inl h
    · exact Or.inr (Or.inl h)
    · exact Or.inr (Or.inr (Or.inl h))
  | unwrlock t h =>
    rcases hunlock t _ _ (Or.inr h) with h | h | h
    · exact Or.inl h
    · exact Or.inr (Or.inl h)
    · exact Or.inr (Or.inr (Or.inl h))
  | rdwake t h =>
    by_cases hut : u = t
    · rw [hut, place_leave_self, Rwlock.rdlockLoop]
      refine Or.inr (Or.inr (Or.inr (Or.inl ⟨h, ?_⟩)))
      split
      · exact Or.inr rfl
      · exact Or.inl rfl
    · exact Or.inl (place_leave_of_ne s _ hut)
  | wrwake t h =>
    by_cases hut : u = t
    · rw [hut, place_leave_self, Rwlock.wrlockLoop]
      refine Or.inr (Or.inr (Or.inr (Or.inr ⟨h, ?_⟩)))
      split
      · exact Or.inr rfl
      · exact Or.inl rfl
    · exact Or.inl (place_leave_of_ne s _ hut)

/-- The place of a thread that waits for one of the two uses. -/
def waiting (write : Bool) (b : Bool) : Place := if write then .writeWait b else .readWait b

/-- The place of a thread that has got the lock for one of the two uses. -/
def holding (write : Bool) : Place := if write then .writing else .reading

/-- A thread that waits goes on waiting or gets the lock for the use it has asked for. -/
lemma Drain.waiting (h : Drain s s') {write b : Bool} (hu : s.place u = Monitor.waiting write b) :
    s'.place u = holding write ∨ ∃ b', s'.place u = Monitor.waiting write b' := by
  rcases h.place_cases u with hp | hp | ⟨hhold, -⟩ | ⟨hwait, hp⟩ | ⟨hwait, hp⟩
  · exact Or.inr ⟨b, hp.trans hu⟩
  · refine Or.inr ⟨true, ?_⟩
    rw [hp, hu]
    cases write <;> rfl
  · cases write <;> simp [hu, Monitor.waiting] at hhold
  · cases write with
    | false => exact hp.imp id fun hp => ⟨false, hp⟩
    | true => simp [hu, Monitor.waiting] at hwait
  · cases write with
    | false => simp [hu, Monitor.waiting] at hwait
    | true => exact hp.imp id fun hp => ⟨false, hp⟩

variable {run : ℕ → Monitor T} {n : ℕ}

/-- A thread that waits at the beginning of a run has got the lock, or waits at its end. -/
lemma held_or_waiting (hrun : ∀ i < n, Drain (run i) (run (i + 1))) {write b : Bool}
    (ht : (run 0).place t = Monitor.waiting write b) :
    (∃ i ≤ n, (run i).place t = holding write) ∨
      ∃ b', (run n).place t = Monitor.waiting write b' := by
  induction n with
  | zero => exact Or.inr ⟨b, ht⟩
  | succ n ih =>
    rcases ih fun i hi => hrun i (by omega) with ⟨i, hi, hheld⟩ | ⟨b', hwait⟩
    · exact Or.inl ⟨i, by omega, hheld⟩
    · exact ((hrun n (by omega)).waiting hwait).imp (fun h => ⟨n + 1, le_rfl, h⟩) id

/-- Each step of a run has lowered the measure. -/
lemma measure_run_le [Fintype T] (hrun : ∀ i < n, Drain (run i) (run (i + 1))) :
    (run n).measure + n ≤ (run 0).measure := by
  induction n with
  | zero => exact le_rfl
  | succ n ih =>
    have hle := ih fun i hi => hrun i (by omega)
    have hlt := (hrun n (by omega)).measure_lt
    omega

end Monitor

/-- Nobody waits for ever.  From every reachable state, a run of `n` steps in which no thread asks
for the lock anew and threads wake up only when they have been notified is bounded in terms of the
number of threads; and when such a run cannot go on, nobody uses the lock any more and every thread
that had waited has held the lock for the use it asked for. -/
theorem rwlock_drains {T : Type} [Fintype T] [DecidableEq T] {run : ℕ → Monitor T} {n : ℕ}
    (hr : (run 0).Reachable) (hrun : ∀ i < n, (run i).Drain (run (i + 1))) :
    n ≤ Fintype.card T * (2 * (Fintype.card T + 1) + 1) ∧
    ((∀ s, ¬(run n).Drain s) → ∀ t, (run n).place t = .idle ∧
      (∀ b, (run 0).place t = .readWait b → ∃ i ≤ n, (run i).place t = .reading) ∧
      ∀ b, (run 0).place t = .writeWait b → ∃ i ≤ n, (run i).place t = .writing) := by
  have hmeasure := Monitor.measure_run_le hrun
  have hbound := (run 0).measure_le
  refine ⟨by omega, fun hstuck t => ?_⟩
  have hlast := hr.run (fun i hi => (hrun i hi).step) n le_rfl
  have hidle : (run n).place t = .idle := by
    by_contra hne
    obtain ⟨s, hs⟩ := Monitor.exists_drain hlast.inv hlast.awake hne
    exact hstuck s hs
  have hserved : ∀ write b, (run 0).place t = Monitor.waiting write b →
      ∃ i ≤ n, (run i).place t = Monitor.holding write := by
    intro write b ht
    rcases Monitor.held_or_waiting hrun ht with hheld | ⟨b', hwait⟩
    · exact hheld
    · rw [hidle] at hwait
      cases write <;> cases hwait
  exact ⟨hidle, hserved false, hserved true⟩

/-- The run in which the writer is done, the reader wakes up, reads and is done. -/
def readerRun : ℕ → Monitor Bool
  | 0 => sleepingReader
  | 1 => wokenReader
  | 2 => wokenReader.leave false (wokenReader.lock, wokenReader.lock.rdlockLoop)
  | _ => ((wokenReader.leave false (wokenReader.lock, wokenReader.lock.rdlockLoop)).leave false
      (wokenReader.lock.unrdlock, .idle)).broadcast wokenReader.lock.unrdlock.unrdlockBroadcasts

lemma readerRun_drain : ∀ i < 3, (readerRun i).Drain (readerRun (i + 1))
  | 0, _ => .unwrlock (s := sleepingReader) true (by decide)
  | 1, _ => .rdwake (s := wokenReader) false (by decide)
  | 2, _ => .unrdlock (s := readerRun 2) false (by decide)

/-- The reader of this run has held the lock. -/
theorem rwlock_drains_reader :
    (readerRun 0).place false = .readWait false ∧
      ∃ i ≤ 3, (readerRun i).place false = .reading := by
  have hidle : ∀ t, (readerRun 3).place t = .idle := by decide
  have hstuck : ∀ s, ¬(readerRun 3).Drain s := by
    rintro s (⟨t, h⟩ | ⟨t, h⟩ | ⟨t, h⟩ | ⟨t, h⟩) <;> simp [hidle t] at h
  have hserved := (rwlock_drains sleepingReader_reachable readerRun_drain).2 hstuck false
  exact ⟨by decide, hserved.2.1 false (by decide)⟩

end Linglongta
