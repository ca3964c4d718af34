import Linglongta.Server.Dispatch
import Linglongta.Server.Rounds

/-!
# Who owns a task

A task that has been accepted is watched by the assign loop, in the pipe of a worker, in processing
or destroyed.  `Server.Inv` says that it is in exactly one of these stages, and that what the
threads have done so far agrees with them: a task that has been destroyed is not in memory any more,
and a task that has been dispatched is not watched any more.  Each function of `Server` keeps the
invariant under the conditions in which the steps call it, and `Server.single_ownership` is what
follows for every state that can be reached.
-/

namespace Linglongta

namespace Server

/-! ## Stages -/

/-- Where a task can be. -/
inductive Stage
  /-- The assign loop watches it. -/
  | watched
  /-- It is in the pipe of a worker. -/
  | queued (i : ℕ)
  /-- A worker is processing it. -/
  | processing (i : ℕ)
  /-- It has been destroyed. -/
  | destroyed
deriving DecidableEq

/-- A task is in this stage. -/
def At (s : Server) (id : ℕ) : Stage → Prop
  | .watched => s.ioActive id = true
  | .queued i => id ∈ s.pipes i
  | .processing i => s.workers i = some id
  | .destroyed => id < s.accepted ∧ s.heap id = none

/-- A task is in this stage and in no other. -/
def Located (s : Server) (id : ℕ) (p : Stage) : Prop :=
  ∀ q, s.At id q ↔ q = p

/-- A stage that involves only the first `n` workers. -/
def Stage.Valid (n : ℕ) : Stage → Prop
  | .watched => True
  | .queued i => i < n
  | .processing i => i < n
  | .destroyed => True

/-- What may come later: after a task has been destroyed nobody touches it, and after it has been
dispatched the assign thread does not. -/
def Before (e e' : Access) : Prop :=
  e.task = e'.task → e.destroyed = none ∧ (e.dispatched ≠ none → e'.actor ≠ .assign)

/-- The tasks that have been dispatched, with their workers. -/
def dispatches (s : Server) : List (ℕ × ℕ) :=
  s.trace.filterMap Access.dispatched

/-- The tasks that have been destroyed. -/
def destructions (s : Server) : List ℕ :=
  s.trace.filterMap Access.destroyed

/-- The workers take turns. -/
structure Turns (n : ℕ) (s : Server) : Prop where
  /-- The worker whose turn it is, or the number of workers. -/
  lastFd : s.dispatches.length = 0 ∧ s.lastFd = 0 ∨
    ∃ k, s.dispatches.length = k + 1 ∧ s.lastFd = k % n + 1
  /-- The worker of each task. -/
  worker : ∀ k id w, s.dispatches[k]? = some (id, w) → w = k % n

/-- What has been done agrees with the memory and the watchers. -/
structure History (s : Server) : Prop where
  /-- Only tasks that have been accepted have been touched. -/
  known : ∀ e ∈ s.trace, e.task < s.accepted
  /-- What has been destroyed is not in memory. -/
  freed : ∀ e ∈ s.trace, e.destroyed ≠ none → s.heap e.task = none
  /-- What has been dispatched is not watched. -/
  left : ∀ e ∈ s.trace, e.dispatched ≠ none → s.ioActive e.task = false
  /-- Everything has been done in order. -/
  order : s.trace.Pairwise Before

/-- What holds in every state of the server. -/
structure Inv (n : ℕ) (s : Server) : Prop where
  /-- Each task that has been accepted is in one stage. -/
  located : ∀ id < s.accepted, ∃ p, s.Located id p
  /-- Only tasks that have been accepted are in a stage, and only the workers that exist take
  part. -/
  bounded : ∀ id p, s.At id p → id < s.accepted ∧ p.Valid n
  /-- Both watchers of a task are active, or none. -/
  watchers : ∀ id, s.timerActive id = s.ioActive id
  /-- No task is twice in a pipe. -/
  nodup : ∀ i, (s.pipes i).Nodup
  /-- The handler works on a task that is watched. -/
  handler : ∀ id, s.handler = some id → s.ioActive id = true
  /-- A task that is watched is sound, and quiet unless the handler works on it. -/
  sound : ∀ id t, s.heap id = some t → s.ioActive id = true →
    TaskOk t ∧ (s.handler ≠ some id → Quiet t)
  /-- What has been done so far. -/
  history : s.History
  /-- The workers have taken turns. -/
  turns : s.Turns n

section Stages

variable {n : ℕ} {s s' : Server} {id : ℕ} {p : Stage}

/-- The stage of a task is the one it is in. -/
lemma Inv.located_of_at (h : s.Inv n) (hp : s.At id p) : s.Located id p := by
  obtain ⟨q, hq⟩ := h.located id (h.bounded id p hp).1
  obtain rfl := (hq p).1 hp
  exact hq

/-- A task that is not destroyed is in memory. -/
lemma Inv.live (h : s.Inv n) (hp : s.At id p) (hne : p ≠ .destroyed) : ∃ t, s.heap id = some t := by
  rcases hheap : s.heap id with _ | t
  · have hid := (h.bounded id p hp).1
    exact absurd ((h.located_of_at hp .destroyed).1 ⟨hid, hheap⟩).symm hne
  · exact ⟨t, rfl⟩

/-- One task comes into a stage, and the others stay where they are. -/
lemma Inv.move (h : s.Inv n) (hself : s'.Located id p) (hvalid : p.Valid n)
    (hframe : ∀ id', id' ≠ id → ∀ q, s'.At id' q ↔ s.At id' q) (hid : id < s'.accepted)
    (haccepted : ∀ id', id' ≠ id → (id' < s'.accepted ↔ id' < s.accepted)) :
    (∀ id' < s'.accepted, ∃ q, s'.Located id' q) ∧
      ∀ id' q, s'.At id' q → id' < s'.accepted ∧ q.Valid n := by
  refine ⟨fun id' hid' => ?_, fun id' q hq => ?_⟩
  · by_cases heq : id' = id
    · exact ⟨p, heq ▸ hself⟩
    · obtain ⟨q, hq⟩ := h.located id' ((haccepted id' heq).1 hid')
      exact ⟨q, fun r => (hframe id' heq r).trans (hq r)⟩
  · by_cases heq : id' = id
    · subst heq
      obtain rfl := (hself q).1 hq
      exact ⟨hid, hvalid⟩
    · obtain ⟨hlt, hq'⟩ := h.bounded id' q ((hframe id' heq q).1 hq)
      exact ⟨(haccepted id' heq).2 hlt, hq'⟩

end Stages

/-! ## The trace -/

section Traces

variable {n : ℕ} {s s' : Server} {e : Access}

/-- A thread may do something with a task that is in memory, the assign thread only if it is
watched. -/
lemma History.before (h : s.History) (hlive : s.heap e.task ≠ none)
    (hassign : e.actor = .assign → s.ioActive e.task = true) : ∀ a ∈ s.trace, Before a e := by
  intro a ha htask
  constructor
  · by_contra hdestroyed
    exact hlive (htask ▸ h.freed a ha hdestroyed)
  · intro hdispatched hactor
    have hleft := h.left a ha hdispatched
    rw [htask, hassign hactor] at hleft
    cases hleft

/-- A thread may do something with a task that nobody has touched. -/
lemma History.before_of_accepted (h : s.History) (hnew : s.accepted ≤ e.task) :
    ∀ a ∈ s.trace, Before a e := by
  intro a ha htask
  have hknown := h.known a ha
  omega

/-- Something is done with a task, and of the others none comes back into memory and none is watched
again. -/
lemma History.append (h : s.History) (htrace : s'.trace = s.trace ++ [e])
    (hbefore : ∀ a ∈ s.trace, Before a e) (haccepted : s.accepted ≤ s'.accepted)
    (hknown : e.task < s'.accepted) (hheap : ∀ id < s.accepted, s.heap id = none → s'.heap id = none)
    (hactive : ∀ id < s.accepted, s.ioActive id = false → s'.ioActive id = false)
    (hfreed : e.destroyed ≠ none → s'.heap e.task = none)
    (hleft : e.dispatched ≠ none → s'.ioActive e.task = false) : s'.History where
  known := by
    intro a ha
    rw [htrace, List.mem_append, List.mem_singleton] at ha
    rcases ha with ha | rfl
    · exact (h.known a ha).trans_le haccepted
    · exact hknown
  freed := by
    intro a ha hdestroyed
    rw [htrace, List.mem_append, List.mem_singleton] at ha
    rcases ha with ha | rfl
    · exact hheap _ (h.known a ha) (h.freed a ha hdestroyed)
    · exact hfreed hdestroyed
  left := by
    intro a ha hdispatched
    rw [htrace, List.mem_append, List.mem_singleton] at ha
    rcases ha with ha | rfl
    · exact hactive _ (h.known a ha) (h.left a ha hdispatched)
    · exact hleft hdispatched
  order := by
    rw [htrace]
    refine List.pairwise_append.2 ⟨h.order, List.pairwise_singleton _ _, ?_⟩
    intro a ha b hb
    rw [List.mem_singleton.1 hb]
    exact hbefore a ha

/-- What is not a dispatch is nobody's turn. -/
lemma Turns.append (h : s.Turns n) (htrace : s'.trace = s.trace ++ [e]) (hlast : s'.lastFd = s.lastFd)
    (hother : e.dispatched = none) : s'.Turns n := by
  have hsame : s'.dispatches = s.dispatches := by
    simp [dispatches, htrace, hother]
  constructor
  · rw [hsame, hlast]
    exact h.lastFd
  · rw [hsame]
    exact h.worker

/-- The next dispatch goes to the worker whose turn it is. -/
lemma Turns.dispatch (h : s.Turns n) (hn : 1 ≤ n) {id w : ℕ}
    (hw : w = if n ≤ s.lastFd then 0 else s.lastFd)
    (htrace : s'.trace = s.trace ++ [.dispatch id w]) (hlast : s'.lastFd = w + 1) : s'.Turns n := by
  have hmore : s'.dispatches = s.dispatches ++ [(id, w)] := by
    simp [dispatches, htrace, Access.dispatched]
  -- the counter is behind the worker of the last dispatch, and is reset behind the last worker
  have hturn : w = s.dispatches.length % n := by
    rcases h.lastFd with ⟨hlen, hzero⟩ | ⟨k, hlen, hk⟩
    · rw [hw, hzero, hlen]
      simp
    · have hlt : k % n < n := Nat.mod_lt k hn
      rw [hw, hk, hlen, ← Nat.mod_add_mod]
      split
      · have hlast : k % n + 1 = n := by omega
        rw [hlast, Nat.mod_self]
      · exact (Nat.mod_eq_of_lt (by omega)).symm
  constructor
  · right
    refine ⟨s.dispatches.length, ?_, ?_⟩
    · rw [hmore, List.length_append, List.length_singleton]
    · rw [hlast, hturn]
  · intro k id' w' hk
    rw [hmore, List.getElem?_append] at hk
    split at hk
    · exact h.worker k id' w' hk
    · have hzero : k - s.dispatches.length = 0 := by
        have hlt := (List.getElem?_eq_some_iff.1 hk).1
        simpa using hlt
      have hlen : k = s.dispatches.length := by omega
      rw [hzero] at hk
      obtain ⟨-, rfl⟩ := Prod.mk.inj (Option.some.inj hk)
      rw [hturn, hlen]

end Traces

/-! ## What the functions keep -/

section Functions

variable {n : ℕ} {s : Server} {id : ℕ}

/-- Touching a task keeps the invariant. -/
lemma Inv.touch (h : s.Inv n) {who : Actor} (hid : id < s.accepted) (hlive : s.heap id ≠ none)
    (hassign : who = .assign → s.ioActive id = true) : (s.touch who id).Inv n where
  located := h.located
  bounded := h.bounded
  watchers := h.watchers
  nodup := h.nodup
  handler := h.handler
  sound := h.sound
  history := h.history.append (e := .touch who id) rfl (h.history.before hlive hassign) le_rfl hid
    (fun _ _ hnone => hnone) (fun _ _ hfalse => hfalse) (absurd rfl) (absurd rfl)
  turns := h.turns.append (e := .touch who id) rfl rfl rfl

/-- The end of the process keeps the invariant. -/
lemma Inv.ended (h : s.Inv n) (b : Bool) : { s with ended := b }.Inv n where
  located := h.located
  bounded := h.bounded
  watchers := h.watchers
  nodup := h.nodup
  handler := h.handler
  sound := h.sound
  history := ⟨h.history.known, h.history.freed, h.history.left, h.history.order⟩
  turns := ⟨h.turns.lastFd, h.turns.worker⟩

/-- Accepting a connection keeps the invariant. -/
lemma Inv.accept (h : s.Inv n) (hidle : s.handler = none) : s.accept.Inv n := by
  have hfresh : ∀ p, ¬ s.At s.accepted p := fun p hp => lt_irrefl _ (h.bounded _ p hp).1
  have hself : s.accept.Located s.accepted .watched := by
    intro q
    cases q with
    | watched => simp [At, Server.accept]
    | queued i => simpa [At, Server.accept] using hfresh (.queued i)
    | processing i => simpa [At, Server.accept] using hfresh (.processing i)
    | destroyed => simp [At, Server.accept]
  have hframe : ∀ id', id' ≠ s.accepted → ∀ q, s.accept.At id' q ↔ s.At id' q := by
    intro id' hne q
    cases q with
    | watched => simp [At, Server.accept, hne]
    | queued i => rfl
    | processing i => rfl
    | destroyed =>
      simp only [At, Server.accept, Function.update_of_ne hne]
      refine and_congr_left fun _ => ?_
      omega
  have haccepted : ∀ id', id' ≠ s.accepted → (id' < s.accept.accepted ↔ id' < s.accepted) := by
    intro id' hne
    simp only [Server.accept]
    omega
  obtain ⟨hlocated, hbounded⟩ := h.move hself trivial hframe (Nat.lt_succ_self _) haccepted
  refine ⟨hlocated, hbounded, ?_, h.nodup, ?_, ?_, ?_, ?_⟩
  · intro id
    by_cases hid : id = s.accepted
    · simp [Server.accept, hid]
    · simpa [Server.accept, hid] using h.watchers id
  · intro id hid
    simp [Server.accept, hidle] at hid
  · intro id t hheap hactive
    by_cases hid : id = s.accepted
    · simp only [Server.accept, hid, Function.update_self, Option.some.injEq] at hheap
      subst hheap
      exact ⟨Conn.ok_accepted.1, fun _ => Conn.ok_accepted.2⟩
    · simp only [Server.accept, Function.update_of_ne hid] at hheap hactive
      exact h.sound id t hheap hactive
  · refine h.history.append (e := .touch .assign s.accepted) rfl
      (h.history.before_of_accepted le_rfl) (Nat.le_succ _) (Nat.lt_succ_self _) ?_ ?_
      (absurd rfl) (absurd rfl)
    · intro id hid hnone
      simpa [Server.accept, hid.ne] using hnone
    · intro id hid hfalse
      simpa [Server.accept, hid.ne] using hfalse
  · exact h.turns.append (e := .touch .assign s.accepted) rfl rfl rfl

/-- The handler leaves a task that is watched. -/
lemma Inv.keep (h : s.Inv n) (hactive : s.ioActive id = true)
    (hhandler : ∀ id', s.handler = some id' → id' = id) {needLoop : Bool} {t : QueryTask}
    (ht : TaskOk t) (hquiet : needLoop = false → Quiet t) : (s.keep id needLoop t).Inv n := by
  have hat : s.At id .watched := hactive
  obtain ⟨t₀, hlive⟩ := h.live hat (by simp)
  have hid := (h.bounded id .watched hat).1
  have hself : (s.keep id needLoop t).Located id .watched := by
    intro q
    have hq := h.located_of_at hat q
    cases q with
    | watched => exact hq
    | queued i => exact hq
    | processing i => exact hq
    | destroyed => simp [At, Server.keep]
  have hframe : ∀ id', id' ≠ id → ∀ q, (s.keep id needLoop t).At id' q ↔ s.At id' q := by
    intro id' hne q
    cases q with
    | watched => rfl
    | queued i => rfl
    | processing i => rfl
    | destroyed => simp [At, Server.keep, hne]
  obtain ⟨hlocated, hbounded⟩ := h.move hself trivial hframe hid fun _ _ => Iff.rfl
  refine ⟨hlocated, hbounded, h.watchers, h.nodup, ?_, ?_, ?_, ⟨h.turns.lastFd, h.turns.worker⟩⟩
  · intro id' hid'
    cases needLoop with
    | true =>
      obtain rfl := Option.some.inj hid'
      exact hactive
    | false => cases hid'
  · intro id' t' hheap hactive'
    by_cases hne : id' = id
    · simp only [Server.keep, hne, Function.update_self, Option.some.injEq] at hheap
      subst hheap
      refine ⟨ht, fun hnot => hquiet ?_⟩
      cases needLoop with
      | true => exact absurd (by simp [Server.keep, hne]) hnot
      | false => rfl
    · simp only [Server.keep, Function.update_of_ne hne] at hheap
      obtain ⟨hok, hquiet'⟩ := h.sound id' t' hheap hactive'
      exact ⟨hok, fun _ => hquiet' fun heq => hne (hhandler id' heq)⟩
  · refine ⟨h.history.known, ?_, h.history.left, h.history.order⟩
    intro e he hdestroyed
    have hfreed := h.history.freed e he hdestroyed
    have hne : e.task ≠ id := by
      intro heq
      rw [heq, hlive] at hfreed
      cases hfreed
    simpa [Server.keep, hne] using hfreed

/-- Dispatching a task that is watched keeps the invariant. -/
lemma Inv.dispatchQueryTask (h : s.Inv n) (hn : 1 ≤ n) (hactive : s.ioActive id = true)
    (hhandler : ∀ id', s.handler = some id' → id' = id) : (s.dispatchQueryTask n id).Inv n := by
  have hat : s.At id .watched := hactive
  obtain ⟨t₀, hlive⟩ := h.live hat (by simp)
  have hid := (h.bounded id .watched hat).1
  have hloc := h.located_of_at hat
  set w := if n ≤ s.lastFd then 0 else s.lastFd with hw
  have hwn : w < n := by
    rw [hw]
    split <;> omega
  have hpipe : ∀ i, id ∉ s.pipes i := fun i hmem => by simpa using (hloc (.queued i)).1 hmem
  have hpipes : (s.dispatchQueryTask n id).pipes =
      Function.update s.pipes w (s.pipes w ++ [id]) := rfl
  have hself : (s.dispatchQueryTask n id).Located id (.queued w) := by
    intro q
    cases q with
    | watched => simp [At, Server.dispatchQueryTask]
    | queued i =>
      simp only [At, hpipes, Stage.queued.injEq]
      by_cases hi : i = w
      · simp [hi]
      · simp [hi, hpipe i]
    | processing i =>
      have hq := hloc (.processing i)
      simpa [At, Server.dispatchQueryTask] using hq
    | destroyed => simp [At, Server.dispatchQueryTask, hlive]
  have hframe : ∀ id', id' ≠ id → ∀ q, (s.dispatchQueryTask n id).At id' q ↔ s.At id' q := by
    intro id' hne q
    cases q with
    | watched => simp [At, Server.dispatchQueryTask, hne]
    | queued i =>
      simp only [At, hpipes]
      by_cases hi : i = w
      · simp [hi, hne]
      · simp [hi]
    | processing i => rfl
    | destroyed => rfl
  obtain ⟨hlocated, hbounded⟩ := h.move hself hwn hframe hid fun _ _ => Iff.rfl
  refine ⟨hlocated, hbounded, ?_, ?_, ?_, ?_, ?_, h.turns.dispatch hn hw rfl rfl⟩
  · intro id'
    by_cases hne : id' = id
    · simp [Server.dispatchQueryTask, hne]
    · simpa [Server.dispatchQueryTask, hne] using h.watchers id'
  · intro i
    rw [hpipes]
    by_cases hi : i = w
    · rw [hi, Function.update_self]
      refine List.nodup_append.2 ⟨h.nodup w, List.nodup_singleton id, fun a ha b hb heq => ?_⟩
      rw [heq, List.mem_singleton.1 hb] at ha
      exact hpipe w ha
    · rw [Function.update_of_ne hi]
      exact h.nodup i
  · intro id' hid'
    cases hid'
  · intro id' t' hheap hactive'
    by_cases hne : id' = id
    · simp [Server.dispatchQueryTask, hne] at hactive'
    · simp only [Server.dispatchQueryTask, Function.update_of_ne hne] at hactive'
      obtain ⟨hok, hquiet⟩ := h.sound id' t' hheap hactive'
      exact ⟨hok, fun _ => hquiet fun heq => hne (hhandler id' heq)⟩
  · refine h.history.append (e := .dispatch id w) rfl
      (h.history.before (by simp [Access.task, hlive]) fun _ => hactive) le_rfl hid ?_ ?_
      (absurd rfl) ?_
    · exact fun _ _ hnone => hnone
    · intro id' _ hfalse
      by_cases hne : id' = id
      · simp [Server.dispatchQueryTask, hne]
      · simpa [Server.dispatchQueryTask, hne] using hfalse
    · simp [Server.dispatchQueryTask, Access.task]

/-- Destroying a task keeps the invariant, if nobody else has it: it is in no pipe, and afterwards
no worker is processing it. -/
lemma Inv.destroyQueryTask (h : s.Inv n) {who : Actor} (hid : id < s.accepted)
    (hlive : s.heap id ≠ none) (hassign : who = .assign → s.ioActive id = true)
    (hpipe : ∀ i, id ∉ s.pipes i) {workers : ℕ → Option ℕ}
    (hworkers : ∀ i id', workers i = some id' ↔ s.workers i = some id' ∧ id' ≠ id)
    {handler : Option ℕ} (hhandler : ∀ id', handler = some id' ↔ s.handler = some id' ∧ id' ≠ id) :
    { s.destroyQueryTask who id with workers := workers, handler := handler }.Inv n := by
  have hself : { s.destroyQueryTask who id with
      workers := workers, handler := handler }.Located id .destroyed := by
    intro q
    cases q with
    | watched => simp [At, Server.destroyQueryTask]
    | queued i => simpa [At, Server.destroyQueryTask] using hpipe i
    | processing i => simp [At, hworkers]
    | destroyed => simp [At, Server.destroyQueryTask, hid]
  have hframe : ∀ id', id' ≠ id → ∀ q, { s.destroyQueryTask who id with
      workers := workers, handler := handler }.At id' q ↔ s.At id' q := by
    intro id' hne q
    cases q with
    | watched => simp [At, Server.destroyQueryTask, hne]
    | queued i => rfl
    | processing i => simp [At, hworkers, hne]
    | destroyed => simp [At, Server.destroyQueryTask, hne]
  obtain ⟨hlocated, hbounded⟩ := h.move hself trivial hframe hid fun _ _ => Iff.rfl
  refine ⟨hlocated, hbounded, ?_, h.nodup, ?_, ?_, ?_, ?_⟩
  · intro id'
    by_cases hne : id' = id
    · simp [Server.destroyQueryTask, hne]
    · simpa [Server.destroyQueryTask, hne] using h.watchers id'
  · intro id' hid'
    obtain ⟨hold, hne⟩ := (hhandler id').1 hid'
    simpa [Server.destroyQueryTask, hne] using h.handler id' hold
  · intro id' t' hheap hactive
    by_cases hne : id' = id
    · simp [Server.destroyQueryTask, hne] at hactive
    · simp only [Server.destroyQueryTask, Function.update_of_ne hne] at hheap hactive
      obtain ⟨hok, hquiet⟩ := h.sound id' t' hheap hactive
      exact ⟨hok, fun hnot => hquiet fun heq => hnot ((hhandler id').2 ⟨heq, hne⟩)⟩
  · refine h.history.append (e := .destroy who id) rfl (h.history.before hlive hassign) le_rfl hid
      ?_ ?_ ?_ (absurd rfl)
    · intro id' _ hnone
      by_cases hne : id' = id
      · simp [Server.destroyQueryTask, hne]
      · simpa [Server.destroyQueryTask, hne] using hnone
    · intro id' _ hfalse
      by_cases hne : id' = id
      · simp [Server.destroyQueryTask, hne]
      · simpa [Server.destroyQueryTask, hne] using hfalse
    · simp [Server.destroyQueryTask, Access.task]
  · exact h.turns.append (e := .destroy who id) rfl rfl rfl

/-- Reading a task from a pipe keeps the invariant. -/
lemma Inv.take (h : s.Inv n) {i : ℕ} {rest : List ℕ} (hidle : s.workers i = none)
    (hpipe : s.pipes i = id :: rest) : (s.take i id rest).Inv n := by
  have hat : s.At id (.queued i) := by simp [At, hpipe]
  obtain ⟨t₀, hlive⟩ := h.live hat (by simp)
  obtain ⟨hid, hi⟩ := h.bounded id (.queued i) hat
  have hloc := h.located_of_at hat
  have hnodup := h.nodup i
  rw [hpipe, List.nodup_cons] at hnodup
  have hself : (s.take i id rest).Located id (.processing i) := by
    intro q
    have hq := hloc q
    cases q with
    | watched => simpa [At, Server.take] using hq
    | queued j =>
      by_cases hj : j = i
      · simpa [At, Server.take, hj] using hnodup.1
      · simpa [At, Server.take, hj] using hq
    | processing j =>
      by_cases hj : j = i
      · simp [At, Server.take, hj]
      · simpa [At, Server.take, hj] using hq
    | destroyed => simp [At, Server.take, hlive]
  have hframe : ∀ id', id' ≠ id → ∀ q, (s.take i id rest).At id' q ↔ s.At id' q := by
    intro id' hne q
    cases q with
    | watched => rfl
    | queued j =>
      by_cases hj : j = i
      · simp [At, Server.take, hj, hpipe, hne]
      · simp [At, Server.take, hj]
    | processing j =>
      by_cases hj : j = i
      · simp [At, Server.take, hj, hidle, hne.symm]
      · simp [At, Server.take, hj]
    | destroyed => rfl
  obtain ⟨hlocated, hbounded⟩ := h.move hself hi hframe hid fun _ _ => Iff.rfl
  refine ⟨hlocated, hbounded, h.watchers, ?_, h.handler, h.sound, ?_, ?_⟩
  · intro j
    by_cases hj : j = i
    · simpa [Server.take, hj] using hnodup.2
    · simpa [Server.take, hj] using h.nodup j
  · refine h.history.append (e := .touch (.worker i) id) rfl
      (h.history.before (by simp [Access.task, hlive]) nofun) le_rfl hid
      (fun _ _ hnone => hnone) (fun _ _ hfalse => hfalse) (absurd rfl) (absurd rfl)
  · exact h.turns.append (e := .touch (.worker i) id) rfl rfl rfl

end Functions

/-! ## Steps and runs -/

section Steps

variable {n : ℕ} {s s' : Server} {id : ℕ}

/-- A task that is watched is sound, is in memory and belongs to nobody else. -/
lemma Inv.of_active (h : s.Inv n) (hactive : s.ioActive id = true) :
    ∃ t, s.heap id = some t ∧ TaskOk t ∧ (s.handler ≠ some id → Quiet t) ∧ id < s.accepted ∧
      (∀ i, id ∉ s.pipes i) ∧ ∀ i id', s.workers i = some id' ↔ s.workers i = some id' ∧ id' ≠ id := by
  have hat : s.At id .watched := hactive
  have hloc := h.located_of_at hat
  obtain ⟨t, hheap⟩ := h.live hat (by simp)
  obtain ⟨hok, hquiet⟩ := h.sound id t hheap hactive
  refine ⟨t, hheap, hok, hquiet, (h.bounded id .watched hat).1, ?_, ?_⟩
  · intro i hmem
    exact absurd ((hloc (.queued i)).1 hmem) (by simp)
  · intro i id'
    refine ⟨fun hwork => ⟨hwork, ?_⟩, fun hwork => hwork.1⟩
    rintro rfl
    exact absurd ((hloc (.processing i)).1 hwork) (by simp)

/-- A round of the handler keeps the invariant. -/
lemma Inv.queryIo (h : s.Inv n) (hn : 1 ≤ n) (hactive : s.ioActive id = true)
    (hhandler : ∀ id', s.handler = some id' → id' = id) (a : Answer) {needLoop : Bool}
    (hloop : needLoop = true ∨ s.handler ≠ some id) : (s.queryIo n id a needLoop).Inv n := by
  obtain ⟨t, hheap, hok, hquiet, hid, hpipe, hworkers⟩ := h.of_active hactive
  have hlive : s.heap id ≠ none := by simp [hheap]
  have htouch : (s.touch .assign id).Inv n := h.touch hid hlive fun _ => hactive
  have hnone : ∀ id', none = some id' ↔ s.handler = some id' ∧ id' ≠ id := fun id' =>
    ⟨nofun, fun hid' => absurd (hhandler id' hid'.1) hid'.2⟩
  have hround := queryIoRound_ok hok a (hloop.imp_right hquiet)
  simp only [Server.queryIo, hheap]
  rcases hres : queryIoRound a needLoop t with e | (⟨b, t'⟩ | t' | t' | t')
  · exact htouch.ended true
  · rw [hres] at hround
    exact htouch.keep hactive hhandler hround.1 hround.2
  · exact htouch.dispatchQueryTask hn hactive hhandler
  · exact htouch.destroyQueryTask hid hlive (fun _ => hactive) hpipe hworkers hnone
  · exact (htouch.destroyQueryTask hid hlive (fun _ => hactive) hpipe hworkers hnone).ended true

/-- An event of the timer keeps the invariant. -/
lemma Inv.queryTimer (h : s.Inv n) (hidle : s.handler = none) (htimer : s.timerActive id = true)
    (logMem : Bool) : (s.queryTimer id logMem).Inv n := by
  have hactive : s.ioActive id = true := (h.watchers id).symm.trans htimer
  obtain ⟨t, hheap, -, -, hid, hpipe, hworkers⟩ := h.of_active hactive
  have hlive : s.heap id ≠ none := by simp [hheap]
  have htouch : (s.touch .assign id).Inv n := h.touch hid hlive fun _ => hactive
  have hnone : ∀ id', s.handler = some id' ↔ s.handler = some id' ∧ id' ≠ id := by
    simp [hidle]
  simp only [Server.queryTimer, hheap]
  cases Linglongta.queryTimer logMem t with
  | ok t' => exact htouch.destroyQueryTask hid hlive (fun _ => hactive) hpipe hworkers hnone
  | error e => exact htouch.ended true

/-- A worker that answers a request keeps the invariant. -/
lemma Inv.answer (h : s.Inv n) {i : ℕ} (hwork : s.workers i = some id) (storage : Call → Reply)
    (ws : Writes) : (s.answer i id storage ws).Inv n := by
  have hat : s.At id (.processing i) := hwork
  have hloc := h.located_of_at hat
  have hid := (h.bounded id _ hat).1
  obtain ⟨t, hheap⟩ := h.live hat (by simp)
  have hlive : s.heap id ≠ none := by simp [hheap]
  have hassign : Actor.worker i = .assign → s.ioActive id = true := nofun
  have htouch : (s.touch (.worker i) id).Inv n := h.touch hid hlive hassign
  have hpipe : ∀ j, id ∉ s.pipes j := fun j hmem => by simpa using (hloc (.queued j)).1 hmem
  have hother : ∀ j, s.workers j = some id → j = i := fun j hj => by
    simpa using (hloc (.processing j)).1 hj
  have hworkers : ∀ j id', Function.update s.workers i none j = some id' ↔
      s.workers j = some id' ∧ id' ≠ id := by
    intro j id'
    by_cases hj : j = i
    · rw [hj, Function.update_self, hwork]
      simp [eq_comm]
    · rw [Function.update_of_ne hj]
      refine ⟨fun hj' => ⟨hj', ?_⟩, fun hj' => hj'.1⟩
      rintro rfl
      exact hj (hother j hj')
  have hhandler : ∀ id', s.handler = some id' ↔ s.handler = some id' ∧ id' ≠ id := by
    intro id'
    refine ⟨fun hid' => ⟨hid', ?_⟩, fun hid' => hid'.1⟩
    rintro rfl
    exact absurd ((hloc .watched).1 (h.handler id' hid')) (by simp)
  simp only [Server.answer, hheap]
  cases pipeEvent (m := Id) storage ws t with
  | ok t' => exact htouch.destroyQueryTask hid hlive hassign hpipe hworkers hhandler
  | error e => exact htouch.ended true

/-- Every step keeps the invariant. -/
lemma Inv.step (hn : 1 ≤ n) (h : s.Inv n) (hstep : Step n s s') : s'.Inv n := by
  cases hstep with
  | accept _ hidle => exact h.accept hidle
  | readable id a _ hidle hactive =>
    exact h.queryIo hn hactive (by simp [hidle]) a (Or.inr (by simp [hidle]))
  | loop id a _ hhandler =>
    refine h.queryIo hn (h.handler id hhandler) ?_ a (Or.inl rfl)
    intro id' hid'
    exact Option.some.inj (hid'.symm.trans hhandler)
  | timeout id logMem _ hidle hactive => exact h.queryTimer hidle hactive logMem
  | take i id rest _ _ hidle hpipe => exact h.take hidle hpipe
  | answer i id storage ws _ _ hwork => exact h.answer hwork storage ws

/-- The invariant holds before the first connection. -/
lemma inv_start (n : ℕ) : start.Inv n where
  located := by simp [start]
  bounded := by
    intro id p hp
    cases p <;> simp [At, start] at hp
  watchers := fun _ => rfl
  nodup := fun _ => List.nodup_nil
  handler := by simp [start]
  sound := by simp [start]
  history := ⟨by simp [start], by simp [start], by simp [start], List.Pairwise.nil⟩
  turns := ⟨Or.inl ⟨rfl, rfl⟩, by simp [dispatches, start]⟩

/-- The invariant holds in every state that can be reached. -/
lemma Reachable.inv (hn : 1 ≤ n) (h : Reachable n s) : s.Inv n := by
  induction h with
  | refl => exact inv_start n
  | tail _ hstep ih => exact ih.step hn hstep

end Steps

/-- Every task has one owner, and is used by nobody else. -/
structure Owned (n : ℕ) (s : Server) : Prop where
  /-- A task that has been accepted is in exactly one stage. -/
  stage : ∀ id < s.accepted, ∃! p, s.At id p
  /-- The workers that take part are those that exist. -/
  valid : ∀ id p, s.At id p → p.Valid n
  /-- A task is in a pipe only once. -/
  once : ∀ i, (s.pipes i).Nodup
  /-- A task that is watched has both watchers, and any other has none. -/
  watchers : ∀ id, s.timerActive id = s.ioActive id
  /-- `destroy_query_task` runs at most once for a task. -/
  destructions : s.destructions.Nodup
  /-- Nobody touches a task after it has been destroyed, and the assign thread does not touch it
  after it has been dispatched. -/
  order : s.trace.Pairwise Before
  /-- A task that is watched is quiet unless the handler works on it. -/
  quiet : ∀ id, s.At id .watched → s.handler ≠ some id → ∃ t, s.heap id = some t ∧ Quiet t
  /-- The workers take turns. -/
  turns : ∀ k id w, s.dispatches[k]? = some (id, w) → w = k % n

end Server

end Linglongta
