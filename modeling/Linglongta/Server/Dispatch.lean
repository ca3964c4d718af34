import Linglongta.Server.AssignThread
import Linglongta.Server.QueryThread
import Mathlib.Logic.Relation

/-!
# Dispatching tasks to the workers

One assign thread accepts connections and receives requests, and `n` workers answer them.  A task is
passed on as a pointer through the pipe of a worker.  `Server` is the state of all of this: the
memory, the watchers of the assign loop, the pipes and what the threads are doing.  Its `trace`
records which thread has touched, dispatched or destroyed which task.

`Server.Step` is the step relation.  A step is taken when libev or a pipe gives a thread a pointer
to a task, whether the task is still there or not; that it is always there is a part of
`Server.Inv`.
-/

namespace Linglongta

/-- The threads. -/
inductive Actor
  /-- The assign thread. -/
  | assign
  /-- A worker. -/
  | worker (i : ℕ)
deriving DecidableEq

/-- What a thread does with a task. -/
inductive Access
  /-- It reads or writes the task. -/
  | touch (who : Actor) (id : ℕ)
  /-- The assign thread writes the task to the pipe of a worker. -/
  | dispatch (id worker : ℕ)
  /-- `destroy_query_task`. -/
  | destroy (who : Actor) (id : ℕ)
deriving DecidableEq

namespace Access

/-- The task. -/
def task : Access → ℕ
  | touch _ id => id
  | dispatch id _ => id
  | destroy _ id => id

/-- The thread. -/
def actor : Access → Actor
  | touch who _ => who
  | dispatch _ _ => .assign
  | destroy who _ => who

/-- The task that is destroyed. -/
def destroyed : Access → Option ℕ
  | destroy _ id => some id
  | _ => none

/-- The task that is dispatched, and the worker. -/
def dispatched : Access → Option (ℕ × ℕ)
  | dispatch id worker => some (id, worker)
  | _ => none

end Access

/-- The state of the threads that share the tasks.  A task is named by the number of tasks that have
been accepted before it. -/
structure Server where
  /-- The number of tasks that have been accepted. -/
  accepted : ℕ
  /-- The memory of the tasks, none when it has been freed. -/
  heap : ℕ → Option QueryTask
  /-- Whether `query_io_w` of a task is active. -/
  ioActive : ℕ → Bool
  /-- Whether `query_timer_w` of a task is active. -/
  timerActive : ℕ → Bool
  /-- The task whose `query_io_event_handler` goes on with another round. -/
  handler : Option ℕ
  /-- The pipes of the workers, the next task to be read first. -/
  pipes : ℕ → List ℕ
  /-- What the workers are processing. -/
  workers : ℕ → Option ℕ
  /-- `last_fd`. -/
  lastFd : ℕ
  /-- Whether the process has ended. -/
  ended : Bool
  /-- What has been done, in this order. -/
  trace : List Access

namespace Server

/-- The server before the first connection. -/
def start : Server where
  accepted := 0
  heap := fun _ => none
  ioActive := fun _ => false
  timerActive := fun _ => false
  handler := none
  pipes := fun _ => []
  workers := fun _ => none
  lastFd := 0
  ended := false
  trace := []

/-! ## Steps -/

/-- A thread reads or writes a task. -/
def touch (who : Actor) (id : ℕ) (s : Server) : Server :=
  { s with trace := s.trace ++ [.touch who id] }

/-- `accept_connection`. -/
def accept (s : Server) : Server :=
  { s with
    accepted := s.accepted + 1
    heap := (Function.update s.heap s.accepted (some acceptedTask))
    ioActive := (Function.update s.ioActive s.accepted true)
    timerActive := (Function.update s.timerActive s.accepted true)
    trace := s.trace ++ [.touch .assign s.accepted] }

/-- The handler leaves a task, and perhaps goes on with another round. -/
def keep (id : ℕ) (needLoop : Bool) (t : QueryTask) (s : Server) : Server :=
  { s with
    heap := (Function.update s.heap id (some t))
    handler := if needLoop then some id else none }

/-- `dispatch_query_task`. -/
def dispatchQueryTask (n id : ℕ) (s : Server) : Server :=
  let lastFd := if n ≤ s.lastFd then 0 else s.lastFd
  { s with
    ioActive := (Function.update s.ioActive id false)
    timerActive := (Function.update s.timerActive id false)
    handler := none
    pipes := (Function.update s.pipes lastFd (s.pipes lastFd ++ [id]))
    lastFd := lastFd + 1
    trace := s.trace ++ [.dispatch id lastFd] }

/-- `destroy_query_task`. -/
def destroyQueryTask (who : Actor) (id : ℕ) (s : Server) : Server :=
  { s with
    heap := (Function.update s.heap id none)
    ioActive := (Function.update s.ioActive id false)
    timerActive := (Function.update s.timerActive id false)
    trace := s.trace ++ [.destroy who id] }

/-- A round of `query_io_event_handler`.  A task that is not there any more is touched too. -/
def queryIo (n id : ℕ) (a : Answer) (needLoop : Bool) (s : Server) : Server :=
  match s.heap id with
  | none => s.touch .assign id
  | some t =>
    match queryIoRound a needLoop t with
    | .ok (.next needLoop t) => (s.touch .assign id).keep id needLoop t
    | .ok (.dispatched _) => (s.touch .assign id).dispatchQueryTask n id
    | .ok (.destroyed _) => { (s.touch .assign id).destroyQueryTask .assign id with handler := none }
    | .ok (.exited _) =>
      { (s.touch .assign id).destroyQueryTask .assign id with handler := none, ended := true }
    | .error _ => { s.touch .assign id with ended := true }

/-- `query_timer_event_handler`. -/
def queryTimer (id : ℕ) (logMem : Bool) (s : Server) : Server :=
  match s.heap id with
  | none => s.touch .assign id
  | some t =>
    match Linglongta.queryTimer logMem t with
    | .ok _ => (s.touch .assign id).destroyQueryTask .assign id
    | .error _ => { s.touch .assign id with ended := true }

/-- A worker reads a task from its pipe, and writes its `thread_id`. -/
def take (i id : ℕ) (rest : List ℕ) (s : Server) : Server :=
  { s with
    pipes := (Function.update s.pipes i rest)
    workers := (Function.update s.workers i (some id))
    trace := s.trace ++ [.touch (.worker i) id] }

/-- The rest of `pipe_event_handler`: the worker answers the request and destroys the task. -/
def answer (i id : ℕ) (storage : Call → Reply) (ws : Writes) (s : Server) : Server :=
  match s.heap id with
  | none => s.touch (.worker i) id
  | some t =>
    match pipeEvent (m := Id) storage ws t with
    | .ok _ => { (s.touch (.worker i) id).destroyQueryTask (.worker i) id with
        workers := (Function.update s.workers i none) }
    | .error _ => { s.touch (.worker i) id with ended := true }

/-- The steps of the assign thread and of `n` workers.  The assign loop delivers one event at a
time, and only those of active watchers. -/
inductive Step (n : ℕ) (s : Server) : Server → Prop
  /-- A connection is accepted. -/
  | accept (hended : s.ended = false) (hidle : s.handler = none) : Step n s s.accept
  /-- A socket can be read. -/
  | readable (id : ℕ) (a : Answer) (hended : s.ended = false) (hidle : s.handler = none)
      (hactive : s.ioActive id = true) : Step n s (s.queryIo n id a a.needLoop)
  /-- The handler goes on. -/
  | loop (id : ℕ) (a : Answer) (hended : s.ended = false) (hhandler : s.handler = some id) :
      Step n s (s.queryIo n id a true)
  /-- The time for a request is over. -/
  | timeout (id : ℕ) (logMem : Bool) (hended : s.ended = false) (hidle : s.handler = none)
      (hactive : s.timerActive id = true) : Step n s (s.queryTimer id logMem)
  /-- A worker reads its pipe. -/
  | take (i id : ℕ) (rest : List ℕ) (hended : s.ended = false) (hi : i < n)
      (hidle : s.workers i = none) (hpipe : s.pipes i = id :: rest) : Step n s (s.take i id rest)
  /-- A worker answers a request. -/
  | answer (i id : ℕ) (storage : Call → Reply) (ws : Writes) (hended : s.ended = false) (hi : i < n)
      (hwork : s.workers i = some id) : Step n s (s.answer i id storage ws)

/-- What can be reached from the start, with `n` workers. -/
def Reachable (n : ℕ) (s : Server) : Prop :=
  Relation.ReflTransGen (Step n) start s

end Server

end Linglongta
