import Linglongta.Server.Task

/-!
# The assign thread

The functions of `assign_thread.c` that receive a request.  `query_io_event_handler` is called when
a socket can be read; it goes round a loop, one case of its `switch` in each round, until
`need_loop` is false.  `queryIoRound` is one round.

A `Conn` says what has become of a connection, and `Conn.next` is what the assign thread does next
with it: a round of the loop, or a call of `query_timer_event_handler` when the loop is not running.
`Conn.feed` goes on until the next `read`, so that the arrival of a request can be described by the
results of the reads alone.  There is memory for the error logs then.

`have_read` is a natural number: in C the sum may exceed a `ssize_t`, but only differences of it are
used.
-/

namespace Linglongta

/-! ## What the system answers -/

/-- The result of a `net_read`: the bytes, none at the end of the stream, or the error. -/
abbrev ReadResult : Type := Except Errno (List UInt8)

/-- What the system answers in one round of the loop. -/
structure Answer where
  /-- The result of the read. -/
  read : ReadResult
  /-- The bytes behind the pointer that `slab_alloc` returns for a size, none for `NULL`. -/
  slabAlloc : ℕ → Option (ℕ → UInt8)
  /-- What stands in `need_loop` before it has been assigned. -/
  needLoop : Bool
  /-- Whether `slab_alloc` returns memory for an error log. -/
  logMem : Bool := true

/-- The conversion of a `size_t` to `ssize_t`. -/
def toSsizeT (n : Int) : Int := Int.bmod n (2 ^ 64)

/-! ## Receiving a request -/

/-- The task after a read has put bytes into the buffer for the head. -/
def QueryTask.receivedHead (t : QueryTask) (bytes : List UInt8) : QueryTask :=
  { t with queryRequest := { t.queryRequest with
    queryHeadBuf := (t.queryRequest.queryHeadBuf.patch t.queryRequest.queryHeadBufSize bytes) } }

/-- `recv_req_head`: `need_loop` and the task. -/
def recvReqHead (read : ReadResult) (t : QueryTask) (logMem : Bool := true) :
    Except Assertion (Bool × QueryTask) :=
  match read with
  | .ok bytes =>
    let t := t.receivedHead bytes
    if bytes = [] ∧ t.needRead ≠ 0 then do
      let t ← changeQueryTaskState .destroyRecv t
      pure (false, t)
    else if 0 < bytes.length ∧ (bytes.length : Int) ≤ t.needRead then do
      let t ← changeQueryTaskState .parseReqHead
        { t with haveRead := t.haveRead + bytes.length, needRead := 0 }
      pure (true, t)
    else do
      -- should never reach here
      let t ← t.log .readUnknown logMem
      let t ← changeQueryTaskState .destroyRecv t
      pure (true, t)
  | .error errno => do
    let t ← t.log (.netRead t.needRead t.haveRead errno) logMem
    let t ← changeQueryTaskState .destroyRecv t
    pure (true, t)

/-- The case `cmd_set` of `parse_query_request_head`, with the bytes that came behind the head. -/
def bufferBody (slabAlloc : ℕ → Option (ℕ → UInt8)) (tmpBuf : List UInt8) (t : QueryTask) :
    Except Assertion (Bool × QueryTask) :=
  let size := toSizeT (t.queryRequest.dataSize + 2)
  match slabAlloc size with
  | none => .error .data
  | some mem =>
    let t := { t with
      queryRequest := { t.queryRequest with
        dataSize := size
        data := some (Buffer.copy ⟨size, mem, 0⟩ 0 tmpBuf) }
      needRead := toSsizeT ((size : Int) - tmpBuf.length) }
    if t.needRead = 0 then do
      let t ← changeQueryTaskState .dispatchQueryTask t
      pure (true, t)
    else if 0 < t.needRead then do
      let t ← changeQueryTaskState .recvReqData t
      pure (false, t)
    else do
      let t ← changeQueryTaskState .destroyRecv t
      pure (true, t)

/-- What `parse_query_request_head` does after `parse_memcached_string_head`, given its result and
the bytes that came behind the head. -/
def actOnRequest (slabAlloc : ℕ → Option (ℕ → UInt8)) (tmpBuf : List UInt8) (r : Int × QueryRequest)
    (t : QueryTask) (logMem : Bool := true) : Except Assertion (Bool × QueryTask) :=
  let t := { t with queryRequest := r.2 }
  if r.1 = 0 ∧ r.2.parseStatus = .succ then
    match r.2.cmdType with
    | .set => bufferBody slabAlloc tmpBuf t
    | .get => do
      let t ← changeQueryTaskState .dispatchQueryTask t
      pure (true, t)
    | .delete => do
      let t ← changeQueryTaskState .dispatchQueryTask t
      pure (true, t)
    | .sync => do
      let t ← changeQueryTaskState .doSync t
      pure (true, t)
    | .power => do
      let t ← changeQueryTaskState .doPower t
      pure (true, t)
    | .unknown => do
      -- should never reach here
      let t ← t.log (.unexpectedCmdType r.2.cmdType) logMem
      let t ← changeQueryTaskState .destroyRecv t
      pure (true, t)
  else do
    -- truncate tailing CRLF
    let head := CString.ofBuffer r.2.queryHeadBuf.bytes
    let t := { t with queryRequest := { r.2 with
      queryHeadBuf := r.2.queryHeadBuf.patch (head.length - mcTermStr.length) [0] } }
    let t ← t.log (.parseFailed r.2.cmdType) logMem
    let t ← changeQueryTaskState .returnFailed t
    pure (true, t)

/-- The request that is given to `parse_memcached_string_head`: the head, which is `p` bytes long,
is terminated. -/
def QueryRequest.terminate (qr : QueryRequest) (p : ℕ) : QueryRequest :=
  { qr with queryHeadBufSize := p, queryHeadBuf := qr.queryHeadBuf.patch p [0] }

/-- `parse_query_request_head`: `need_loop` and the task. -/
def parseQueryRequestHead (slabAlloc : ℕ → Option (ℕ → UInt8)) (t : QueryTask)
    (logMem : Bool := true) : Except Assertion (Bool × QueryTask) :=
  match tryParseMemcachedStringHead t.queryRequest with
  | some i => do
    -- the next char after CRLF
    let p := i + mcTermStr.length
    check .haveRead (p ≤ t.haveRead)
    let tmpBuf := (t.queryRequest.queryHeadBuf.bytes.drop p).take (t.haveRead - p)
    actOnRequest slabAlloc tmpBuf (parseMemcachedStringHead (t.queryRequest.terminate p)) t logMem
  | none => do
    let t ← changeQueryTaskState .recvReqHead t logMem
    pure (true, t)

/-- The task after a read has put bytes into the buffer for the body, at the offset that
`recv_req_data` computes. -/
def QueryTask.received (t : QueryTask) (bytes : List UInt8) : QueryTask :=
  { t with queryRequest := { t.queryRequest with
    data := t.queryRequest.data.map fun data =>
      data.copy (t.haveRead - t.queryRequest.queryHeadBufSize) bytes } }

/-- `recv_req_data`: `need_loop` and the task.  The function goes on to read after `EAGAIN` and
`EINTR`; here it is left and called again, which comes to the same. -/
def recvReqData (read : ReadResult) (t : QueryTask) (logMem : Bool := true) :
    Except Assertion (Bool × QueryTask) :=
  if t.needRead = 0 then do
    let t ← changeQueryTaskState .dispatchQueryTask t
    pure (true, t)
  else
    match read with
    | .ok bytes =>
      let t := t.received bytes
      if bytes = [] then do
        let t ← t.log (.remoteReset t.needRead t.haveRead) logMem
        let t ← changeQueryTaskState .destroyRecv t
        pure (true, t)
      else if (bytes.length : Int) < t.needRead then
        -- read have not been finished
        pure (false, { t with
          haveRead := t.haveRead + bytes.length, needRead := t.needRead - bytes.length })
      else if (bytes.length : Int) = t.needRead then do
        -- read done
        let t ← changeQueryTaskState .dispatchQueryTask t
        pure (true, t)
      else do
        -- should never reach here
        let t ← t.log .readUnknown logMem
        let t ← changeQueryTaskState .destroyRecv t
        pure (true, t)
    | .error .other => do
      let t ← t.log (.readDataFailed .other) logMem
      let t ← changeQueryTaskState .destroyRecv t
      pure (true, t)
    | .error _ => pure (true, t)

/-! ## The event handler -/

/-- How a round of the loop of `query_io_event_handler` ends. -/
inductive Round
  /-- `need_loop` and the task. -/
  | next (needLoop : Bool) (t : QueryTask)
  /-- The task has been written to the pipe of a worker. -/
  | dispatched (t : QueryTask)
  /-- `destroy_query_task` has been called. -/
  | destroyed (t : QueryTask)
  /-- `exit(0)`, after `destroy_query_task`. -/
  | exited (t : QueryTask)

/-- One round of the loop of `query_io_event_handler`, given what `need_loop` holds. -/
def queryIoRound (a : Answer) (needLoop : Bool) (t : QueryTask) : Except Assertion Round :=
  match t.state with
  | .recvReqHead => do
    let r ← recvReqHead a.read t a.logMem
    pure (.next r.1 r.2)
  | .parseReqHead => do
    let r ← parseQueryRequestHead a.slabAlloc t a.logMem
    pure (.next r.1 r.2)
  | .recvReqData => do
    let r ← recvReqData a.read t a.logMem
    pure (.next r.1 r.2)
  | .dispatchQueryTask => pure (.dispatched t)
  | .returnFailed => pure (.dispatched t)
  | .destroyRecv => pure (.destroyed t)
  | .doSync => do
    -- `need_loop` is not assigned
    let t ← changeQueryTaskState .destroyRecv t
    pure (.next needLoop t)
  | .doPower => pure (.exited t)
  | _ => do
    let t ← changeQueryTaskState .destroyRecv t
    pure (.next needLoop t)

/-- `query_timer_event_handler`: the task that is destroyed. -/
def queryTimer (logMem : Bool) (t : QueryTask) : Except Assertion QueryTask :=
  t.log (.readTimeout t.haveRead t.needRead) logMem

/-- The task that `do_accept_connection` makes. -/
def acceptedTask : QueryTask where
  errorLog := none
  state := .recvReqHead
  haveRead := 0
  needRead := maxQueryHeaderSize
  queryRequest := .zero
  queryResponse := .zero

/-- What has become of a connection. -/
inductive Conn
  /-- Its watchers are active and the handler is not running. -/
  | watched (t : QueryTask)
  /-- The handler is about to start another round. -/
  | looping (t : QueryTask)
  /-- The task has been given to a worker. -/
  | dispatched (t : QueryTask)
  /-- The task has been destroyed. -/
  | destroyed (t : QueryTask)
  /-- The process has ended. -/
  | exited (t : QueryTask)
  /-- The process has been stopped, by an assertion or by a `Log` without memory. -/
  | aborted (a : Assertion)

namespace Conn

/-- What a round leads to. -/
def ofRound : Except Assertion Round → Conn
  | .ok (.next true t) => looping t
  | .ok (.next false t) => watched t
  | .ok (.dispatched t) => dispatched t
  | .ok (.destroyed t) => destroyed t
  | .ok (.exited t) => exited t
  | .error a => aborted a

/-- What a function that returns `need_loop` leads to. -/
def ofResult : Except Assertion (Bool × QueryTask) → Conn
  | .ok (true, t) => looping t
  | .ok (false, t) => watched t
  | .error a => aborted a

/-- One round of the handler. -/
def round (a : Answer) : Conn → Conn
  | watched t => ofRound (queryIoRound a a.needLoop t)
  | looping t => ofRound (queryIoRound a true t)
  | c => c

/-- An event of the timer; there is none while the handler is running. -/
def timeout (logMem : Bool) : Conn → Conn
  | watched t =>
    match queryTimer logMem t with
    | .ok t => destroyed t
    | .error a => aborted a
  | c => c

/-- What may happen to a connection. -/
inductive Event
  /-- A round of the handler. -/
  | io (a : Answer)
  /-- An event of the timer, and whether `slab_alloc` returns memory for its error log. -/
  | timer (logMem : Bool)

/-- What the assign thread does next with a connection. -/
def next : Event → Conn → Conn
  | .io a => round a
  | .timer logMem => timeout logMem

/-- What the assign thread does with a connection. -/
def run (es : List Event) (c : Conn) : Conn :=
  es.foldl (fun c e => c.next e) c

/-! ## Arrivals -/

/-- At most `n` further rounds, up to the next read. -/
def settle (slabAlloc : ℕ → Option (ℕ → UInt8)) : ℕ → Conn → Conn
  | n + 1, looping t =>
    if t.state = .recvReqHead ∨ t.state = .recvReqData then looping t
    else settle slabAlloc n (round { read := .ok [], slabAlloc, needLoop := true } (looping t))
  | _, c => c

/-- One read with this result, and the rounds up to the next one. -/
def feed (slabAlloc : ℕ → Option (ℕ → UInt8)) (c : Conn) (read : ReadResult) : Conn :=
  settle slabAlloc 3 (round { read, slabAlloc, needLoop := true } c)

/-- Reads with these results. -/
def serve (slabAlloc : ℕ → Option (ℕ → UInt8)) (c : Conn) (reads : List ReadResult) : Conn :=
  reads.foldl (feed slabAlloc) c

section Arrivals

variable (slabAlloc : ℕ → Option (ℕ → UInt8))

@[simp] lemma run_nil (c : Conn) : run [] c = c := rfl

lemma run_append (es es' : List Event) (c : Conn) : run (es ++ es') c = run es' (run es c) :=
  List.foldl_append

@[simp] lemma serve_nil (c : Conn) : serve slabAlloc c [] = c := rfl

@[simp] lemma serve_cons (c : Conn) (read : ReadResult) (reads : List ReadResult) :
    serve slabAlloc c (read :: reads) = serve slabAlloc (feed slabAlloc c read) reads := rfl

/-- A round that calls a function which returns `need_loop`. -/
lemma ofRound_bind (r : Except Assertion (Bool × QueryTask)) :
    ofRound (r >>= fun r => pure (.next r.1 r.2)) = ofResult r := by
  rcases r with a | ⟨_ | _, t⟩ <;> rfl

@[simp] lemma feed_dispatched (t : QueryTask) (read : ReadResult) :
    feed slabAlloc (dispatched t) read = dispatched t := rfl

@[simp] lemma feed_destroyed (t : QueryTask) (read : ReadResult) :
    feed slabAlloc (destroyed t) read = destroyed t := rfl

@[simp] lemma feed_exited (t : QueryTask) (read : ReadResult) :
    feed slabAlloc (exited t) read = exited t := rfl

@[simp] lemma feed_aborted (a : Assertion) (read : ReadResult) :
    feed slabAlloc (aborted a) read = aborted a := rfl

/-- A task that has been dispatched is left alone. -/
@[simp] lemma serve_dispatched (t : QueryTask) (reads : List ReadResult) :
    serve slabAlloc (dispatched t) reads = dispatched t := by
  induction reads with
  | nil => rfl
  | cons read reads ih => rw [serve_cons, feed_dispatched, ih]

/-- A task that has been destroyed is left alone. -/
@[simp] lemma serve_destroyed (t : QueryTask) (reads : List ReadResult) :
    serve slabAlloc (destroyed t) reads = destroyed t := by
  induction reads with
  | nil => rfl
  | cons read reads ih => rw [serve_cons, feed_destroyed, ih]

/-- Nothing happens after the process has ended. -/
@[simp] lemma serve_exited (t : QueryTask) (reads : List ReadResult) :
    serve slabAlloc (exited t) reads = exited t := by
  induction reads with
  | nil => rfl
  | cons read reads ih => rw [serve_cons, feed_exited, ih]

/-- Nothing happens after an assertion has failed. -/
@[simp] lemma serve_aborted (a : Assertion) (reads : List ReadResult) :
    serve slabAlloc (aborted a) reads = aborted a := by
  induction reads with
  | nil => rfl
  | cons read reads ih => rw [serve_cons, feed_aborted, ih]

@[simp] lemma settle_watched (n : ℕ) (t : QueryTask) :
    settle slabAlloc n (watched t) = watched t := by
  cases n <;> rfl

@[simp] lemma settle_dispatched (n : ℕ) (t : QueryTask) :
    settle slabAlloc n (dispatched t) = dispatched t := by
  cases n <;> rfl

@[simp] lemma settle_destroyed (n : ℕ) (t : QueryTask) :
    settle slabAlloc n (destroyed t) = destroyed t := by
  cases n <;> rfl

@[simp] lemma settle_exited (n : ℕ) (t : QueryTask) :
    settle slabAlloc n (exited t) = exited t := by
  cases n <;> rfl

@[simp] lemma settle_aborted (n : ℕ) (a : Assertion) :
    settle slabAlloc n (aborted a) = aborted a := by
  cases n <;> rfl

/-- A task in `s_destroy_recv` is destroyed in the next round. -/
lemma settle_destroyRecv (n : ℕ) {t : QueryTask} (h : t.state = .destroyRecv) :
    settle slabAlloc (n + 1) (looping t) = destroyed t := by
  rw [settle, if_neg (by simp [h])]
  simp [round, queryIoRound, h, ofRound, pure, Except.pure]

/-- A task in `s_dispatch_query_task` is dispatched in the next round. -/
lemma settle_dispatch (n : ℕ) {t : QueryTask} (h : t.state = .dispatchQueryTask) :
    settle slabAlloc (n + 1) (looping t) = dispatched t := by
  rw [settle, if_neg (by simp [h])]
  simp [round, queryIoRound, h, ofRound, pure, Except.pure]

/-- So is a task in `s_return_failed`. -/
lemma round_returnFailed (a : Answer) {t : QueryTask} (h : t.state = .returnFailed) :
    round a (looping t) = dispatched t := by
  simp [round, queryIoRound, h, ofRound, pure, Except.pure]

lemma settle_returnFailed (n : ℕ) {t : QueryTask} (h : t.state = .returnFailed) :
    settle slabAlloc (n + 1) (looping t) = dispatched t := by
  rw [settle, if_neg (by simp [h]), round_returnFailed _ h, settle_dispatched]

/-- A task in `s_do_power` ends the process. -/
lemma settle_doPower (n : ℕ) {t : QueryTask} (h : t.state = .doPower) :
    settle slabAlloc (n + 1) (looping t) = exited t := by
  rw [settle, if_neg (by simp [h])]
  simp [round, queryIoRound, h, ofRound, pure, Except.pure]

/-- A task in `s_do_sync` is destroyed in two rounds. -/
lemma settle_doSync (n : ℕ) {t : QueryTask} (h : t.state = .doSync) :
    settle slabAlloc (n + 2) (looping t) = destroyed { t with state := .destroyRecv } := by
  have hround : round { read := .ok [], slabAlloc, needLoop := true } (looping t) =
      looping { t with state := .destroyRecv } := by
    simp only [round, queryIoRound, h, changeState_destroyRecv]
    rfl
  rw [settle, if_neg (by simp [h]), hround, settle_destroyRecv _ n rfl]

/-- The rounds up to the next read are a run. -/
lemma exists_run_settle (n : ℕ) (c : Conn) : ∃ es, settle slabAlloc n c = run es c := by
  induction n generalizing c with
  | zero => exact ⟨[], rfl⟩
  | succ n ih =>
    cases c with
    | looping t =>
      rw [settle]
      split
      · exact ⟨[], rfl⟩
      · obtain ⟨es, hes⟩ := ih (round { read := .ok [], slabAlloc, needLoop := true } (looping t))
        exact ⟨.io { read := .ok [], slabAlloc, needLoop := true } :: es, hes⟩
    | watched t => exact ⟨[], rfl⟩
    | dispatched t => exact ⟨[], rfl⟩
    | destroyed t => exact ⟨[], rfl⟩
    | exited t => exact ⟨[], rfl⟩
    | aborted a => exact ⟨[], rfl⟩

/-- What is described by the results of the reads is a run. -/
lemma exists_run_serve (reads : List ReadResult) (c : Conn) :
    ∃ es, serve slabAlloc c reads = run es c := by
  induction reads generalizing c with
  | nil => exact ⟨[], rfl⟩
  | cons read reads ih =>
    obtain ⟨es₁, h₁⟩ :=
      exists_run_settle slabAlloc 3 (round { read, slabAlloc, needLoop := true } c)
    obtain ⟨es₂, h₂⟩ := ih (feed slabAlloc c read)
    refine ⟨.io { read, slabAlloc, needLoop := true } :: (es₁ ++ es₂), ?_⟩
    rw [serve_cons, h₂, feed, h₁, ← run_append]
    rfl

end Arrivals

end Conn

end Linglongta
