import Linglongta.Server.Task

/-!
# The worker threads

`handle_request`, `build_response` and `send_response` of `query_thread.c`.  A worker reads a task
from its pipe, calls the storage, answers and destroys the task.

`handle_request` calls the storage at most once.  What the storage is, is left open: `handleRequest`
works in any monad, so that it can be run on the programs of the store and on given replies.
-/

namespace Linglongta

open CString

/-! ## Responses -/

/-- `MC_ERR_STR`. -/
def mcErrStr : List UInt8 := ascii ['E', 'R', 'R', 'O', 'R', '\r', '\n']

/-- `MC_SET_DONE_STR`. -/
def mcSetDoneStr : List UInt8 := ascii ['S', 'T', 'O', 'R', 'E', 'D', '\r', '\n']

/-- `MC_GET_DONE_STR`. -/
def mcGetDoneStr : List UInt8 := ascii ['E', 'N', 'D', '\r', '\n']

/-- `MC_DEL_DONE_STR`. -/
def mcDelDoneStr : List UInt8 := ascii ['D', 'E', 'L', 'E', 'T', 'E', 'D', '\r', '\n']

/-- `MC_GET_HEADER_PATTERN`, with the key, a zero and the size; it is shorter than the buffer. -/
def mcGetHeader (key : List UInt8) (size : ℕ) : List UInt8 :=
  ascii ['V', 'A', 'L', 'U', 'E', ' '] ++ key ++ ascii [' ', '0', ' '] ++
    ascii (Nat.toDigits 10 size) ++ mcTermStr

/-- The end of the cases of `build_response` that answer with a line only. -/
def respondLine (line : List UInt8) (t : QueryTask) : Except Assertion QueryTask := do
  check .respData (t.queryResponse.respDataSize = 0)
  check .respData (t.queryResponse.respDataBuf = none)
  pure { t with queryResponse := { t.queryResponse with
    respHeadBuf := line, respHeadBufSize := line.length, respDataSize := 0, respDataBuf := none } }

/-- `build_response`. -/
def buildResponse (t : QueryTask) (logMem : Bool := true) : Except Assertion QueryTask :=
  match t.state with
  | .setSuccess => respondLine mcSetDoneStr t
  | .setFailed => do
    let t ← t.log .setFailed logMem
    respondLine mcErrStr t
  | .getSuccess =>
    let head := mcGetHeader t.queryRequest.key t.queryResponse.respDataSize
    pure { t with queryResponse := { t.queryResponse with
      respHeadBuf := head
      respHeadBufSize := head.length
      respTailorBuf := some mcTermStr
      respTailorSize := mcTermStr.length } }
  | .getFailed => do
    let t ← t.log .getFailed logMem
    respondLine mcGetDoneStr t
  | .deleteSuccess => respondLine mcDelDoneStr t
  | .deleteFailed => do
    let t ← t.log .deleteFailed logMem
    respondLine mcErrStr t
  | .returnFailed => respondLine mcErrStr t
  | _ => pure t

/-! ## Requests -/

/-- The data that `handle_request` passes to `update_block`. -/
def QueryRequest.body (qr : QueryRequest) : List UInt8 :=
  (qr.data.map fun data => data.bytes qr.dataSize).getD []

/-- `RET_FAILED`. -/
def retFailed : Int := -1

/-- The end of `handle_request`: the state by the result of the storage, and the response. -/
def finishRequest (ret : Int) (success failure : QueryState) (t : QueryTask)
    (logMem : Bool := true) : Except Assertion (Int × QueryTask) := do
  let t ← buildResponse { t with state := if ret = 0 then success else failure } logMem
  pure (if ret = 0 then 0 else retFailed, t)

/-- `handle_request`: the return code and the task. -/
def handleRequest {m : Type → Type} [Monad m] (storage : Call → m Reply) (t : QueryTask)
    (logMem : Bool := true) : m (Except Assertion (Int × QueryTask)) :=
  if t.queryRequest.parseStatus ≠ .succ then
    pure do
      check .state (t.state = .returnFailed)
      let t ← buildResponse t logMem
      pure (0, t)
  else
    match t.queryRequest.cmdType with
    | .set => do
      let reply ← storage (.update t.queryRequest.key t.queryRequest.body)
      pure (finishRequest reply.ret .setSuccess .setFailed t logMem)
    | .get =>
      if t.queryResponse.respDataBuf ≠ none then pure (.error .respData)
      else do
        let reply ← storage (.find t.queryRequest.key)
        pure (finishRequest reply.ret .getSuccess .getFailed { t with
          queryResponse := { t.queryResponse with
            respDataBuf := reply.valuePtr, respDataSize := reply.valueLen } } logMem)
    | .delete => do
      let reply ← storage (.delete t.queryRequest.key)
      pure (finishRequest reply.ret .deleteSuccess .deleteFailed t logMem)
    | _ => pure (.ok (retFailed, t))

/-- What the system answers to `send_response`, and to the `Log` calls of the worker. -/
structure Writes where
  /-- Whether `slab_alloc` returns memory for an error log. -/
  logMem : Bool := true
  /-- Whether `set_block` returns `0`. -/
  setBlock : Bool := true
  /-- What the write of the header returns, none for `-1`. -/
  head : Option ℕ
  /-- What the write of the data returns, none for `-1`. -/
  data : Option ℕ

/-- The last write of `send_response`. -/
def sendData (ws : Writes) (needWrite : ℕ) (t : QueryTask) : Except Assertion (Int × QueryTask) :=
  if ws.data ≠ some needWrite then do
    let t ← t.log (.sendDataFailed needWrite ws.data) ws.logMem
    pure (retFailed, t)
  else pure (0, t)

/-- `send_response`: the return code and the task. -/
def sendResponse (ws : Writes) (t : QueryTask) : Except Assertion (Int × QueryTask) := do
  check .setBlock (ws.setBlock = true)
  if ws.head ≠ some t.queryResponse.respHeadBufSize then do
    let t ← t.log .sendHeaderFailed ws.logMem
    pure (retFailed, t)
  else if t.queryResponse.respDataBuf = none then pure (0, t)
  else if t.queryResponse.respTailorBuf = none then do
    check .respTailor (t.queryResponse.respTailorSize = 0)
    sendData ws t.queryResponse.respDataSize t
  else do
    check .respTailor (t.queryResponse.respTailorSize ≠ 0)
    sendData ws (t.queryResponse.respDataSize + t.queryResponse.respTailorSize) t

/-- What `pipe_event_handler` does with a task: the task that is destroyed. -/
def pipeEvent {m : Type → Type} [Monad m] (storage : Call → m Reply) (ws : Writes) (t : QueryTask) :
    m (Except Assertion QueryTask) := do
  let handled ← handleRequest storage t ws.logMem
  pure do
    let handled ← handled
    let sent ← sendResponse ws handled.2
    pure sent.2

/-! ## What the functions do -/

section Lemmas

variable {t : QueryTask} {logMem : Bool}

/-- The response that is only a line. -/
def QueryTask.withLine (t : QueryTask) (line : List UInt8) : QueryTask :=
  { t with queryResponse := { t.queryResponse with
    respHeadBuf := line, respHeadBufSize := line.length, respDataSize := 0, respDataBuf := none } }

/-- There is no data to send. -/
def QueryResponse.Empty (r : QueryResponse) : Prop :=
  r.respDataBuf = none ∧ r.respDataSize = 0

instance (r : QueryResponse) : Decidable r.Empty :=
  inferInstanceAs (Decidable (_ ∧ _))

lemma respondLine_eq (line : List UInt8) (t : QueryTask) :
    respondLine line t =
      if t.queryResponse.Empty then .ok (t.withLine line) else .error .respData := by
  unfold respondLine
  simp only [check_bind]
  by_cases hsize : t.queryResponse.respDataSize = 0
  · by_cases hbuf : t.queryResponse.respDataBuf = none
    · have hempty : t.queryResponse.Empty := ⟨hbuf, hsize⟩
      rw [if_pos hsize, if_pos hbuf, if_pos hempty]
      rfl
    · have hfull : ¬ t.queryResponse.Empty := fun h => hbuf h.1
      rw [if_pos hsize, if_neg hbuf, if_neg hfull]
  · have hfull : ¬ t.queryResponse.Empty := fun h => hsize h.2
    rw [if_neg hsize, if_neg hfull]

/-- The response to a request that could not be parsed. -/
lemma buildResponse_returnFailed (h : t.state = .returnFailed) :
    buildResponse t logMem = respondLine mcErrStr t := by
  simp only [buildResponse, h]

/-- The lines for the commands that answer with a line when they succeed. -/
inductive SuccessLine : QueryState → List UInt8 → Prop
  /-- A set. -/
  | set : SuccessLine .setSuccess mcSetDoneStr
  /-- A delete. -/
  | delete : SuccessLine .deleteSuccess mcDelDoneStr

/-- The response to a set or delete request that succeeded. -/
lemma finishRequest_success {success failure : QueryState} {line : List UInt8}
    (hline : SuccessLine success line) (hempty : t.queryResponse.Empty) :
    finishRequest 0 success failure t logMem =
      .ok (0, { t with state := success }.withLine line) := by
  have hempty' : ({ t with state := success } : QueryTask).queryResponse.Empty := hempty
  have hbuild : buildResponse { t with state := success } logMem =
      .ok ({ t with state := success }.withLine line) := by
    cases hline with
    | set => simp only [buildResponse, respondLine_eq, if_pos hempty]
    | delete => simp only [buildResponse, respondLine_eq, if_pos hempty]
  simp only [finishRequest, if_true, hbuild]
  rfl

/-- The response with the data of a get request. -/
def QueryTask.withData (t : QueryTask) : QueryTask :=
  { t with
    state := .getSuccess
    queryResponse := { t.queryResponse with
      respHeadBuf := mcGetHeader t.queryRequest.key t.queryResponse.respDataSize
      respHeadBufSize := (mcGetHeader t.queryRequest.key t.queryResponse.respDataSize).length
      respTailorBuf := some mcTermStr
      respTailorSize := mcTermStr.length } }

/-- The response to a get request that succeeded. -/
lemma finishRequest_get (failure : QueryState) (t : QueryTask) :
    finishRequest 0 .getSuccess failure t logMem = .ok (0, t.withData) := rfl

/-- The texts and lines of the failed commands. -/
inductive FailureLine : QueryState → ErrorLog → List UInt8 → Prop
  /-- A failed set. -/
  | set : FailureLine .setFailed .setFailed mcErrStr
  /-- A failed get. -/
  | get : FailureLine .getFailed .getFailed mcGetDoneStr
  /-- A failed delete. -/
  | delete : FailureLine .deleteFailed .deleteFailed mcErrStr

/-- The response to a command that failed: the error is logged, and then the assertions on the data
are made. -/
lemma finishRequest_failure {ret : Int} {success failure : QueryState} {text : ErrorLog}
    {line : List UInt8} (hline : FailureLine failure text line) (hret : ret ≠ 0)
    (hlog : t.errorLog = none) :
    finishRequest ret success failure t =
      if t.queryResponse.Empty then
        .ok (retFailed, { t with state := failure, errorLog := some text }.withLine line)
      else .error .respData := by
  have hlog' : ({ t with state := failure } : QueryTask).errorLog = none := hlog
  have hbuild : buildResponse { t with state := failure } =
      respondLine line { t with state := failure, errorLog := some text } := by
    cases hline with
    | set => simp only [buildResponse, QueryTask.log_of_none _ hlog']; rfl
    | get => simp only [buildResponse, QueryTask.log_of_none _ hlog']; rfl
    | delete => simp only [buildResponse, QueryTask.log_of_none _ hlog']; rfl
  simp only [finishRequest, if_neg hret, hbuild, respondLine_eq]
  split <;> rfl

/-- A command that failed, without memory for the error log. -/
lemma finishRequest_null {ret : Int} {success failure : QueryState} {text : ErrorLog}
    {line : List UInt8} (hline : FailureLine failure text line) (hret : ret ≠ 0)
    (hlog : t.errorLog = none) :
    finishRequest ret success failure t false = .error .logMemory := by
  have hlog' : ({ t with state := failure } : QueryTask).errorLog = none := hlog
  have hbuild : buildResponse { t with state := failure } false = .error .logMemory := by
    cases hline with
    | set => simp only [buildResponse, QueryTask.log_of_null _ hlog']; rfl
    | get => simp only [buildResponse, QueryTask.log_of_null _ hlog']; rfl
    | delete => simp only [buildResponse, QueryTask.log_of_null _ hlog']; rfl
  simp only [finishRequest, if_neg hret, hbuild]
  rfl

end Lemmas

end Linglongta
