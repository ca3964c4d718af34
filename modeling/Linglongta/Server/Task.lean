import Linglongta.Server.Protocol

/-!
# Query tasks

`struct query_task_s` of `query_thread.h`, the `Log` macro and `change_query_task_state`.  A task
belongs to one connection; the assign thread fills in its request and a worker its response.

A function that may fail an assertion returns an `Except Assertion`: the error says which assertion
has failed, and the process stops there.  `Log` asks `slab_alloc` for memory and does not look at the
answer; without memory it writes through `NULL`, which stops the process too.
-/

namespace Linglongta

/-- `enum query_state_e`. -/
inductive QueryState
  /-- `s_recv_req_head`. -/
  | recvReqHead
  /-- `s_parse_req_head`. -/
  | parseReqHead
  /-- `s_recv_req_data`. -/
  | recvReqData
  /-- `s_dispatch_query_task`. -/
  | dispatchQueryTask
  /-- `s_destroy_recv`. -/
  | destroyRecv
  /-- `s_do_sync`. -/
  | doSync
  /-- `s_do_power`. -/
  | doPower
  /-- `s_set_success`. -/
  | setSuccess
  /-- `s_get_success`. -/
  | getSuccess
  /-- `s_delete_success`. -/
  | deleteSuccess
  /-- `s_set_failed`. -/
  | setFailed
  /-- `s_get_failed`. -/
  | getFailed
  /-- `s_delete_failed`. -/
  | deleteFailed
  /-- `s_return_resp_head`. -/
  | returnRespHead
  /-- `s_return_resp_data`. -/
  | returnRespData
  /-- `s_return_failed`. -/
  | returnFailed
deriving DecidableEq

/-- What `errno` may say after a failed read. -/
inductive Errno
  /-- `EAGAIN`. -/
  | again
  /-- `EINTR`. -/
  | intr
  /-- Anything else. -/
  | other
deriving DecidableEq

/-- The texts of the `Log` calls, with the values they print. -/
inductive ErrorLog
  /-- Request header is longger than expected. -/
  | headTooLong
  /-- `net_read` failed, in `recv_req_head`. -/
  | netRead (needRead : Int) (haveRead : ℕ) (errno : Errno)
  /-- Read request head failed: unknown. -/
  | readUnknown
  /-- Parse request failed. -/
  | parseFailed (cmdType : CmdType)
  /-- Oops! cmd type. -/
  | unexpectedCmdType (cmdType : CmdType)
  /-- Remote reset connection unexpected. -/
  | remoteReset (needRead : Int) (haveRead : ℕ)
  /-- Read request data failed. -/
  | readDataFailed (errno : Errno)
  /-- Read request timeout. -/
  | readTimeout (haveRead : ℕ) (needRead : Int)
  /-- Set cmd failed. -/
  | setFailed
  /-- Get cmd failed. -/
  | getFailed
  /-- Delete cmd failed. -/
  | deleteFailed
  /-- Send header failed. -/
  | sendHeaderFailed
  /-- Send data failed. -/
  | sendDataFailed (needWrite : ℕ) (nwritten : Option ℕ)
deriving DecidableEq

/-- `struct query_response_s`. -/
structure QueryResponse where
  /-- `resp_head_buf`. -/
  respHeadBuf : List UInt8
  /-- `resp_head_buf_size`. -/
  respHeadBufSize : ℕ
  /-- `resp_data_buf`, none for `NULL`. -/
  respDataBuf : Option (List UInt8)
  /-- `resp_data_size`. -/
  respDataSize : ℕ
  /-- `resp_tailor_buf`, none for `NULL`. -/
  respTailorBuf : Option (List UInt8)
  /-- `resp_tailor_size`. -/
  respTailorSize : ℕ

/-- A zeroed response. -/
def QueryResponse.zero : QueryResponse := ⟨[], 0, none, 0, none, 0⟩

/-- `struct query_task_s`. -/
structure QueryTask where
  /-- `error_log`, none for `NULL`. -/
  errorLog : Option ErrorLog
  /-- `state`. -/
  state : QueryState
  /-- `have_read`. -/
  haveRead : ℕ
  /-- `need_read`. -/
  needRead : Int
  /-- `query_request`. -/
  queryRequest : QueryRequest
  /-- `query_response`. -/
  queryResponse : QueryResponse

/-- What stops the process: the assertions of the two threads, and a `Log` without memory. -/
inductive Assertion
  /-- An assertion on `error_log`. -/
  | errorLog
  /-- `have_read` covers the head. -/
  | haveRead
  /-- `request->data != NULL`. -/
  | data
  /-- The state of a request that could not be parsed is `s_return_failed`. -/
  | state
  /-- An assertion on `resp_data_size` or `resp_data_buf`. -/
  | respData
  /-- `set_block` succeeds. -/
  | setBlock
  /-- An assertion on `resp_tailor_size`. -/
  | respTailor
  /-- Not an assertion: the `snprintf` of `Log` writes through `NULL`. -/
  | logMemory
deriving DecidableEq

/-- `assert(3)`: the process stops unless the condition holds. -/
def check (a : Assertion) (p : Prop) [Decidable p] : Except Assertion Unit :=
  if p then .ok () else .error a

/-- `Log`.  `logMem` says whether its `slab_alloc` returns memory, here and in the functions that
log; where it is left out, it does. -/
def QueryTask.log (text : ErrorLog) (t : QueryTask) (logMem : Bool := true) :
    Except Assertion QueryTask := do
  check .errorLog (t.errorLog = none)
  check .logMemory (logMem = true)
  pure { t with errorLog := some text }

/-- `change_query_task_state`. -/
def changeQueryTaskState (newState : QueryState) (t : QueryTask) (logMem : Bool := true) :
    Except Assertion QueryTask :=
  let t := { t with state := newState }
  match newState with
  | .recvReqHead =>
    let t := { t with needRead := (maxQueryHeaderSize : Int) - t.haveRead }
    if t.needRead = 0 then do
      let t ← t.log .headTooLong logMem
      pure { t with state := .destroyRecv }
    else pure t
  | .recvReqData => do
    check .errorLog (t.errorLog = none)
    pure t
  | .dispatchQueryTask => do
    check .errorLog (t.errorLog = none)
    pure { t with queryRequest :=
      { t.queryRequest with dataSize := toSizeT ((t.queryRequest.dataSize : Int) - 2) } }
  | .returnFailed => do
    check .errorLog (t.errorLog ≠ none)
    pure t
  | _ => pure t

/-! ## What the functions do when no assertion fails -/

section Lemmas

variable {t : QueryTask} {logMem : Bool}

@[simp] lemma check_bind {a : Assertion} {p : Prop} [Decidable p] {α : Type}
    (f : Unit → Except Assertion α) :
    check a p >>= f = if p then f () else .error a := by
  unfold check
  split <;> rfl

lemma QueryTask.log_of_none (text : ErrorLog) (h : t.errorLog = none) :
    t.log text = .ok { t with errorLog := some text } := by
  simp [QueryTask.log, h, pure, Except.pure]

lemma QueryTask.log_of_some (text : ErrorLog) (h : t.errorLog ≠ none) :
    t.log text logMem = .error .errorLog := by
  simp only [QueryTask.log, check_bind, if_neg h]

/-- Without memory, the write through `NULL` comes after the assertion. -/
lemma QueryTask.log_of_null (text : ErrorLog) (h : t.errorLog = none) :
    t.log text false = .error .logMemory := by
  simp only [QueryTask.log, check_bind, if_pos h, Bool.false_eq_true, if_false]

lemma changeState_recvReqHead (h : t.haveRead ≠ maxQueryHeaderSize) :
    changeQueryTaskState .recvReqHead t logMem = .ok { t with
      state := .recvReqHead, needRead := (maxQueryHeaderSize : Int) - t.haveRead } := by
  have hne : ¬ ((maxQueryHeaderSize : Int) - t.haveRead = 0) := by omega
  simp only [changeQueryTaskState, if_neg hne]
  rfl

/-- The head buffer is full. -/
lemma changeState_recvReqHead_full (h : t.haveRead = maxQueryHeaderSize) :
    changeQueryTaskState .recvReqHead t logMem =
      QueryTask.log .headTooLong { t with state := .recvReqHead, needRead := 0 } logMem >>=
        fun t => pure { t with state := .destroyRecv } := by
  simp [changeQueryTaskState, h]

lemma changeState_recvReqData (h : t.errorLog = none) :
    changeQueryTaskState .recvReqData t logMem = .ok { t with state := .recvReqData } := by
  simp [changeQueryTaskState, h, pure, Except.pure]

lemma changeState_dispatch (h : t.errorLog = none) :
    changeQueryTaskState .dispatchQueryTask t logMem = .ok { t with
      state := .dispatchQueryTask
      queryRequest := { t.queryRequest with
        dataSize := toSizeT ((t.queryRequest.dataSize : Int) - 2) } } := by
  simp [changeQueryTaskState, h, pure, Except.pure]

lemma changeState_destroyRecv :
    changeQueryTaskState .destroyRecv t logMem = .ok { t with state := .destroyRecv } := rfl

end Lemmas

end Linglongta
