import Linglongta.Server.QueryThread
import Linglongta.Server.Rounds

/-!
# Error logs

A task has room for one error.  `Log` asserts that there is none yet, and it is called in the assign
thread, in `build_response` and in `send_response`.

In the assign thread an error is logged at most once (`Conn.Ok.run`).  A worker however may log that
the header could not be sent after the failure of the request itself has been logged.
`error_log_asserts_hold_iff` says that this is the only way in which an assertion on `error_log` can
fail.  It does not come to this if there is no memory for the log of the failure, since the process
stops before.
-/

namespace Linglongta

open CString

/-- The request is answered with a failure: it could not be parsed, or the storage operation failed
and left no data. -/
def AnswersFailure (storage : Call → Reply) (qr : QueryRequest) : Prop :=
  qr.parseStatus ≠ .succ ∨
    (qr.cmdType = .set ∧ (storage (.update qr.key qr.body)).ret ≠ 0) ∨
    (qr.cmdType = .get ∧ (storage (.find qr.key)).ret ≠ 0 ∧
      (storage (.find qr.key)).valuePtr = none ∧ (storage (.find qr.key)).valueLen = 0) ∨
    (qr.cmdType = .delete ∧ (storage (.delete qr.key)).ret ≠ 0)

/-- The line with which a failure is answered. -/
def failureLine (qr : QueryRequest) : List UInt8 :=
  if qr.parseStatus = .succ ∧ qr.cmdType = .get then mcGetDoneStr else mcErrStr

/-- No assertion on `error_log` fails in the life of a task: in what the assign thread does with it,
and in what a worker does with it if it is dispatched. -/
def ErrorLogAssertsHold (es : List Conn.Event) (storage : Call → Reply) (ws : Writes) : Prop :=
  Conn.run es (.watched acceptedTask) ≠ .aborted .errorLog ∧
    ∀ t, Conn.run es (.watched acceptedTask) = .dispatched t →
      pipeEvent (m := Id) storage ws t ≠ .error .errorLog

section Sending

variable {ws : Writes} {t : QueryTask}

/-- The first error of a task can be logged, or there is no memory for it. -/
lemma log_ne_errorLog {text : ErrorLog} {logMem : Bool}
    {f : QueryTask → Except Assertion (Int × QueryTask)} (hlog : t.errorLog = none)
    (hf : ∀ t, f t ≠ .error .errorLog) :
    (t.log text logMem >>= f) ≠ .error .errorLog := by
  cases logMem with
  | true =>
    rw [QueryTask.log_of_none text hlog]
    exact hf _
  | false =>
    rw [QueryTask.log_of_null text hlog]
    exact fun h => Assertion.noConfusion (Except.error.inj h)

/-- A task that has an error already must not fail to send its header. -/
lemma sendResponse_logged (hlog : t.errorLog ≠ none) (hempty : t.queryResponse.respDataBuf = none) :
    sendResponse ws t = .error .errorLog ↔
      ws.setBlock = true ∧ ws.head ≠ some t.queryResponse.respHeadBufSize := by
  unfold sendResponse
  simp only [check_bind]
  by_cases hblock : ws.setBlock = true
  · by_cases hhead : ws.head = some t.queryResponse.respHeadBufSize
    · simp [hblock, hhead, hempty, pure, Except.pure]
    · rw [if_pos hblock, if_pos hhead, QueryTask.log_of_some _ hlog]
      simp [hblock, hhead, bind, Except.bind]
  · simp [hblock]

/-- A task without an error can log one. -/
lemma sendData_of_none (hlog : t.errorLog = none) (needWrite : ℕ) :
    sendData ws needWrite t ≠ .error .errorLog := by
  unfold sendData
  split
  · exact log_ne_errorLog hlog fun t h => by cases h
  · simp [pure, Except.pure]

lemma sendResponse_of_none (hlog : t.errorLog = none) : sendResponse ws t ≠ .error .errorLog := by
  unfold sendResponse
  simp only [check_bind]
  split
  · split
    · exact log_ne_errorLog hlog fun t h => by cases h
    · split
      · simp [pure, Except.pure]
      · split
        · split
          · exact sendData_of_none hlog _
          · simp
        · split
          · exact sendData_of_none hlog _
          · simp
  · simp

end Sending

/-! ## Handled requests -/

section Handling

variable {t : QueryTask} {storage : Call → Reply} {logMem : Bool}

/-- A task that a worker gets. -/
structure Dispatched (t : QueryTask) : Prop where
  /-- It is sound. -/
  ok : TaskOk t
  /-- It is in one of these states. -/
  state : t.state = .dispatchQueryTask ∨ t.state = .returnFailed

/-- The failure with which a request is answered has been logged: in the assign thread if the
request could not be parsed, and else by the worker, if there is memory. -/
def FailureLogged (storage : Call → Reply) (logMem : Bool) (qr : QueryRequest) : Prop :=
  AnswersFailure storage qr ∧ (qr.parseStatus ≠ .succ ∨ logMem = true)

/-- What a handled task is like before the response is sent. -/
def HandledOk (storage : Call → Reply) (logMem : Bool) (qr : QueryRequest) :
    Except Assertion (Int × QueryTask) → Prop
  | .ok (_, t) =>
    (FailureLogged storage logMem qr ∧ t.errorLog ≠ none ∧ t.queryResponse.respDataBuf = none ∧
      t.queryResponse.respHeadBufSize = (failureLine qr).length) ∨
    (¬ FailureLogged storage logMem qr ∧ t.errorLog = none)
  | .error a => ¬ FailureLogged storage logMem qr ∧ a ≠ .errorLog

/-- A request that could not be parsed. -/
lemma handleRequest_unparsed (h : Dispatched t) (hparse : t.queryRequest.parseStatus ≠ .succ) :
    HandledOk storage logMem t.queryRequest (handleRequest (m := Id) storage t logMem) := by
  have hstate : t.state = .returnFailed := by
    rcases h.state with hdisp | hfail
    · exact absurd (h.ok.parsed (Or.inr hdisp)) hparse
    · exact hfail
  have hempty : t.queryResponse.Empty := by
    rw [h.ok.queryResponse]
    exact ⟨rfl, rfl⟩
  have hbuild : buildResponse t logMem = .ok (t.withLine mcErrStr) := by
    rw [buildResponse_returnFailed hstate, respondLine_eq, if_pos hempty]
  have hhandle : handleRequest (m := Id) storage t logMem = .ok (0, t.withLine mcErrStr) := by
    unfold handleRequest
    rw [if_pos hparse, hbuild]
    simp only [check_bind, if_pos hstate]
    rfl
  rw [hhandle]
  refine Or.inl ⟨⟨Or.inl hparse, Or.inl hparse⟩, (h.ok.failed hstate).1, rfl, ?_⟩
  rw [failureLine, if_neg fun hget => hparse hget.1]
  rfl

/-- The end of a request, given when it is answered with a failure. -/
lemma finish_handledOk {qr : QueryRequest} {ret : Int} {success failure : QueryState}
    {text : ErrorLog} {line : List UInt8} (hline : FailureLine failure text line)
    (hqr : failureLine qr = line) (hparse : qr.parseStatus = .succ) (hlog : t.errorLog = none)
    (hfail : AnswersFailure storage qr ↔ ret ≠ 0 ∧ t.queryResponse.Empty)
    (hsucc : ret = 0 → ∃ t', finishRequest ret success failure t logMem = .ok (0, t') ∧
      t'.errorLog = none) :
    HandledOk storage logMem qr (finishRequest ret success failure t logMem) := by
  by_cases hret : ret = 0
  · obtain ⟨t', hfinish, hlog'⟩ := hsucc hret
    rw [hfinish]
    exact Or.inr ⟨fun h => (hfail.1 h.1).1 hret, hlog'⟩
  · cases logMem with
    | true =>
      rw [finishRequest_failure hline hret hlog]
      by_cases hempty : t.queryResponse.Empty
      · rw [if_pos hempty]
        rw [HandledOk, hqr]
        exact Or.inl ⟨⟨hfail.2 ⟨hret, hempty⟩, Or.inr rfl⟩, Option.some_ne_none _, rfl, rfl⟩
      · rw [if_neg hempty]
        exact ⟨fun h => hempty (hfail.1 h.1).2, Assertion.noConfusion⟩
    | false =>
      rw [finishRequest_null hline hret hlog]
      refine ⟨fun h => ?_, Assertion.noConfusion⟩
      rcases h.2 with hne | hmem
      · exact hne hparse
      · cases hmem

/-- A request that has been parsed. -/
lemma handleRequest_parsed (h : Dispatched t) (hparse : t.queryRequest.parseStatus = .succ) :
    HandledOk storage logMem t.queryRequest (handleRequest (m := Id) storage t logMem) := by
  have hlog : t.errorLog = none := by
    by_contra hlog
    rcases h.ok.logged hlog with hstate | hstate
    · exact (h.ok.failed hstate).2 hparse
    · rcases h.state with hdisp | hfail
      · exact absurd (hstate.symm.trans hdisp) (by decide)
      · exact absurd (hstate.symm.trans hfail) (by decide)
  have hempty : t.queryResponse.Empty := by
    rw [h.ok.queryResponse]
    exact ⟨rfl, rfl⟩
  unfold handleRequest
  rw [if_neg (not_not.2 hparse)]
  cases hcmd : t.queryRequest.cmdType with
  | set =>
    have hline : failureLine t.queryRequest = mcErrStr := if_neg (by simp [hcmd])
    refine finish_handledOk .set hline hparse hlog ?_ fun hret => ?_
    · simp [AnswersFailure, hparse, hcmd, hempty]
    · rw [hret, finishRequest_success .set hempty]
      exact ⟨_, rfl, hlog⟩
  | delete =>
    have hline : failureLine t.queryRequest = mcErrStr := if_neg (by simp [hcmd])
    refine finish_handledOk .delete hline hparse hlog ?_ fun hret => ?_
    · simp [AnswersFailure, hparse, hcmd, hempty]
    · rw [hret, finishRequest_success .delete hempty]
      exact ⟨_, rfl, hlog⟩
  | get =>
    have hline : failureLine t.queryRequest = mcGetDoneStr := if_pos ⟨hparse, hcmd⟩
    have hbuf : ¬ t.queryResponse.respDataBuf ≠ none := not_not.2 hempty.1
    simp only [if_neg hbuf]
    refine finish_handledOk .get hline hparse hlog ?_ fun hret => ?_
    · simp [AnswersFailure, hparse, hcmd, QueryResponse.Empty]
    · rw [hret, finishRequest_get]
      exact ⟨_, rfl, hlog⟩
  | sync => exact Or.inr ⟨by simp [FailureLogged, AnswersFailure, hparse, hcmd], hlog⟩
  | power => exact Or.inr ⟨by simp [FailureLogged, AnswersFailure, hparse, hcmd], hlog⟩
  | unknown => exact Or.inr ⟨by simp [FailureLogged, AnswersFailure, hparse, hcmd], hlog⟩

/-- When an assertion on `error_log` fails in a worker. -/
lemma pipeEvent_errorLog_iff (h : Dispatched t) (ws : Writes) :
    pipeEvent (m := Id) storage ws t = .error .errorLog ↔
      FailureLogged storage ws.logMem t.queryRequest ∧ ws.setBlock = true ∧
        ws.head ≠ some (failureLine t.queryRequest).length := by
  have hhandled : HandledOk storage ws.logMem t.queryRequest
      (handleRequest (m := Id) storage t ws.logMem) := by
    by_cases hparse : t.queryRequest.parseStatus = .succ
    · exact handleRequest_parsed h hparse
    · exact handleRequest_unparsed h hparse
  have hpipe : pipeEvent (m := Id) storage ws t =
      (do
        let handled ← handleRequest (m := Id) storage t ws.logMem
        let sent ← sendResponse ws handled.2
        pure sent.2 : Except Assertion QueryTask) := rfl
  rw [hpipe]
  rcases hres : handleRequest (m := Id) storage t ws.logMem with a | ⟨ret, t'⟩
  · rw [hres] at hhandled
    have herr : ∀ g : Int × QueryTask → Except Assertion QueryTask,
        (Except.error a >>= g) = .error a := fun _ => rfl
    have hne : a ≠ .errorLog := hhandled.2
    rw [herr]
    exact iff_of_false (fun h => hne (Except.error.inj h)) fun h => hhandled.1 h.1
  · rw [hres] at hhandled
    have hsend : ∀ r : Except Assertion (Int × QueryTask),
        (r >>= fun sent => pure sent.2 : Except Assertion QueryTask) = .error .errorLog ↔
          r = .error .errorLog := by
      rintro (a | ⟨ret, t⟩)
      · simp [bind, Except.bind]
      · simp [bind, Except.bind, pure, Except.pure]
    show (sendResponse ws t' >>= fun sent => pure sent.2 : Except Assertion QueryTask) = _ ↔ _
    rw [hsend]
    rcases hhandled with ⟨hfail, hlog, hbuf, hsize⟩ | ⟨hfail, hlog⟩
    · rw [sendResponse_logged hlog hbuf, hsize]
      simp [hfail]
    · simp [hfail, sendResponse_of_none hlog]

end Handling

/-- Error logging.  For every sequence of reads, events of the timer and answers of the system,
every result of the storage and every outcome of the writes, no assertion on `error_log` fails in
the life of a task if and only if the header of the response is written completely whenever the task
is dispatched, its request is answered with a failure, and this failure has been logged, for which a
worker needs memory. -/
theorem error_log_asserts_hold_iff (es : List Conn.Event) (storage : Call → Reply) (ws : Writes) :
    ErrorLogAssertsHold es storage ws ↔
      ∀ t, Conn.run es (.watched acceptedTask) = .dispatched t →
        AnswersFailure storage t.queryRequest →
        (t.queryRequest.parseStatus ≠ .succ ∨ ws.logMem = true) → ws.setBlock = true →
          ws.head = some (failureLine t.queryRequest).length := by
  have hok := Conn.ok_accepted.run es
  have hdisp : ∀ t, Conn.run es (.watched acceptedTask) = .dispatched t → Dispatched t := by
    intro t ht
    rw [ht] at hok
    exact ⟨hok.1, hok.2⟩
  constructor
  · rintro ⟨-, hworker⟩ t ht hfail hlogged hblock
    by_contra hhead
    exact hworker t ht
      ((pipeEvent_errorLog_iff (hdisp t ht) ws).2 ⟨⟨hfail, hlogged⟩, hblock, hhead⟩)
  · intro hcond
    refine ⟨fun habort => ?_, fun t ht habort => ?_⟩
    · rw [habort] at hok
      exact hok rfl
    · obtain ⟨⟨hfail, hlogged⟩, hblock, hhead⟩ :=
        (pipeEvent_errorLog_iff (hdisp t ht) ws).1 habort
      exact hhead (hcond t ht hfail hlogged hblock)

/-- The rounds in which a head is read, parsed and dispatched, with memory for whatever is asked. -/
def headRounds (bytes : List UInt8) : List Conn.Event :=
  [.io { read := .ok bytes, slabAlloc := plentyMemory, needLoop := true },
    .io { read := .ok [], slabAlloc := plentyMemory, needLoop := true },
    .io { read := .ok [], slabAlloc := plentyMemory, needLoop := true }]

/-- A head that cannot be parsed is given to a worker. -/
lemma headRounds_refused {s : List UInt8} (hs : IsHead s)
    (hfail : (parseMemcachedStringHead (headRequest s [])).1 ≠ 0) :
    ∃ t, Conn.run (headRounds (s ++ (mcTermStr ++ []))) (.watched acceptedTask) = .dispatched t ∧
      t.queryRequest.parseStatus ≠ .succ := by
  have hlen : (s ++ (mcTermStr ++ [])).length ≤ maxQueryHeaderSize := by simpa using hs.short.le
  have hfailed : (parseMemcachedStringHead (headRequest s [])).2.parseStatus = .failed := by
    rcases parse_outcome (headRequest s []) with ⟨hret, -⟩ | ⟨-, hfailed⟩
    · exact absurd hret hfail
    · exact hfailed
  obtain ⟨t, hact, hacted⟩ := actOnRequest_other plentyMemory []
    (t := receivedTask (s ++ (mcTermStr ++ []))) rfl fun h => hfail h.1
  have hsucc : (parseMemcachedStringHead (headRequest s [])).2.parseStatus ≠ .succ := by
    rw [hfailed]
    decide
  have hstate : t.state = .returnFailed := by
    rcases hacted.state with ⟨h, -⟩ | ⟨-, -, h⟩ | ⟨⟨h, -⟩, -⟩
    · exact absurd h hsucc
    · exact h
    · exact absurd h hsucc
  refine ⟨t, ?_, by rwa [hacted.parseStatus]⟩
  simp only [headRounds, Conn.run, List.foldl_cons, List.foldl_nil, Conn.next]
  rw [round_received plentyMemory (by simp [mcTermStr]) hlen, round_parse _ hs hlen, hact,
    Conn.ofResult, Conn.round_returnFailed _ hstate]

/-- The request `x`, which cannot be parsed, arrives in one read, and the header of the answer
cannot be written.  There is memory for whatever is asked. -/
theorem error_log_refused_unsent :
    ¬ ErrorLogAssertsHold (headRounds (ascii ['x'] ++ mcTermStr)) (fun _ => ⟨0, none, 0⟩)
      { head := none, data := none } := by
  have hs : IsHead (ascii ['x']) := ⟨by decide, by decide, by decide⟩
  obtain ⟨t, hrun, hfail⟩ := headRounds_refused hs (by decide +kernel)
  rw [List.append_nil] at hrun
  have hok := Conn.ok_accepted.run (headRounds (ascii ['x'] ++ mcTermStr))
  rw [hrun] at hok
  refine fun hhold => hhold.2 t hrun ?_
  exact (pipeEvent_errorLog_iff ⟨hok.1, hok.2⟩ _).2 ⟨⟨Or.inl hfail, Or.inl hfail⟩, rfl, by simp⟩

end Linglongta
