import Linglongta.Server.Buffering

/-!
# What a round of the handler can do

`TaskOk` holds of every task in the hands of the assign thread: which states there are, and that an
error is logged only on the way to a refusal.  `Quiet` holds of a task while the handler is not
running.  `queryIoRound_ok` says what one round makes of a task, whatever the system answers, and
`Conn.Ok.run` what any sequence of rounds and events of the timer does.
-/

namespace Linglongta

/-- A task in the hands of the assign thread. -/
structure TaskOk (t : QueryTask) : Prop where
  /-- It is in one of the states of the assign thread. -/
  state : t.state ∈ [QueryState.recvReqHead, .parseReqHead, .recvReqData, .dispatchQueryTask,
    .destroyRecv, .doSync, .doPower, .returnFailed]
  /-- An error is logged only if the request is refused. -/
  logged : t.errorLog ≠ none → t.state = .returnFailed ∨ t.state = .destroyRecv
  /-- A request that is answered with an error could not be parsed, and this has been logged. -/
  failed : t.state = .returnFailed → t.errorLog ≠ none ∧ t.queryRequest.parseStatus ≠ .succ
  /-- A request whose body is received, or that is dispatched, has been parsed. -/
  parsed : t.state = .recvReqData ∨ t.state = .dispatchQueryTask →
    t.queryRequest.parseStatus = .succ
  /-- There is no response yet. -/
  queryResponse : t.queryResponse = .zero

/-- A task while the handler is not running. -/
structure Quiet (t : QueryTask) : Prop where
  /-- It waits for bytes, or to be destroyed. -/
  state : t.state = .recvReqHead ∨ t.state = .recvReqData ∨ t.state = .destroyRecv
  /-- Nothing has been logged. -/
  errorLog : t.errorLog = none

/-- What a function of the assign thread makes of a task: no assertion on `error_log` fails, and the
handler stops only with a quiet task. -/
def ResultOk : Except Assertion (Bool × QueryTask) → Prop
  | .ok (needLoop, t) => TaskOk t ∧ (needLoop = false → Quiet t)
  | .error a => a ≠ .errorLog

section Functions

variable {t : QueryTask} {logMem : Bool}

/-- A task that is going to be destroyed. -/
lemma TaskOk.destroyRecv (hresp : t.queryResponse = .zero) :
    TaskOk { t with state := .destroyRecv } where
  state := by simp
  logged := fun _ => Or.inr rfl
  failed := fun h => by cases h
  parsed := fun h => by rcases h with h | h <;> cases h
  queryResponse := hresp

/-- A task that goes to another state without an error. -/
lemma TaskOk.of_none (hstate : t.state ∈ [QueryState.recvReqHead, .parseReqHead, .recvReqData,
      .dispatchQueryTask, .destroyRecv, .doSync, .doPower]) (hlog : t.errorLog = none)
    (hparsed : t.state = .recvReqData ∨ t.state = .dispatchQueryTask →
      t.queryRequest.parseStatus = .succ) (hresp : t.queryResponse = .zero) : TaskOk t where
  state := List.mem_append_left [QueryState.returnFailed] hstate
  logged := fun h => absurd hlog h
  failed := fun h => by
    rw [h] at hstate
    exact absurd hstate (by decide)
  parsed := hparsed
  queryResponse := hresp

/-- A function that logs the first error of a task and goes on, if there is memory for it. -/
lemma resultOk_log {text : ErrorLog} {f : QueryTask → Except Assertion (Bool × QueryTask)}
    (hlog : t.errorLog = none) (hf : ResultOk (f { t with errorLog := some text })) :
    ResultOk (t.log text logMem >>= f) := by
  cases logMem with
  | true =>
    rw [QueryTask.log_of_none text hlog]
    exact hf
  | false =>
    rw [QueryTask.log_of_null text hlog]
    exact Assertion.noConfusion

/-- So does a function that then gives up. -/
lemma resultOk_log_destroyRecv {text : ErrorLog} {needLoop : Bool} (hlog : t.errorLog = none)
    (hresp : t.queryResponse = .zero) (hloop : needLoop = true) :
    ResultOk (t.log text logMem >>= fun t =>
      changeQueryTaskState .destroyRecv t >>= fun t => pure (needLoop, t)) :=
  resultOk_log hlog ⟨TaskOk.destroyRecv (t := { t with errorLog := some text }) hresp,
    fun h => absurd (hloop.symm.trans h) (by decide)⟩

lemma recvReqHead_ok_of_none (read : ReadResult) (hlog : t.errorLog = none)
    (hresp : t.queryResponse = .zero) : ResultOk (recvReqHead read t logMem) := by
  cases read with
  | error errno => exact resultOk_log_destroyRecv hlog hresp rfl
  | ok bytes =>
    have hlog' : (t.receivedHead bytes).errorLog = none := hlog
    by_cases hnil : bytes = [] ∧ (t.receivedHead bytes).needRead ≠ 0
    · simp only [recvReqHead, if_pos hnil]
      exact ⟨TaskOk.destroyRecv hresp, fun _ => ⟨Or.inr (Or.inr rfl), hlog⟩⟩
    · by_cases hlen : 0 < bytes.length ∧ (bytes.length : Int) ≤ (t.receivedHead bytes).needRead
      · rw [recvReqHead_ok (t := t) (List.length_pos_iff.1 hlen.1) hlen.2]
        refine ⟨TaskOk.of_none (by simp) hlog ?_ hresp, fun h => by cases h⟩
        rintro (h | h) <;> cases h
      · simp only [recvReqHead, if_neg hnil, if_neg hlen]
        exact resultOk_log_destroyRecv hlog' hresp rfl

lemma bufferBody_ok_of_none (slabAlloc : ℕ → Option (ℕ → UInt8)) (tmpBuf : List UInt8)
    (hlog : t.errorLog = none) (hparsed : t.queryRequest.parseStatus = .succ)
    (hresp : t.queryResponse = .zero) : ResultOk (bufferBody slabAlloc tmpBuf t) := by
  cases hmem : slabAlloc t.queryRequest.bodySize with
  | none =>
    rw [bufferBody_of_none tmpBuf hmem]
    exact Assertion.noConfusion
  | some mem =>
    rcases lt_trichotomy (bufferedTask mem tmpBuf t).needRead 0 with hneed | hneed | hneed
    · rw [bufferBody_excess hmem hneed]
      exact ⟨TaskOk.destroyRecv hresp, fun h => by cases h⟩
    · rw [bufferBody_complete hmem hlog hneed]
      exact ⟨TaskOk.of_none (by simp) hlog (fun _ => hparsed) hresp, fun h => by cases h⟩
    · rw [bufferBody_unfinished hmem hlog hneed]
      exact ⟨TaskOk.of_none (by simp) hlog (fun _ => hparsed) hresp,
        fun _ => ⟨Or.inr (Or.inl rfl), hlog⟩⟩

lemma actOnRequest_ok_of_none (slabAlloc : ℕ → Option (ℕ → UInt8)) (tmpBuf : List UInt8)
    {r : Int × QueryRequest} (hr : ParseOutcome r) (hlog : t.errorLog = none)
    (hresp : t.queryResponse = .zero) : ResultOk (actOnRequest slabAlloc tmpBuf r t logMem) := by
  rcases hr with ⟨hret, hsucc, hknown⟩ | ⟨hret, hfailed⟩
  · by_cases hset : r.2.cmdType = .set
    · rw [actOnRequest_set hret hsucc hset]
      exact bufferBody_ok_of_none slabAlloc tmpBuf hlog hsucc hresp
    · obtain ⟨t', hact, hacted⟩ :=
        actOnRequest_accepted slabAlloc tmpBuf hlog hret hsucc hset hknown logMem
      rw [hact]
      refine ⟨?_, fun h => by cases h⟩
      rcases hacted.state with ⟨-, hlog', hstate⟩ | ⟨hfail, -⟩ | ⟨hunknown, -⟩
      · refine TaskOk.of_none ?_ hlog' (fun _ => hacted.parseStatus.trans hsucc)
          (hacted.queryResponse.trans hresp)
        rcases hstate with h | h | h <;> rw [h] <;> decide
      · exact absurd ⟨hret, hsucc⟩ hfail
      · exact absurd hunknown.2 hknown
  · have hne : r.2.parseStatus ≠ .succ := by
      rw [hfailed]
      decide
    have hno : ¬ (r.1 = 0 ∧ r.2.parseStatus = .succ) := fun h => hne h.2
    rw [actOnRequest_refused slabAlloc tmpBuf hno]
    refine resultOk_log hlog ⟨?_, fun h => by cases h⟩
    refine ⟨by simp, fun _ => Or.inl rfl, fun _ => ⟨by simp, hne⟩, ?_, hresp⟩
    rintro (h | h) <;> cases h

lemma parseQueryRequestHead_ok_of_none (slabAlloc : ℕ → Option (ℕ → UInt8)) (hlog : t.errorLog = none)
    (hresp : t.queryResponse = .zero) : ResultOk (parseQueryRequestHead slabAlloc t logMem) := by
  unfold parseQueryRequestHead
  cases hfind : tryParseMemcachedStringHead t.queryRequest with
  | none =>
    by_cases hfull : t.haveRead = maxQueryHeaderSize
    · simp only [changeState_recvReqHead_full hfull, bind_assoc]
      refine resultOk_log hlog ⟨TaskOk.destroyRecv (t := { t with
        needRead := 0, errorLog := some .headTooLong }) hresp, fun h => by cases h⟩
    · simp only [changeState_recvReqHead hfull]
      refine ⟨TaskOk.of_none (by simp) hlog ?_ hresp, fun h => by cases h⟩
      rintro (h | h) <;> cases h
  | some i =>
    simp only [check_bind]
    split
    · exact actOnRequest_ok_of_none slabAlloc _ (parse_outcome _) hlog hresp
    · exact Assertion.noConfusion

lemma recvReqData_ok_of_none (read : ReadResult) (hstate : t.state = .recvReqData)
    (hlog : t.errorLog = none) (hparsed : t.queryRequest.parseStatus = .succ)
    (hresp : t.queryResponse = .zero) : ResultOk (recvReqData read t logMem) := by
  by_cases hneed : t.needRead = 0
  · simp only [recvReqData, if_pos hneed, changeState_dispatch hlog]
    exact ⟨TaskOk.of_none (by simp) hlog (fun _ => hparsed) hresp, fun h => by cases h⟩
  · cases read with
    | error errno =>
      cases errno with
      | other =>
        rw [recvReqData, if_neg hneed]
        exact resultOk_log_destroyRecv hlog hresp rfl
      | again =>
        have hagain : recvReqData (.error .again) t logMem = .ok (true, t) := if_neg hneed
        rw [hagain]
        exact ⟨TaskOk.of_none (by simp [hstate]) hlog (fun _ => hparsed) hresp, fun h => by cases h⟩
      | intr =>
        have hintr : recvReqData (.error .intr) t logMem = .ok (true, t) := if_neg hneed
        rw [hintr]
        exact ⟨TaskOk.of_none (by simp [hstate]) hlog (fun _ => hparsed) hresp, fun h => by cases h⟩
    | ok bytes =>
      have hlog' : (t.received bytes).errorLog = none := hlog
      rw [recvReqData, if_neg hneed]
      by_cases hnil : bytes = []
      · simp only [if_pos hnil]
        exact resultOk_log_destroyRecv hlog' hresp rfl
      · by_cases hlt : (bytes.length : Int) < (t.received bytes).needRead
        · simp only [if_neg hnil, if_pos hlt]
          exact ⟨TaskOk.of_none (by simp [QueryTask.received, hstate]) hlog (fun _ => hparsed) hresp,
            fun _ => ⟨Or.inr (Or.inl hstate), hlog⟩⟩
        · by_cases heq : (bytes.length : Int) = (t.received bytes).needRead
          · simp only [if_neg hnil, if_neg hlt, if_pos heq, changeState_dispatch hlog']
            exact ⟨TaskOk.of_none (by simp) hlog (fun _ => hparsed) hresp, fun h => by cases h⟩
          · simp only [if_neg hnil, if_neg hlt, if_neg heq]
            exact resultOk_log_destroyRecv hlog' hresp rfl

end Functions

/-! ## Rounds -/

/-- What a round makes of a task. -/
def RoundOk (t : QueryTask) : Except Assertion Round → Prop
  | .ok (.next needLoop t') => TaskOk t' ∧ (needLoop = false → Quiet t')
  | .ok (.dispatched t') => t' = t ∧ (t.state = .dispatchQueryTask ∨ t.state = .returnFailed)
  | .ok (.destroyed t') => t' = t
  | .ok (.exited t') => t' = t
  | .error a => a ≠ .errorLog

/-- A round that calls a function which returns `need_loop`. -/
lemma ResultOk.round {t : QueryTask} {r : Except Assertion (Bool × QueryTask)} (h : ResultOk r) :
    RoundOk t (r >>= fun r => pure (.next r.1 r.2)) := by
  rcases r with a | ⟨needLoop, t'⟩
  · exact h
  · exact h

/-- What a round makes of a task, if `need_loop` is true or the task is quiet. -/
lemma queryIoRound_ok {t : QueryTask} (ht : TaskOk t) (a : Answer) {needLoop : Bool}
    (hloop : needLoop = true ∨ Quiet t) : RoundOk t (queryIoRound a needLoop t) := by
  have hnone : t.state ≠ .returnFailed → t.state ≠ .destroyRecv → t.errorLog = none := by
    intro h₁ h₂
    by_contra hlog
    rcases ht.logged hlog with h | h
    · exact h₁ h
    · exact h₂ h
  have hstate := ht.state
  unfold queryIoRound
  cases hs : t.state with
  | recvReqHead =>
    exact (recvReqHead_ok_of_none a.read (hnone (by simp [hs]) (by simp [hs]))
      ht.queryResponse).round
  | parseReqHead =>
    exact (parseQueryRequestHead_ok_of_none a.slabAlloc (hnone (by simp [hs]) (by simp [hs]))
      ht.queryResponse).round
  | recvReqData =>
    exact (recvReqData_ok_of_none a.read hs (hnone (by simp [hs]) (by simp [hs]))
      (ht.parsed (Or.inl hs)) ht.queryResponse).round
  | dispatchQueryTask => exact ⟨rfl, Or.inl hs⟩
  | returnFailed => exact ⟨rfl, Or.inr hs⟩
  | destroyRecv => exact rfl
  | doPower => exact rfl
  | doSync =>
    refine ⟨TaskOk.destroyRecv ht.queryResponse, fun hfalse => ?_⟩
    rcases hloop with htrue | hquiet
    · rw [htrue] at hfalse
      cases hfalse
    · exact absurd hquiet.state (by simp [hs])
  | setSuccess => simp [hs] at hstate
  | getSuccess => simp [hs] at hstate
  | deleteSuccess => simp [hs] at hstate
  | setFailed => simp [hs] at hstate
  | getFailed => simp [hs] at hstate
  | deleteFailed => simp [hs] at hstate
  | returnRespHead => simp [hs] at hstate
  | returnRespData => simp [hs] at hstate

/-! ## Runs -/

namespace Conn

/-- What holds of a connection. -/
def Ok : Conn → Prop
  | watched t => TaskOk t ∧ Quiet t
  | looping t => TaskOk t
  | dispatched t => TaskOk t ∧ (t.state = .dispatchQueryTask ∨ t.state = .returnFailed)
  | destroyed _ => True
  | exited _ => True
  | aborted a => a ≠ .errorLog

lemma ok_accepted : Ok (watched acceptedTask) := by
  refine ⟨TaskOk.of_none (by decide) rfl ?_ rfl, Or.inl rfl, rfl⟩
  rintro (h | h) <;> cases h

/-- What a round leads to. -/
lemma ok_ofRound {t : QueryTask} (ht : TaskOk t) {r : Except Assertion Round} (h : RoundOk t r) :
    Ok (ofRound r) := by
  match r, h with
  | .ok (.next true t'), h => exact h.1
  | .ok (.next false t'), h => exact ⟨h.1, h.2 rfl⟩
  | .ok (.dispatched t'), h => exact ⟨h.1 ▸ ht, h.1 ▸ h.2⟩
  | .ok (.destroyed t'), h => exact trivial
  | .ok (.exited t'), h => exact trivial
  | .error a, h => exact h

/-- One round keeps the invariant. -/
lemma Ok.round {c : Conn} (h : c.Ok) (a : Answer) : (c.round a).Ok := by
  cases c with
  | watched t => exact ok_ofRound h.1 (queryIoRound_ok h.1 a (Or.inr h.2))
  | looping t => exact ok_ofRound h (queryIoRound_ok h a (Or.inl rfl))
  | dispatched t => exact h
  | destroyed t => exact h
  | exited t => exact h
  | aborted a => exact h

/-- An event of the timer keeps the invariant. -/
lemma Ok.timeout {c : Conn} (h : c.Ok) (logMem : Bool) : (c.timeout logMem).Ok := by
  cases c with
  | watched t =>
    cases logMem with
    | true =>
      simp only [Conn.timeout, queryTimer, QueryTask.log_of_none _ h.2.errorLog]
      exact trivial
    | false =>
      simp only [Conn.timeout, queryTimer, QueryTask.log_of_null _ h.2.errorLog]
      exact Assertion.noConfusion
  | looping t => exact h
  | dispatched t => exact h
  | destroyed t => exact h
  | exited t => exact h
  | aborted a => exact h

/-- A run keeps the invariant. -/
lemma Ok.run {c : Conn} (h : c.Ok) (es : List Event) : (c.run es).Ok := by
  induction es generalizing c with
  | nil => exact h
  | cons e es ih =>
    cases e with
    | io a => exact ih (h.round a)
    | timer logMem => exact ih (h.timeout logMem)

end Conn

end Linglongta
