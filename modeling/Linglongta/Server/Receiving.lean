import Linglongta.Server.AssignThread

/-!
# Requests whose head arrives in one piece

A head is a string that ends with CRLF and has no other one.  `IsHead s` says that `s` is a head
without its line end.  If it arrives with the first read, perhaps with the first bytes of the body
behind it, then `parse_query_request_head` finds it, terminates it and acts on what
`parse_memcached_string_head` makes of it (`parse_receivedTask`).
-/

namespace Linglongta

open CString

/-! ## Heads -/

/-- A head without its line end. -/
structure IsHead (s : List UInt8) : Prop where
  /-- There is no zero byte. -/
  noNul : 0 ∉ s
  /-- There is no CRLF. -/
  noTerm : strstr mcTermStr s = none
  /-- The head fits the buffer, with a zero byte behind it. -/
  short : s.length + mcTermStr.length < maxQueryHeaderSize

/-- The first CRLF is found. -/
lemma strstr_termStr {s : List UInt8} (h : strstr mcTermStr s = none) (r : List UInt8) :
    strstr mcTermStr (s ++ (mcTermStr ++ r)) = some s.length := by
  induction s with
  | nil =>
    have hpre : mcTermStr.isPrefixOf (mcTermStr ++ r) = true := by simp [mcTermStr]
    simp only [List.nil_append]
    rw [show mcTermStr ++ r = 13 :: 10 :: r from rfl, strstr]
    exact if_pos hpre
  | cons c s ih =>
    rw [strstr] at h
    split at h
    · cases h
    · rename_i hpre
      have hnone : strstr mcTermStr s = none := by simpa using h
      have hpre' : ¬ mcTermStr.isPrefixOf (c :: (s ++ (mcTermStr ++ r))) = true := by
        cases s with
        | nil => simp [mcTermStr]
        | cons c' s => simpa [mcTermStr] using hpre
      rw [List.cons_append, strstr, if_neg hpre', ih hnone]
      rfl

/-- The string at the start of a buffer that starts with bytes other than zero. -/
lemma ofBuffer_append {s : List UInt8} (h : 0 ∉ s) (r : List UInt8) :
    ofBuffer (s ++ r) = s ++ ofBuffer r := by
  unfold ofBuffer
  rw [List.takeWhile_append_of_pos]
  intro c hc
  simpa using fun heq : c = 0 => h (heq ▸ hc)

/-! ## Acting on a request -/

section Acting

variable {slabAlloc : ℕ → Option (ℕ → UInt8)} {tmpBuf : List UInt8} {r : Int × QueryRequest}
variable {t : QueryTask} {logMem : Bool}

/-- A set request that has been accepted. -/
lemma actOnRequest_set (hret : r.1 = 0) (hsucc : r.2.parseStatus = .succ) (hset : r.2.cmdType = .set) :
    actOnRequest slabAlloc tmpBuf r t logMem =
      bufferBody slabAlloc tmpBuf { t with queryRequest := r.2 } := by
  simp [actOnRequest, hret, hsucc, hset]

/-- What becomes of a request that is not an accepted set request. -/
structure Acted (r : Int × QueryRequest) (t t' : QueryTask) : Prop where
  /-- The command is that of the request. -/
  cmdType : t'.queryRequest.cmdType = r.2.cmdType
  /-- So is the parse status. -/
  parseStatus : t'.queryRequest.parseStatus = r.2.parseStatus
  /-- The response is left alone. -/
  queryResponse : t'.queryResponse = t.queryResponse
  /-- It is passed on, or an error is logged. -/
  state : (r.2.parseStatus = .succ ∧ t'.errorLog = none ∧
      (t'.state = .dispatchQueryTask ∨ t'.state = .doSync ∨ t'.state = .doPower)) ∨
    (¬ (r.1 = 0 ∧ r.2.parseStatus = .succ) ∧ t'.errorLog ≠ none ∧ t'.state = .returnFailed) ∨
    ((r.2.parseStatus = .succ ∧ r.2.cmdType = .unknown) ∧ t'.errorLog ≠ none ∧
      t'.state = .destroyRecv)

/-- A request that has been accepted, other than a set request: nothing is logged. -/
lemma actOnRequest_accepted (slabAlloc : ℕ → Option (ℕ → UInt8)) (tmpBuf : List UInt8)
    (hlog : t.errorLog = none) (hret : r.1 = 0) (hsucc : r.2.parseStatus = .succ)
    (hset : r.2.cmdType ≠ .set) (hknown : r.2.cmdType ≠ .unknown) (logMem : Bool) :
    ∃ t', actOnRequest slabAlloc tmpBuf r t logMem = .ok (true, t') ∧ Acted r t t' := by
  have hlog' : ({ t with queryRequest := r.2 } : QueryTask).errorLog = none := hlog
  simp only [actOnRequest, if_pos (And.intro hret hsucc)]
  cases hcmd : r.2.cmdType with
  | set => exact absurd hcmd hset
  | unknown => exact absurd hcmd hknown
  | get =>
    simp only [changeState_dispatch hlog']
    exact ⟨_, rfl, rfl, rfl, rfl, Or.inl ⟨hsucc, hlog, Or.inl rfl⟩⟩
  | delete =>
    simp only [changeState_dispatch hlog']
    exact ⟨_, rfl, rfl, rfl, rfl, Or.inl ⟨hsucc, hlog, Or.inl rfl⟩⟩
  | sync => exact ⟨_, rfl, rfl, rfl, rfl, Or.inl ⟨hsucc, hlog, Or.inr (Or.inl rfl)⟩⟩
  | power => exact ⟨_, rfl, rfl, rfl, rfl, Or.inl ⟨hsucc, hlog, Or.inr (Or.inr rfl)⟩⟩

/-- The task with a request that has been refused, whose line end is cut off. -/
def refusedTask (qr : QueryRequest) (t : QueryTask) : QueryTask :=
  { t with queryRequest := { qr with
    queryHeadBuf := qr.queryHeadBuf.patch
      ((ofBuffer qr.queryHeadBuf.bytes).length - mcTermStr.length) [0] } }

/-- A request that has been refused is logged and passed on. -/
lemma actOnRequest_refused (slabAlloc : ℕ → Option (ℕ → UInt8)) (tmpBuf : List UInt8)
    (hno : ¬ (r.1 = 0 ∧ r.2.parseStatus = .succ)) (t : QueryTask) (logMem : Bool) :
    actOnRequest slabAlloc tmpBuf r t logMem =
      ((refusedTask r.2 t).log (.parseFailed r.2.cmdType) logMem >>= fun t =>
        changeQueryTaskState .returnFailed t >>= fun t => pure (true, t)) :=
  if_neg hno

/-- A request that has been refused, or has no command, is logged. -/
lemma actOnRequest_null (slabAlloc : ℕ → Option (ℕ → UInt8)) (tmpBuf : List UInt8)
    (hlog : t.errorLog = none)
    (hrefused : ¬ (r.1 = 0 ∧ r.2.parseStatus = .succ) ∨ r.2.cmdType = .unknown) :
    actOnRequest slabAlloc tmpBuf r t false = .error .logMemory := by
  have hlog' : ({ t with queryRequest := r.2 } : QueryTask).errorLog = none := hlog
  by_cases hok : r.1 = 0 ∧ r.2.parseStatus = .succ
  · have hcmd : r.2.cmdType = .unknown := hrefused.resolve_left (not_not.2 hok)
    simp only [actOnRequest, if_pos hok, hcmd, QueryTask.log_of_null _ hlog']
    rfl
  · have hlog'' : (refusedTask r.2 t).errorLog = none := hlog
    rw [actOnRequest_refused slabAlloc tmpBuf hok, QueryTask.log_of_null _ hlog'']
    rfl

/-- A request that is not an accepted set request. -/
lemma actOnRequest_other (slabAlloc : ℕ → Option (ℕ → UInt8)) (tmpBuf : List UInt8)
    (hlog : t.errorLog = none) (hother : ¬ (r.1 = 0 ∧ r.2.parseStatus = .succ ∧ r.2.cmdType = .set)) :
    ∃ t', actOnRequest slabAlloc tmpBuf r t = .ok (true, t') ∧ Acted r t t' := by
  have hlog' : ({ t with queryRequest := r.2 } : QueryTask).errorLog = none := hlog
  by_cases hok : r.1 = 0 ∧ r.2.parseStatus = .succ
  · by_cases hcmd : r.2.cmdType = .unknown
    · simp only [actOnRequest, if_pos hok, hcmd, QueryTask.log_of_none _ hlog']
      exact ⟨_, rfl, hcmd ▸ rfl, rfl, rfl, Or.inr (Or.inr ⟨⟨hok.2, hcmd⟩, by simp, rfl⟩)⟩
    · have hset : r.2.cmdType ≠ .set := fun hset => hother ⟨hok.1, hok.2, hset⟩
      exact actOnRequest_accepted slabAlloc tmpBuf hlog hok.1 hok.2 hset hcmd true
  · have hlog'' : (refusedTask r.2 t).errorLog = none := hlog
    rw [actOnRequest_refused slabAlloc tmpBuf hok, QueryTask.log_of_none _ hlog'']
    exact ⟨_, rfl, rfl, rfl, rfl, Or.inr (Or.inl ⟨hok, by simp, rfl⟩)⟩

end Acting

/-! ## The first read -/

/-- A task whose head buffer has been read. -/
def headTask (buf : Blob maxQueryHeaderSize) (haveRead : ℕ) : QueryTask :=
  { acceptedTask with
    state := .parseReqHead
    haveRead := haveRead
    needRead := 0
    queryRequest := { QueryRequest.zero with queryHeadBuf := buf } }

/-- The task after the first read. -/
def receivedTask (bytes : List UInt8) : QueryTask :=
  headTask (Blob.copy maxQueryHeaderSize bytes) bytes.length

/-- Copying to the start of a zeroed buffer. -/
lemma patch_zero {n : ℕ} {bytes : List UInt8} (h : bytes.length ≤ n) :
    (Blob.copy n []).patch 0 bytes = Blob.copy n bytes := by
  ext1
  have hfill : (bytes ++ List.replicate (n - bytes.length) 0).length ≤ n := by
    simp only [List.length_append, List.length_replicate]
    omega
  simp [Blob.patch, Blob.copy, List.take_of_length_le h, List.take_of_length_le hfill]

/-- A read that returns bytes. -/
lemma recvReqHead_ok {t : QueryTask} {bytes : List UInt8} {logMem : Bool} (hne : bytes ≠ [])
    (hlen : (bytes.length : Int) ≤ t.needRead) :
    recvReqHead (.ok bytes) t logMem = .ok (true, { t.receivedHead bytes with
      state := .parseReqHead, haveRead := t.haveRead + bytes.length, needRead := 0 }) := by
  have hpos : 0 < bytes.length ∧ (bytes.length : Int) ≤ (t.receivedHead bytes).needRead :=
    ⟨List.length_pos_iff.2 hne, hlen⟩
  have hzero : ¬ (bytes = [] ∧ (t.receivedHead bytes).needRead ≠ 0) := fun h => hne h.1
  simp only [recvReqHead, if_neg hzero, if_pos hpos]
  rfl

/-- The first read of a connection. -/
lemma recvReqHead_accepted {bytes : List UInt8} (hne : bytes ≠ [])
    (hlen : bytes.length ≤ maxQueryHeaderSize) :
    recvReqHead (.ok bytes) acceptedTask = .ok (true, receivedTask bytes) := by
  have hneed : (bytes.length : Int) ≤ acceptedTask.needRead := by
    simpa [acceptedTask] using hlen
  rw [recvReqHead_ok hne hneed]
  simp only [QueryTask.receivedHead, acceptedTask, QueryRequest.zero, patch_zero hlen, receivedTask,
    headTask, Nat.zero_add]

section Received

variable {s : List UInt8}

/-- The buffer after the first read. -/
lemma copy_received {d : List UInt8}
    (hlen : (s ++ (mcTermStr ++ d)).length ≤ maxQueryHeaderSize) :
    (Blob.copy maxQueryHeaderSize (s ++ (mcTermStr ++ d))).bytes =
      (s ++ mcTermStr) ++ (d ++ List.replicate
        (maxQueryHeaderSize - (s ++ (mcTermStr ++ d)).length) 0) := by
  simp [Blob.copy, List.take_of_length_le hlen]

/-- The line end of a head that has been received is found. -/
lemma tryParse_receivedTask (hs : IsHead s) {d : List UInt8}
    (hlen : (s ++ (mcTermStr ++ d)).length ≤ maxQueryHeaderSize) :
    tryParseMemcachedStringHead (receivedTask (s ++ (mcTermStr ++ d))).queryRequest =
      some s.length := by
  have hcopy := copy_received hlen
  have hnul : (0 : UInt8) ∉ s ++ mcTermStr := by
    simp [mcTermStr, hs.noNul]
  unfold tryParseMemcachedStringHead receivedTask headTask
  rw [hcopy, ofBuffer_append hnul, List.append_assoc]
  exact strstr_termStr hs.noTerm _

/-- A head that has been terminated. -/
lemma head_terminate {qr : QueryRequest} {p : ℕ} (hp : p < maxQueryHeaderSize)
    (hnul : 0 ∉ qr.queryHeadBuf.bytes.take p) :
    (qr.terminate p).head = qr.queryHeadBuf.bytes.take p := by
  have hlen : (qr.queryHeadBuf.bytes.take p).length = p := by
    rw [List.length_take, qr.queryHeadBuf.size_eq]
    omega
  have hbytes : ((qr.terminate p).queryHeadBuf.bytes).take (maxQueryHeaderSize - 1) =
      qr.queryHeadBuf.bytes.take p ++ (0 :: qr.queryHeadBuf.bytes.drop (p + 1)).take
        (maxQueryHeaderSize - 1 - p) := by
    simp only [QueryRequest.terminate, Blob.patch, List.take_take, List.length_singleton,
      List.singleton_append]
    rw [List.take_append, hlen, List.take_of_length_le (by omega)]
    congr 2
  have hnil : ofBuffer ((0 :: qr.queryHeadBuf.bytes.drop (p + 1)).take
      (maxQueryHeaderSize - 1 - p)) = [] := by
    cases maxQueryHeaderSize - 1 - p with
    | zero => rfl
    | succ k => rfl
  rw [QueryRequest.head, hbytes, ofBuffer_append hnul, hnil, List.append_nil]

/-- The buffer starts with the head. -/
lemma take_receivedTask {d : List UInt8}
    (hlen : (s ++ (mcTermStr ++ d)).length ≤ maxQueryHeaderSize) :
    (receivedTask (s ++ (mcTermStr ++ d))).queryRequest.queryHeadBuf.bytes.take
      (s.length + mcTermStr.length) = s ++ mcTermStr := by
  have hcopy := copy_received hlen
  have hhead : (s ++ mcTermStr).length = s.length + mcTermStr.length := List.length_append
  simp only [receivedTask, headTask, hcopy]
  rw [← hhead, List.take_left]

/-- The bytes behind the head are those that have been received. -/
lemma tmpBuf_receivedTask {d : List UInt8}
    (hlen : (s ++ (mcTermStr ++ d)).length ≤ maxQueryHeaderSize) :
    ((receivedTask (s ++ (mcTermStr ++ d))).queryRequest.queryHeadBuf.bytes.drop
      (s.length + mcTermStr.length)).take ((receivedTask (s ++ (mcTermStr ++ d))).haveRead -
        (s.length + mcTermStr.length)) = d := by
  have hcopy := copy_received hlen
  have hhead : (s ++ mcTermStr).length = s.length + mcTermStr.length := List.length_append
  have hrest : (s ++ (mcTermStr ++ d)).length - (s.length + mcTermStr.length) = d.length := by
    simp only [List.length_append]
    omega
  simp only [receivedTask, headTask, hcopy, hrest]
  rw [← hhead, List.drop_left, List.take_left]

/-- The request that is parsed when a head has been received with these bytes behind it. -/
def headRequest (s d : List UInt8) : QueryRequest :=
  (receivedTask (s ++ (mcTermStr ++ d))).queryRequest.terminate (s.length + mcTermStr.length)

/-- The head that is parsed is the one that has been received. -/
lemma head_headRequest (hs : IsHead s) {d : List UInt8}
    (hlen : (s ++ (mcTermStr ++ d)).length ≤ maxQueryHeaderSize) :
    (headRequest s d).head = s ++ mcTermStr := by
  have htake := take_receivedTask hlen
  have hnul : (0 : UInt8) ∉ s ++ mcTermStr := by
    simp [mcTermStr, hs.noNul]
  rw [headRequest, head_terminate hs.short (htake ▸ hnul), htake]

/-- A head that has been received in one piece is parsed and acted on. -/
lemma parse_receivedTask (hs : IsHead s) {d : List UInt8}
    (hlen : (s ++ (mcTermStr ++ d)).length ≤ maxQueryHeaderSize)
    (slabAlloc : ℕ → Option (ℕ → UInt8)) {logMem : Bool} :
    parseQueryRequestHead slabAlloc (receivedTask (s ++ (mcTermStr ++ d))) logMem =
      actOnRequest slabAlloc d (parseMemcachedStringHead (headRequest s d))
        (receivedTask (s ++ (mcTermStr ++ d))) logMem := by
  have hread : s.length + mcTermStr.length ≤ (receivedTask (s ++ (mcTermStr ++ d))).haveRead := by
    simp only [receivedTask, headTask, List.length_append]
    omega
  simp only [parseQueryRequestHead, tryParse_receivedTask hs hlen, check_bind, if_pos hread,
    tmpBuf_receivedTask hlen, headRequest]

/-- The round of the handler that reads a head. -/
lemma round_received (slabAlloc : ℕ → Option (ℕ → UInt8)) {bytes : List UInt8} (hne : bytes ≠ [])
    (hlen : bytes.length ≤ maxQueryHeaderSize) :
    Conn.round { read := .ok bytes, slabAlloc, needLoop := true } (.watched acceptedTask) =
      .looping (receivedTask bytes) := by
  have hstate : acceptedTask.state = .recvReqHead := rfl
  simp only [Conn.round, queryIoRound, hstate, Conn.ofRound_bind, recvReqHead_accepted hne hlen]
  rfl

/-- The round of the handler that parses a head. -/
lemma round_parse (a : Answer) (hs : IsHead s) {d : List UInt8}
    (hlen : (s ++ (mcTermStr ++ d)).length ≤ maxQueryHeaderSize) :
    Conn.round a (.looping (receivedTask (s ++ (mcTermStr ++ d)))) =
      Conn.ofResult (actOnRequest a.slabAlloc d (parseMemcachedStringHead (headRequest s d))
        (receivedTask (s ++ (mcTermStr ++ d))) a.logMem) := by
  have hstate : (receivedTask (s ++ (mcTermStr ++ d))).state = .parseReqHead := rfl
  simp only [Conn.round, queryIoRound, hstate, Conn.ofRound_bind, parse_receivedTask hs hlen]

/-- A head that arrives in one piece leads to what is done with the request. -/
lemma feed_received (hs : IsHead s) {d : List UInt8}
    (hlen : (s ++ (mcTermStr ++ d)).length ≤ maxQueryHeaderSize)
    (slabAlloc : ℕ → Option (ℕ → UInt8)) :
    Conn.feed slabAlloc (.watched acceptedTask) (.ok (s ++ (mcTermStr ++ d))) =
      Conn.settle slabAlloc 2 (Conn.ofResult (actOnRequest slabAlloc d
        (parseMemcachedStringHead (headRequest s d)) (receivedTask (s ++ (mcTermStr ++ d))))) := by
  have hne : s ++ (mcTermStr ++ d) ≠ [] := by simp [mcTermStr]
  have hstate : (receivedTask (s ++ (mcTermStr ++ d))).state = .parseReqHead := rfl
  rw [Conn.feed, round_received slabAlloc hne hlen, Conn.settle, if_neg (by simp [hstate]),
    round_parse _ hs hlen]

end Received

end Linglongta
