import Linglongta.Server.Body
import Linglongta.Server.Service

/-!
# The service on the wire

A client opens a connection, sends a head and perhaps a body, and reads the answer.  An `Exchange` is
what arrives on the connection, read by read: the head with the first read, the rest of a body in any
pieces.  `Wire.exchange` is the way of the bytes through the server: the assign thread puts the request
together, a worker calls the storage, builds the response and writes it to the socket.

`wire_refines` says what a client sees: the bytes that it reads are those that a map from keys, cut
off after `KEY_LEN` bytes, to values gives.  A head that is refused is answered with an error.
-/

namespace Linglongta

open CString Prog

/-! ## What is sent -/

/-- The bytes that `send_response` writes, if all its writes are complete. -/
def QueryResponse.sent (r : QueryResponse) : List UInt8 :=
  r.respHeadBuf.take r.respHeadBufSize ++
    match r.respDataBuf with
    | none => []
    | some data => data.take r.respDataSize ++ (r.respTailorBuf.getD []).take r.respTailorSize

/-- The answers to `send_response` if all its writes are complete. -/
def QueryResponse.writes (r : QueryResponse) : Writes where
  head := some r.respHeadBufSize
  data := some (r.respDataSize + r.respTailorSize)

/-- The answer to a request, given the value that its key has. -/
def Request.response (value : Option (List UInt8)) : Request → List UInt8
  | set _ _ => mcSetDoneStr
  | get key =>
    match value with
    | some data => mcGetHeader key data.length ++ (data ++ mcTermStr)
    | none => mcGetDoneStr
  | delete _ =>
    match value with
    | some _ => mcDelDoneStr
    | none => mcErrStr

/-- A response that can be sent and has these bytes. -/
structure QueryResponse.Says (r : QueryResponse) (bytes : List UInt8) : Prop where
  /-- The bytes. -/
  sent : r.sent = bytes
  /-- There is a line behind the data if and only if it has a size. -/
  tailor : r.respTailorBuf = none ↔ r.respTailorSize = 0

/-- `send_response` succeeds if its writes are complete. -/
lemma QueryResponse.Says.sendResponse {t : QueryTask} {bytes : List UInt8}
    (h : t.queryResponse.Says bytes) : sendResponse t.queryResponse.writes t = .ok (0, t) := by
  unfold Linglongta.sendResponse
  by_cases hdata : t.queryResponse.respDataBuf = none
  · simp [QueryResponse.writes, hdata, pure, Except.pure]
  · by_cases htailor : t.queryResponse.respTailorBuf = none
    · have hsize := h.tailor.1 htailor
      simp [QueryResponse.writes, hdata, htailor, hsize, sendData, pure, Except.pure]
    · have hsize := h.tailor.not.1 htailor
      simp [QueryResponse.writes, hdata, htailor, hsize, sendData, pure, Except.pure]

/-- A response that is only a line. -/
lemma says_withLine {t : QueryTask} (hbuf : t.queryResponse.respTailorBuf = none)
    (hsize : t.queryResponse.respTailorSize = 0) (line : List UInt8) :
    (t.withLine line).queryResponse.Says line := by
  refine ⟨?_, by simp [QueryTask.withLine, hbuf, hsize]⟩
  simp [QueryTask.withLine, QueryResponse.sent]

/-- A response with data. -/
lemma says_withData {t : QueryTask} {data : List UInt8}
    (hbuf : t.queryResponse.respDataBuf = some data)
    (hsize : t.queryResponse.respDataSize = data.length) :
    t.withData.queryResponse.Says
      (mcGetHeader t.queryRequest.key data.length ++ (data ++ mcTermStr)) := by
  refine ⟨?_, by simp [QueryTask.withData, mcTermStr]⟩
  simp [QueryTask.withData, QueryResponse.sent, hbuf, hsize]

/-! ## The answer of the worker -/

section Answers

variable {r : Request} {t : QueryTask}

/-- A request that has been given the reply of a key-value store is answered. -/
lemma Carries.replied (ht : Carries r t) (m : Kv) :
    ∃ ret t', r.finish (m.step (.call r.call)).1 t = .ok (ret, t') ∧
      t'.queryResponse.Says (r.response (m (fixedKey r.key))) := by
  have hempty : t.queryResponse.Empty := by
    rw [ht.queryResponse]
    exact ⟨rfl, rfl⟩
  have htailor : t.queryResponse.respTailorBuf = none ∧ t.queryResponse.respTailorSize = 0 := by
    rw [ht.queryResponse]
    exact ⟨rfl, rfl⟩
  have hmiss : dbNotfound ≠ 0 := by decide
  cases r with
  | set key data =>
    exact ⟨_, _, finishRequest_success .set hempty, says_withLine htailor.1 htailor.2 _⟩
  | get key =>
    cases hvalue : m (fixedKey key) with
    | some data =>
      have hfinish : (Request.get key).finish (m.step (.call (.find key))).1 t =
          finishRequest 0 .getSuccess .getFailed { t with queryResponse := { t.queryResponse with
            respDataBuf := some data, respDataSize := data.length } } := by
        simp only [Request.finish, Kv.step, hvalue, valueReply]
      refine ⟨_, _, hfinish.trans (finishRequest_get _ _), ?_⟩
      rw [Request.key, hvalue, Request.response, ← show t.queryRequest.key = key from ht.key]
      exact says_withData rfl rfl
    | none =>
      have hfinish : (Request.get key).finish (m.step (.call (.find key))).1 t =
          finishRequest dbNotfound .getSuccess .getFailed { t with
            queryResponse := { t.queryResponse with respDataBuf := none, respDataSize := 0 } } := by
        simp only [Request.finish, Kv.step, hvalue, valueReply]
      rw [finishRequest_failure .get hmiss (by exact ht.errorLog), if_pos ⟨rfl, rfl⟩] at hfinish
      refine ⟨_, _, hfinish, ?_⟩
      rw [Request.key, hvalue]
      exact says_withLine htailor.1 htailor.2 _
  | delete key =>
    cases hvalue : m (fixedKey key) with
    | none =>
      have hfinish : (Request.delete key).finish (m.step (.call (.delete key))).1 t =
          finishRequest dbNotfound .deleteSuccess .deleteFailed t := by
        simp only [Request.finish, Kv.step, if_pos hvalue]
      refine ⟨_, _, hfinish.trans ((finishRequest_failure .delete hmiss ht.errorLog).trans
        (if_pos hempty)), ?_⟩
      rw [Request.key, hvalue]
      exact says_withLine htailor.1 htailor.2 _
    | some data =>
      have hfinish : (Request.delete key).finish (m.step (.call (.delete key))).1 t =
          finishRequest 0 .deleteSuccess .deleteFailed t := by
        simp only [Request.finish, Kv.step, if_neg (show ¬m (fixedKey key) = none by simp [hvalue])]
      refine ⟨_, _, hfinish.trans (finishRequest_success .delete hempty), ?_⟩
      rw [Request.key, hvalue]
      exact says_withLine htailor.1 htailor.2 _

end Answers

/-! ## Exchanges -/

/-- What arrives on a connection. -/
inductive Exchange
  /-- A request: its head, what comes behind the head with the first read, and the reads after
  that. -/
  | request (r : Request) (s d : List UInt8) (reads : List ReadResult)
  /-- A head that is refused, and what comes behind it. -/
  | refused (s d : List UInt8)

namespace Exchange

/-- The reads. -/
def arrivals : Exchange → List ReadResult
  | request _ s d reads => .ok (s ++ (mcTermStr ++ d)) :: reads
  | refused s d => [.ok (s ++ (mcTermStr ++ d))]

/-- The request, if it is one. -/
def request? : Exchange → Option Request
  | request r _ _ _ => some r
  | refused _ _ => none

/-- The head is complete with the first read; the body of a set request arrives with its line end, its
size is a `ssize_t`, and there is memory for it. -/
def Valid (slabAlloc : ℕ → Option (ℕ → UInt8)) : Exchange → Prop
  | request r s d reads => r.Valid s ∧ (s ++ (mcTermStr ++ d)).length ≤ maxQueryHeaderSize ∧
      (∀ read ∈ reads, read.Delivers) ∧
      match r.data with
      | some data => d ++ arrivedBytes reads = data ++ mcTermStr ∧ data.length + 2 < 2 ^ 63 ∧
          slabAlloc (data.length + 2) ≠ none
      | none => d ++ arrivedBytes reads = []
  | refused s d => IsHead s ∧ (s ++ (mcTermStr ++ d)).length ≤ maxQueryHeaderSize ∧
      (parseMemcachedStringHead (headRequest s d)).1 ≠ 0

end Exchange

/-- One connection: the bytes that the client reads and the world, none if the server does not
answer. -/
def Wire.exchange (slabAlloc : ℕ → Option (ℕ → UInt8)) (w : World) (x : Exchange) :
    Option (List UInt8 × World) :=
  match Conn.serve slabAlloc (.watched acceptedTask) x.arrivals with
  | .dispatched t =>
    match Service.result (exec (handle noFaults) (handleRequest Call.prog t) [] w) with
    | some (t', w') =>
      match sendResponse t'.queryResponse.writes t' with
      | .ok _ => some (t'.queryResponse.sent, w')
      | .error _ => none
    | none => none
  | _ => none

/-- Connections one after another: what the clients read, and the world. -/
def Wire.run (slabAlloc : ℕ → Option (ℕ → UInt8)) (w : World) :
    List Exchange → Option (List (List UInt8) × World)
  | [] => some ([], w)
  | x :: xs =>
    match Wire.exchange slabAlloc w x with
    | none => none
    | some (bytes, w') => (Wire.run slabAlloc w' xs).map fun r => (bytes :: r.1, r.2)

/-! ## What the clients see -/

/-- A map from keys, cut off after `KEY_LEN` bytes, to values. -/
abbrev Table : Type := List UInt8 → Option (List UInt8)

/-- What a request makes of the map. -/
def Table.apply (m : Table) : Request → Table
  | .set key data => Function.update m (key.take keyLen) (some data)
  | .get _ => m
  | .delete key => Function.update m (key.take keyLen) none

/-- What the clients of a map read. -/
def Table.answers (m : Table) : List Exchange → List (List UInt8)
  | [] => []
  | .request r _ _ _ :: xs => r.response (m (r.key.take keyLen)) :: (m.apply r).answers xs
  | .refused _ _ :: xs => mcErrStr :: m.answers xs

/-- The store holds the map. -/
def Table.Filed (tbl : Table) (m : Kv) : Prop :=
  ∀ K, 0 ∉ K → m (fixedKey K) = tbl (K.take keyLen)

/-- A request does the same to the map and to the store. -/
lemma Table.Filed.apply {tbl : Table} {m : Kv} (h : tbl.Filed m) {r : Request} (hr : 0 ∉ r.key) :
    (tbl.apply r).Filed (m.step (.call r.call)).2 := by
  have hupdate : ∀ (k : List UInt8) (value : Option (List UInt8)), 0 ∉ k →
      Table.Filed (Function.update tbl (k.take keyLen) value)
        (Function.update m (fixedKey k) value) := by
    intro k value hk K hK
    rw [update_fixedKey m hk hK]
    by_cases hsame : SameStart k K
    · rw [if_pos hsame, ← show k.take keyLen = K.take keyLen from hsame, Function.update_self]
    · rw [if_neg hsame, h K hK,
        Function.update_of_ne fun heq => hsame (show k.take keyLen = K.take keyLen from heq.symm)]
  cases r with
  | set key data => exact hupdate key (some data) hr
  | get key => exact h
  | delete key => exact hupdate key none hr

/-! ## Receiving -/

section Dispatched

variable {slabAlloc : ℕ → Option (ℕ → UInt8)} {r : Request} {s d : List UInt8}

/-- The task of a set request that has been received. -/
lemma Whole.carries {tag : RequestTag} {data : List UInt8} {t : QueryTask}
    (h : Whole tag (data.length + 2) (data ++ mcTermStr) t) (hsize : data.length < 2 ^ 64)
    (hsucc : tag.parseStatus = .succ) (hset : tag.cmdType = .set) :
    Carries (.set tag.key data) t := by
  refine ⟨(congrArg RequestTag.parseStatus h.tag).trans hsucc,
    (congrArg RequestTag.cmdType h.tag).trans hset, congrArg RequestTag.key h.tag, ?_, h.errorLog,
    h.queryResponse⟩
  intro data' hdata'
  obtain rfl := Option.some.inj hdata'
  obtain ⟨buf, hbuf, -, -, hbytes⟩ := h.data
  have hN : t.queryRequest.dataSize = data.length := by
    rw [h.dataSize, show ((data.length + 2 : ℕ) : Int) - 2 = (data.length : Int) by push_cast; ring]
    exact toSizeT_natCast hsize
  have hlen : (data ++ mcTermStr).length = data.length + 2 := by simp [mcTermStr]
  have htake := Buffer.take_bytes buf (show data.length ≤ data.length + 2 by omega)
  rw [← hlen, hbytes, List.take_left] at htake
  rw [QueryRequest.body, hbuf, Option.map_some, Option.getD_some, hN]
  exact htake.symm

/-- A set request whose body has arrived reaches the worker. -/
lemma set_dispatched {key data : List UInt8} {reads : List ReadResult}
    (hvalid : Exchange.Valid slabAlloc (.request (.set key data) s d reads)) :
    ∃ t, Conn.serve slabAlloc (.watched acceptedTask) (.ok (s ++ (mcTermStr ++ d)) :: reads) =
      .dispatched t ∧ Carries (.set key data) t := by
  obtain ⟨hr, hlen, hreads, hbody, hsize, hmem⟩ := hvalid
  obtain ⟨c, f, e, n, ts, htok, hc, hn⟩ := hr.written
  obtain ⟨mem, hmem⟩ := Option.ne_none_iff_exists'.1 hmem
  have hparse : ∀ d, (s ++ (mcTermStr ++ d)).length ≤ maxQueryHeaderSize →
      parseMemcachedStringHead (headRequest s d) = (0, (headRequest s d).accepted key f e n) :=
    fun d hlen => parse_of_setHead (head_headRequest hr.isHead hlen) htok hc hr.short
  have hhead : SetHead s data.length := by
    have hparse₀ := hparse [] (by simpa using hr.isHead.short.le)
    exact { hr.isHead with
      accepted := by rw [hparse₀]
      isSet := by rw [hparse₀]; rfl
      declared := ⟨n, by rw [htok]; rfl, hn⟩ }
  have hdeclared : declaredSize data.length = data.length + 2 := declaredSize_natCast (by omega)
  have hbodySize : ((headRequest s d).accepted key f e n).bodySize = data.length + 2 := by
    rw [← hdeclared]
    show toSizeT ((toSizeT (atol n) : Int) + 2) = _
    rw [hn, declaredSize]
  have hfeed := hhead.feed_cases hlen (hdeclared ▸ hmem) rfl
  rw [hdeclared, hparse d hlen] at hfeed
  have htotal : (d ++ arrivedBytes reads).length = data.length + 2 := by
    rw [hbody]
    simp [mcTermStr]
  rw [Conn.serve_cons]
  rcases hfeed with ⟨hall, t, hfeed, hwhole⟩ | ⟨-, hawaits⟩ | ⟨hne, hnot, -⟩
  · -- the whole body has come with the head
    have hnil : arrivedBytes reads = [] := by
      rw [List.length_append, hall] at htotal
      exact List.length_eq_zero_iff.1 (by omega)
    rw [hnil, List.append_nil] at hbody
    rw [hbody] at hwhole
    rw [hfeed, Conn.serve_dispatched]
    exact ⟨t, rfl, hwhole.carries (by omega) rfl rfl⟩
  · rcases serve_delivers slabAlloc reads hawaits hreads htotal.le with
      ⟨hlt, -⟩ | ⟨-, t', hserve, hwhole⟩
    · omega
    · rw [hbody] at hwhole
      exact ⟨t', hserve, hwhole.carries (by omega) rfl rfl⟩
  · have hd : d.length ≤ data.length + 2 := by
      rw [List.length_append] at htotal
      omega
    exact absurd ⟨lt_of_le_of_ne hd hne, by omega⟩ hnot

/-- A get or delete request reaches the worker. -/
lemma key_dispatched {type : CmdType} {key : List UInt8} (htype : type = .get ∨ type = .delete)
    (hs : IsHead s) (hhead : Request.KeyHead type.word key s) (hne : key ≠ [])
    (hspace : space ∉ key) (hshort : key.length < maxKeySize) (reads : List ReadResult) :
    ∃ t, Conn.serve slabAlloc (.watched acceptedTask) (.ok (s ++ (mcTermStr ++ [])) :: reads) =
      .dispatched t ∧ t.queryRequest.tag = ((headRequest s []).withKey type key).tag ∧
      t.errorLog = none ∧ t.queryResponse = .zero := by
  have hlen : (s ++ (mcTermStr ++ [])).length ≤ maxQueryHeaderSize := by simpa using hs.short.le
  have hparse := parse_of_keyHead (head_headRequest hs hlen) htype hhead hne hspace hshort
  let t₀ : QueryTask := { receivedTask (s ++ (mcTermStr ++ [])) with
    queryRequest := (headRequest s []).withKey type key }
  let t₁ : QueryTask := { t₀ with
    state := .dispatchQueryTask
    queryRequest := { t₀.queryRequest with
      dataSize := toSizeT ((t₀.queryRequest.dataSize : Int) - 2) } }
  have hlog : t₀.errorLog = none := rfl
  have hact : actOnRequest slabAlloc [] (0, (headRequest s []).withKey type key)
      (receivedTask (s ++ (mcTermStr ++ []))) =
      (changeQueryTaskState .dispatchQueryTask t₀ >>= fun t => pure (true, t)) := by
    rcases htype with rfl | rfl <;> rfl
  have hdispatch : Conn.settle slabAlloc 2 (.looping t₁) = .dispatched t₁ :=
    Conn.settle_dispatch _ 1 rfl
  refine ⟨t₁, ?_, rfl, rfl, rfl⟩
  rw [Conn.serve_cons, feed_received hs hlen, hparse, hact, changeState_dispatch hlog]
  exact (congrArg (Conn.serve slabAlloc · reads) hdispatch).trans (Conn.serve_dispatched _ _ _)

/-- A head that is refused is given to a worker for its answer. -/
lemma refused_dispatched (hvalid : Exchange.Valid slabAlloc (.refused s d)) :
    ∃ t, Conn.serve slabAlloc (.watched acceptedTask) [.ok (s ++ (mcTermStr ++ d))] =
      .dispatched t ∧ t.state = .returnFailed ∧ t.queryRequest.parseStatus ≠ .succ ∧
      t.queryResponse = .zero := by
  obtain ⟨hs, hlen, hret⟩ := hvalid
  have hlog : (receivedTask (s ++ (mcTermStr ++ d))).errorLog = none := rfl
  obtain ⟨t, hact, hacted⟩ := actOnRequest_other slabAlloc d hlog
    fun hok : (parseMemcachedStringHead (headRequest s d)).1 = 0 ∧ _ => hret hok.1
  have hfailed : (parseMemcachedStringHead (headRequest s d)).2.parseStatus ≠ .succ := by
    rcases parse_outcome (headRequest s d) with ⟨hok, -⟩ | ⟨-, hfailed⟩
    · exact absurd hok hret
    · simp [hfailed]
  have hstate : t.state = .returnFailed := by
    rcases hacted.state with ⟨hsucc, -⟩ | ⟨-, -, hstate⟩ | ⟨⟨hsucc, -⟩, -⟩
    · exact absurd hsucc hfailed
    · exact hstate
    · exact absurd hsucc hfailed
  refine ⟨t, ?_, hstate, hacted.parseStatus ▸ hfailed, hacted.queryResponse⟩
  rw [Conn.serve_cons, Conn.serve_nil, feed_received hs hlen, hact]
  exact Conn.settle_returnFailed _ 1 hstate

end Dispatched

/-! ## One exchange -/

section Exchange

variable {slabAlloc : ℕ → Option (ℕ → UInt8)}

/-- A request reaches the worker. -/
lemma request_dispatched {r : Request} {s d : List UInt8} {reads : List ReadResult}
    (hvalid : Exchange.Valid slabAlloc (.request r s d reads)) :
    ∃ t, Conn.serve slabAlloc (.watched acceptedTask) (.ok (s ++ (mcTermStr ++ d)) :: reads) =
      .dispatched t ∧ Carries r t := by
  have hkeyed : ∀ {type : CmdType}, type = .get ∨ type = .delete → r.data = none →
      Request.KeyHead type.word r.key s → ∃ t,
        Conn.serve slabAlloc (.watched acceptedTask) (.ok (s ++ (mcTermStr ++ d)) :: reads) =
          .dispatched t ∧ t.queryRequest.tag = ((headRequest s []).withKey type r.key).tag ∧
            t.errorLog = none ∧ t.queryResponse = .zero := by
    intro type htype hdata hhead
    obtain ⟨hr, -, -, hbody⟩ := hvalid
    rw [hdata] at hbody
    rw [(List.append_eq_nil_iff.1 hbody).1]
    exact key_dispatched htype hr.isHead hhead hr.ne_nil hr.noSpace hr.short reads
  cases r with
  | set key data => exact set_dispatched hvalid
  | get key =>
    obtain ⟨t, hserve, htag, hlog, hresp⟩ := hkeyed (Or.inl rfl) rfl hvalid.1.written
    exact ⟨t, hserve, congrArg RequestTag.parseStatus htag, congrArg RequestTag.cmdType htag,
      congrArg RequestTag.key htag, by simp [Request.data], hlog, hresp⟩
  | delete key =>
    obtain ⟨t, hserve, htag, hlog, hresp⟩ := hkeyed (Or.inr rfl) rfl hvalid.1.written
    exact ⟨t, hserve, congrArg RequestTag.parseStatus htag, congrArg RequestTag.cmdType htag,
      congrArg RequestTag.key htag, by simp [Request.data], hlog, hresp⟩

/-- The worker answers a request, on a store that represents a map. -/
lemma Carries.served {r : Request} {t : QueryTask} (ht : Carries r t) {n : ℕ} {m : Kv} {w : World}
    (hr : Represents n m w) {bsp : Handle}
    (hallows : Client.Allows ⟨w, some bsp⟩ n (.call r.call)) :
    ∃ t' w', Service.result (exec (handle noFaults) (handleRequest Call.prog t) [] w) =
        some (t', w') ∧
      Client.step ⟨w, some bsp⟩ (.call r.call) =
        some ((m.step (.call r.call)).1, ⟨w', some bsp⟩) ∧
      Represents n (m.step (.call r.call)).2 w' ∧
      t'.queryResponse.Says (r.response (m (fixedKey r.key))) := by
  obtain ⟨w', hstep, hr'⟩ := Client.Inv.call hr r.call hallows
  obtain ⟨ret, t', hfinish, hsaid⟩ := ht.replied m
  refine ⟨t', w', ?_, hstep, hr', hsaid⟩
  simp only [Client.step] at hstep
  rw [handleRequest_carries Call.prog ht, exec_bind (I := store)]
  cases hexec : exec (handle noFaults) r.call.prog [] w with
  | returned reply h' w'' =>
    rw [hexec] at hstep
    simp only [Option.some.injEq, Prod.mk.injEq, Client.mk.injEq, and_true] at hstep
    obtain ⟨rfl, rfl⟩ := hstep
    have hdone : (Outcome.returned (m.step (.call r.call)).1 h' w'').andThen
        (fun reply h w => exec (handle noFaults)
          (pure (r.finish reply t) : Prog store _) h w) =
        .returned (.ok (ret, t')) h' w'' := by
      rw [← hfinish]
      rfl
    exact congrArg Service.result hdone
  | aborted w => simp [hexec] at hstep
  | blocked w => simp [hexec] at hstep

/-- The worker answers a head that was refused. -/
lemma refused_served {t : QueryTask} (hstate : t.state = .returnFailed)
    (hparse : t.queryRequest.parseStatus ≠ .succ) (hresp : t.queryResponse = .zero) (w : World) :
    ∃ t', Service.result (exec (handle noFaults) (handleRequest Call.prog t) [] w) = some (t', w) ∧
      t'.queryResponse.Says mcErrStr := by
  have hempty : t.queryResponse.Empty := by
    rw [hresp]
    exact ⟨rfl, rfl⟩
  have hhandle : handleRequest Call.prog t = pure (.ok (0, t.withLine mcErrStr)) := by
    unfold handleRequest
    rw [if_pos hparse]
    simp only [check_bind, if_pos hstate, buildResponse_returnFailed hstate, respondLine_eq,
      if_pos hempty]
    rfl
  refine ⟨t.withLine mcErrStr, ?_, says_withLine (by rw [hresp]; rfl) (by rw [hresp]; rfl) _⟩
  rw [hhandle]
  rfl

/-- What a client reads is what the worker says. -/
lemma Wire.exchange_of_replied {x : Exchange} {t t' : QueryTask} {w w' : World} {bytes : List UInt8}
    (hserve : Conn.serve slabAlloc (.watched acceptedTask) x.arrivals = .dispatched t)
    (hresult : Service.result (exec (handle noFaults) (handleRequest Call.prog t) [] w) =
      some (t', w')) (hsaid : t'.queryResponse.Says bytes) :
    Wire.exchange slabAlloc w x = some (bytes, w') := by
  simp only [Wire.exchange, hserve, hresult, hsaid.sendResponse, hsaid.sent]

end Exchange

/-! ## Sequences of exchanges -/

/-- The calls that a server makes for some exchanges. -/
def wireCalls (largest : ℕ) (xs : List Exchange) : List StoreEvent :=
  serviceCalls largest (xs.filterMap Exchange.request?)

/-- Exchanges, on a store that holds a map. -/
lemma wire_run {slabAlloc : ℕ → Option (ℕ → UInt8)} (xs : List Exchange) {n : ℕ} {tbl : Table}
    {m : Kv} {w : World} {bsp : Handle} (hfiled : tbl.Filed m) (hr : Represents n m w)
    (hvalid : ∀ x ∈ xs, x.Valid slabAlloc)
    (hlawful : Client.Lawful n ⟨w, some bsp⟩
      ((xs.filterMap Exchange.request?).map fun r => .call r.call)) :
    ∃ w', Wire.run slabAlloc w xs = some (tbl.answers xs, w') := by
  induction xs generalizing tbl m w with
  | nil => exact ⟨w, rfl⟩
  | cons x xs ih =>
    have hx := hvalid x (List.mem_cons_self ..)
    have hxs : ∀ y ∈ xs, y.Valid slabAlloc := fun y hy => hvalid y (List.mem_cons_of_mem _ hy)
    cases x with
    | refused s d =>
      obtain ⟨t, hserve, hstate, hparse, hresp⟩ := refused_dispatched hx
      obtain ⟨t', hresult, hsaid⟩ := refused_served hstate hparse hresp w
      have hexchange := Wire.exchange_of_replied (x := .refused s d) hserve hresult hsaid
      obtain ⟨w', hrun⟩ := ih hfiled hr hxs hlawful
      exact ⟨w', by simp only [Wire.run, hexchange, hrun, Option.map_some, Table.answers]⟩
    | request r s d reads =>
      obtain ⟨hallows, hrest⟩ := hlawful
      obtain ⟨t, hserve, ht⟩ := request_dispatched hx
      obtain ⟨t', w₁, hresult, hclient, hr₁, hsaid⟩ := ht.served hr hallows
      have hkey : 0 ∉ r.key := hx.1.noNul
      have hexchange := Wire.exchange_of_replied (x := .request r s d reads) hserve hresult hsaid
      obtain ⟨w', hrun⟩ := ih (hfiled.apply hkey) hr₁ hxs (hrest _ _ hclient)
      refine ⟨w', ?_⟩
      simp only [Wire.run, hexchange, hrun, Option.map_some, Table.answers, hfiled r.key hkey]

/-- The service on the wire.  A store has been opened in an empty directory, and clients connect one
after another; each sends a request whose head comes with the first read and whose body, if it has
one, comes in any pieces, or a head that is refused.  If the calls of the storage are lawful then the
server answers every client, and what the clients read is what they would read from a map of keys,
cut off after `KEY_LEN` bytes, to values. -/
theorem wire_refines {slabAlloc : ℕ → Option (ℕ → UInt8)} {w₀ : World} {largest : ℕ}
    {xs : List Exchange} (hblank : Blank w₀)
    (hlimit : effectiveSize largest < beginningSize * 2 ^ maxBlockCnt)
    (hvalid : ∀ x ∈ xs, x.Valid slabAlloc)
    (hlawful : Client.Lawful 0 ⟨w₀, none⟩ (wireCalls largest xs)) :
    ∃ w, Wire.run slabAlloc (openStorage {} largest w₀).world xs =
      some (Table.answers (fun _ => none) xs, w) := by
  obtain ⟨⟨-, hsize⟩, hcalls⟩ := hlawful
  obtain ⟨w₁, hr, hrests⟩ := hblank.inv
  obtain ⟨w, hopen, hr'⟩ := hr.reopen hrests hsize hlimit
  have hstep : Client.step ⟨w₀, none⟩ (.openStorage largest) =
      some ({ ret := 0 }, ⟨w, some ⟨true, true, true⟩⟩) := by
    simp only [Client.step, hopen]
  rw [hopen]
  exact wire_run xs (fun _ _ => rfl) hr' hvalid (hcalls _ _ hstep)

/-- A set whose body comes in two pieces, a head that is refused, and a get. -/
def threeClients : List Exchange :=
  [.request (.set (ascii ['a']) [2])
      (ascii ['s', 'e', 't', ' ', 'a', ' ', '0', ' ', '0', ' ', '1']) [2, 13]
      [.error .again, .ok [10]],
    .refused (ascii ['s', 'e', 't', ' ', 'a']) [],
    .request (.get (ascii ['a'])) (ascii ['g', 'e', 't', ' ', 'a']) [] []]

lemma threeClients_valid : ∀ x ∈ threeClients, x.Valid plentyMemory := by
  intro x hx
  simp only [threeClients, List.mem_cons, List.not_mem_nil, or_false] at hx
  rcases hx with rfl | rfl | rfl
  · refine ⟨⟨⟨by decide, by decide, by decide⟩, ?_, by decide, by decide, by decide⟩, by decide,
      by simp [ReadResult.Delivers], by decide, by decide, by simp [plentyMemory]⟩
    exact ⟨ascii ['s', 'e', 't'], ascii ['0'], ascii ['0'], ascii ['1'], [], by decide +kernel,
      by decide, by decide⟩
  · exact ⟨⟨by decide, by decide, by decide⟩, by decide, by decide +kernel⟩
  · refine ⟨⟨⟨by decide, by decide, by decide⟩, ?_, by decide, by decide, by decide⟩, by decide,
      by simp, rfl⟩
    exact ⟨0, 0, ascii ['g', 'e', 't'], by decide, by decide⟩

/-- The calls for these clients can be made. -/
lemma threeClients_lawful :
    Client.Lawful 0 ⟨World.empty, none⟩ (wireCalls 1024 threeClients) := by
  obtain ⟨w, hopen, hl, hcfg, hindex, hentry, -⟩ := exists_small_store
  refine ⟨⟨rfl, Nat.zero_le _⟩, fun r c hstep => ?_⟩
  simp only [Client.step, hopen, Option.some.injEq, Prod.mk.injEq] at hstep
  obtain ⟨-, rfl⟩ := hstep
  refine ⟨small_update_allows hl hcfg hindex hentry (ascii ['a']) ⟨true, true, true⟩,
    fun r c hstep => ?_⟩
  have hupdate := small_update hl hcfg hindex (ascii ['a'])
  simp only [Client.step, Request.call, Call.prog, hupdate, Option.some.injEq, Prod.mk.injEq]
    at hstep
  obtain ⟨-, rfl⟩ := hstep
  exact ⟨find_allows _ _ _ _, fun _ _ _ => trivial⟩

/-- What these clients read. -/
theorem wire_refines_three_clients :
    ∃ w, Wire.run plentyMemory (openStorage {} 1024 World.empty).world threeClients =
      some ([mcSetDoneStr, mcErrStr,
        ascii ['V', 'A', 'L', 'U', 'E', ' ', 'a', ' ', '0', ' ', '1', '\r', '\n'] ++
          [2, 13, 10]], w) := by
  obtain ⟨w, hrun⟩ :=
    wire_refines blank_empty (by decide) threeClients_valid threeClients_lawful
  exact ⟨w, hrun⟩

end Linglongta
