import Linglongta.Server.Heads
import Linglongta.Server.QueryThread
import Linglongta.Storage.Refinement

/-!
# The service as a key-value store

Requests are handled one after another: `parse_memcached_string_head` reads the head,
`handle_request` calls the storage and builds the response.  `Service.step` is one request on an
open store in which everything works.

The parser accepts keys of up to 250 bytes, and the storage files every record under the first
`KEY_LEN` bytes of its key.  `service_answers_latest` says that this is what the identity of keys
amounts to: a get is answered with the data of the latest set of a key with the same first bytes.
-/

namespace Linglongta

open CString Prog

/-! ## Requests -/

/-- A request of a client. -/
inductive Request
  /-- A set. -/
  | set (key data : List UInt8)
  /-- A get. -/
  | get (key : List UInt8)
  /-- A delete. -/
  | delete (key : List UInt8)
deriving DecidableEq

namespace Request

/-- The key. -/
def key : Request → List UInt8
  | set key _ => key
  | get key => key
  | delete key => key

/-- The body, none if there is no body. -/
def data : Request → Option (List UInt8)
  | set _ data => some data
  | get _ => none
  | delete _ => none

/-- The call of the storage that the request asks for. -/
def call : Request → Call
  | set key data => .update key data
  | get key => .find key
  | delete key => .delete key

/-- A head with a command and a key, separated by spaces. -/
def KeyHead (cmd key s : List UInt8) : Prop :=
  ∃ i j c, strcaseEq c cmd = true ∧
    s = List.replicate i space ++ (c ++ space :: (List.replicate j space ++ key))

/-- A head with which the request can be written. -/
def Written : Request → List UInt8 → Prop
  | set key data, s => ∃ c f e n ts, tokens space s = c :: key :: f :: e :: n :: ts ∧
      strcaseEq c (ascii ['s', 'e', 't']) = true ∧ atol n = data.length
  | get key, s => KeyHead (ascii ['g', 'e', 't']) key s
  | delete key, s => KeyHead (ascii ['d', 'e', 'l', 'e', 't', 'e']) key s

/-- A request, and the head with which it is written.  The key is not empty, has no space and is not
too long for `parse_set_cmd`. -/
structure Valid (r : Request) (s : List UInt8) : Prop where
  /-- The head is complete. -/
  isHead : IsHead s
  /-- It is a head for the request. -/
  written : r.Written s
  /-- The key is not empty. -/
  ne_nil : r.key ≠ []
  /-- It has no space. -/
  noSpace : space ∉ r.key
  /-- It is not too long. -/
  short : r.key.length < maxKeySize

end Request

/-! ## Parsing a command with a key -/

section KeyHeads

variable {qr : QueryRequest} {key s : List UInt8}

/-- The request after a command with a key has been parsed. -/
def QueryRequest.withKey (qr : QueryRequest) (type : CmdType) (key : List UInt8) : QueryRequest :=
  { qr with key := key, cmdType := type, parseStatus := .succ }

/-- A get head or a delete head is parsed. -/
lemma parse_of_keyHead {type : CmdType} (hhead : qr.head = s ++ mcTermStr)
    (htype : type = .get ∨ type = .delete) (hs : Request.KeyHead type.word key s) (hne : key ≠ [])
    (hspace : space ∉ key) (hshort : key.length < maxKeySize) :
    parseMemcachedStringHead qr = (0, qr.withKey type key) := by
  obtain ⟨i, j, c, hc, rfl⟩ := hs
  have hunknown : type ≠ .unknown := by
    rcases htype with rfl | rfl <;> decide
  have hargs : type.parseArgs = parseKeyCmd fun _ => true := by
    rcases htype with rfl | rfl <;> rfl
  have hscan := scanKey_of_argument hne hspace ⟨j, 0, Nat.zero_le 1, rfl⟩
  rw [List.take_of_length_le (by omega), List.replicate_zero, List.append_nil] at hscan
  rw [parse_of_command hhead hunknown ⟨i, c, hc, rfl⟩, hargs, parseKeyCmd, hscan]
  rfl

end KeyHeads

/-! ## The service -/

/-- The task that a worker gets for a request with this head and this body. -/
def servedTask (s : List UInt8) (data : Option (List UInt8)) : QueryTask :=
  { acceptedTask with
    state := .dispatchQueryTask
    queryRequest := { (parseMemcachedStringHead (headRequest s [])).2 with
      data := data.map fun data =>
        Buffer.copy ⟨data.length + mcTermStr.length, fun _ => 0, 0⟩ 0 (data ++ mcTermStr) } }

/-- The task that has been answered and the world, none if the process stopped or the call did not
return. -/
def Service.result : Outcome store (Except Assertion (Int × QueryTask)) World → Option (QueryTask × World)
  | .returned (.ok (_, t)) _ w => some (t, w)
  | .returned (.error _) _ _ => none
  | .aborted _ => none
  | .blocked _ => none

/-- One request on an open store, with everything working: the task when it has been answered, and
the world afterwards. -/
def Service.step (w : World) (s : List UInt8) (data : Option (List UInt8)) :
    Option (QueryTask × World) :=
  Service.result (exec (handle noFaults) (handleRequest Call.prog (servedTask s data)) [] w)

/-- A sequence of requests, each with its head: the world afterwards. -/
def Service.run (w : World) : List (Request × List UInt8) → Option World
  | [] => some w
  | x :: xs =>
    match Service.step w x.2 x.1.data with
    | none => none
    | some (_, w') => Service.run w' xs

/-- A get has been answered with this value, or with the line for a key that is not there. -/
def Answers (key : List UInt8) (value : Option (List UInt8)) (t : QueryTask) : Prop :=
  match value with
  | some data => t.queryResponse.respDataBuf = some data ∧
      t.queryResponse.respDataSize = data.length ∧
      t.queryResponse.respHeadBuf = mcGetHeader key data.length
  | none => t.queryResponse.respDataBuf = none ∧ t.queryResponse.respHeadBuf = mcGetDoneStr

/-- What a request makes of the value of a key. -/
def Request.effect (same : List UInt8 → List UInt8 → Prop) [DecidableRel same] (K : List UInt8)
    (value : Option (List UInt8)) : Request → Option (List UInt8)
  | set key data => if same key K then some data else value
  | delete key => if same key K then none else value
  | get _ => value

/-- The data of the latest set of a key that is not followed by a delete, in a sequence of
requests. -/
def latest (same : List UInt8 → List UInt8 → Prop) [DecidableRel same] (K : List UInt8)
    (rs : List Request) : Option (List UInt8) :=
  rs.foldl (Request.effect same K) none

/-- The calls that a service makes, on a store that is opened with this size. -/
def serviceCalls (largest : ℕ) (rs : List Request) : List StoreEvent :=
  .openStorage largest :: rs.map fun r => .call r.call

/-- Whatever requests have been handled, a get of a key is answered with the data of the latest set
of the same key that is not followed by a delete of the same key.  The store has been opened in an
empty directory, all the calls succeed and the sizes fit. -/
def AnswersLatest (same : List UInt8 → List UInt8 → Prop) [DecidableRel same] : Prop :=
  ∀ (w₀ : World) (largest : ℕ) (xs : List (Request × List UInt8)) (K s : List UInt8), Blank w₀ →
    effectiveSize largest < beginningSize * 2 ^ maxBlockCnt → (∀ x ∈ xs, x.1.Valid x.2) →
    (Request.get K).Valid s →
    Client.Lawful 0 ⟨w₀, none⟩ (serviceCalls largest (xs.map Prod.fst)) →
    ∃ w t w', Service.run (openStorage {} largest w₀).world xs = some w ∧
      Service.step w s none = some (t, w') ∧ Answers K (latest same K (xs.map Prod.fst)) t

/-! ## One request -/

/-- A task that carries a request. -/
structure Carries (r : Request) (t : QueryTask) : Prop where
  /-- It has been parsed. -/
  parseStatus : t.queryRequest.parseStatus = .succ
  /-- It has the command of the request. -/
  cmdType : t.queryRequest.cmdType = match r with
    | .set _ _ => .set
    | .get _ => .get
    | .delete _ => .delete
  /-- It has its key. -/
  key : t.queryRequest.key = r.key
  /-- It has its body. -/
  body : ∀ data, r.data = some data → t.queryRequest.body = data
  /-- Nothing has been logged. -/
  errorLog : t.errorLog = none
  /-- There is no response yet. -/
  queryResponse : t.queryResponse = .zero

/-- The end of `handle_request`, given the reply of the storage. -/
def Request.finish (r : Request) (reply : Reply) (t : QueryTask) : Except Assertion (Int × QueryTask) :=
  match r with
  | .set _ _ => finishRequest reply.ret .setSuccess .setFailed t
  | .get _ => finishRequest reply.ret .getSuccess .getFailed { t with
      queryResponse := { t.queryResponse with
        respDataBuf := reply.valuePtr, respDataSize := reply.valueLen } }
  | .delete _ => finishRequest reply.ret .deleteSuccess .deleteFailed t

section Serving

variable {r : Request} {s : List UInt8} {t : QueryTask}

/-- The body is what has been copied before the line end. -/
lemma bytes_body (data : List UInt8) :
    (Buffer.copy ⟨data.length + mcTermStr.length, fun _ => 0, 0⟩ 0 (data ++ mcTermStr)).bytes
      data.length = data := by
  have hall := Buffer.bytes_copy ⟨data.length + mcTermStr.length, fun _ => 0, 0⟩ 0
    (data ++ mcTermStr)
  have htake := Buffer.take_bytes (Buffer.copy ⟨data.length + mcTermStr.length, fun _ => 0, 0⟩ 0
    (data ++ mcTermStr)) (n := 0 + (data ++ mcTermStr).length) (k := data.length) (by simp)
  rw [← htake, hall]
  simp [Buffer.bytes]

/-- A request that is written in one of its ways reaches the worker. -/
lemma Request.Valid.carries (h : r.Valid s) : Carries r (servedTask s r.data) := by
  have hlen : (s ++ (mcTermStr ++ [])).length ≤ maxQueryHeaderSize := by simpa using h.isHead.short.le
  have hhead := head_headRequest h.isHead hlen
  cases r with
  | set key data =>
    obtain ⟨c, f, e, n, ts, htok, hc, hn⟩ := h.written
    have hparse := parse_of_setHead hhead htok hc h.short
    have hsize : toSizeT (atol n) = data.length := by
      rw [hn]
      refine toSizeT_natCast ?_
      have hmem := (atol_mem n).2
      omega
    refine ⟨?_, ?_, ?_, ?_, rfl, rfl⟩
    · simp [servedTask, hparse, QueryRequest.accepted]
    · simp [servedTask, hparse, QueryRequest.accepted]
    · simp [servedTask, hparse, QueryRequest.accepted, QueryRequest.withSet, Request.key]
    · intro data' hdata
      obtain rfl := Option.some.inj hdata
      simp [servedTask, hparse, QueryRequest.accepted, QueryRequest.withSet, QueryRequest.body,
        Request.data, hsize, bytes_body]
  | get key =>
    have hparse := parse_of_keyHead hhead (Or.inl rfl) h.written h.ne_nil h.noSpace h.short
    refine ⟨?_, ?_, ?_, nofun, rfl, rfl⟩ <;>
      simp [servedTask, hparse, QueryRequest.withKey, Request.key]
  | delete key =>
    have hparse := parse_of_keyHead hhead (Or.inr rfl) h.written h.ne_nil h.noSpace h.short
    refine ⟨?_, ?_, ?_, nofun, rfl, rfl⟩ <;>
      simp [servedTask, hparse, QueryRequest.withKey, Request.key]

/-- `handle_request` makes the call of the request. -/
lemma handleRequest_carries {m : Type → Type} [Monad m] (storage : Call → m Reply) (ht : Carries r t) :
    handleRequest storage t = storage r.call >>= fun reply => pure (r.finish reply t) := by
  have hparse : ¬ t.queryRequest.parseStatus ≠ .succ := not_not.2 ht.parseStatus
  unfold handleRequest
  rw [if_neg hparse, ht.cmdType]
  cases r with
  | set key data => simp only [ht.key, ht.body data rfl, Request.key, Request.call, Request.finish]
  | get key =>
    have hbuf : ¬ t.queryResponse.respDataBuf ≠ none := by
      simp [ht.queryResponse, QueryResponse.zero]
    simp only [if_neg hbuf, ht.key, Request.key, Request.call, Request.finish]
  | delete key => simp only [ht.key, Request.key, Request.call, Request.finish]

/-- A request that has been given the reply of a key-value store is answered. -/
lemma Carries.finish (ht : Carries r t) (m : Kv) :
    ∃ ret t', r.finish (m.step (.call r.call)).1 t = .ok (ret, t') ∧
      ∀ K, r = .get K → Answers K (m (fixedKey K)) t' := by
  have hempty : t.queryResponse.Empty := by
    rw [ht.queryResponse]
    exact ⟨rfl, rfl⟩
  have hmiss : dbNotfound ≠ 0 := by decide
  cases r with
  | set key data => exact ⟨_, _, finishRequest_success .set hempty, fun K hK => Request.noConfusion hK⟩
  | get key =>
    cases hvalue : m (fixedKey key) with
    | some data =>
      have hfinish : (Request.get key).finish (m.step (.call (.find key))).1 t =
          finishRequest 0 .getSuccess .getFailed { t with queryResponse := { t.queryResponse with
            respDataBuf := some data, respDataSize := data.length } } := by
        simp only [Request.finish, Kv.step, hvalue, valueReply]
      refine ⟨_, _, hfinish.trans (finishRequest_get _ _), ?_⟩
      rintro K hK
      obtain rfl := Request.get.inj hK
      rw [hvalue]
      exact ⟨rfl, rfl, congrArg (mcGetHeader · data.length) ht.key⟩
    | none =>
      have hfinish : (Request.get key).finish (m.step (.call (.find key))).1 t =
          finishRequest dbNotfound .getSuccess .getFailed { t with
            queryResponse := { t.queryResponse with respDataBuf := none, respDataSize := 0 } } := by
        simp only [Request.finish, Kv.step, hvalue, valueReply]
      rw [finishRequest_failure .get hmiss (by exact ht.errorLog), if_pos ⟨rfl, rfl⟩] at hfinish
      refine ⟨_, _, hfinish, ?_⟩
      rintro K hK
      obtain rfl := Request.get.inj hK
      rw [hvalue]
      exact ⟨rfl, rfl⟩
  | delete key =>
    by_cases hvalue : m (fixedKey key) = none
    · have hfinish : (Request.delete key).finish (m.step (.call (.delete key))).1 t =
          finishRequest dbNotfound .deleteSuccess .deleteFailed t := by
        simp only [Request.finish, Kv.step, if_pos hvalue]
      exact ⟨_, _, hfinish.trans ((finishRequest_failure .delete hmiss ht.errorLog).trans
        (if_pos hempty)), fun K hK => Request.noConfusion hK⟩
    · have hfinish : (Request.delete key).finish (m.step (.call (.delete key))).1 t =
          finishRequest 0 .deleteSuccess .deleteFailed t := by
        simp only [Request.finish, Kv.step, if_neg hvalue]
      exact ⟨_, _, hfinish.trans (finishRequest_success .delete hempty),
        fun K hK => Request.noConfusion hK⟩

/-- One request, on a store that represents a map. -/
lemma Request.Valid.step (h : r.Valid s) {n : ℕ} {m : Kv} {w : World} (hr : Represents n m w)
    {bsp : Handle} (hallows : Client.Allows ⟨w, some bsp⟩ n (.call r.call)) :
    ∃ t w', Service.step w s r.data = some (t, w') ∧
      Client.step ⟨w, some bsp⟩ (.call r.call) =
        some ((m.step (.call r.call)).1, ⟨w', some bsp⟩) ∧
      Represents n (m.step (.call r.call)).2 w' ∧ ∀ K, r = .get K → Answers K (m (fixedKey K)) t := by
  obtain ⟨w', hstep, hr'⟩ := Client.Inv.call hr r.call hallows
  obtain ⟨ret, t, hfinish, hanswer⟩ := h.carries.finish m
  refine ⟨t, w', ?_, hstep, hr', hanswer⟩
  simp only [Client.step] at hstep
  unfold Service.step
  rw [handleRequest_carries Call.prog h.carries, exec_bind (I := store)]
  cases hexec : exec (handle noFaults) r.call.prog [] w with
  | returned reply h' w'' =>
    rw [hexec] at hstep
    simp only [Option.some.injEq, Prod.mk.injEq, Client.mk.injEq, and_true] at hstep
    obtain ⟨rfl, rfl⟩ := hstep
    have hdone : (Outcome.returned (m.step (.call r.call)).1 h' w'').andThen
        (fun reply h w => exec (handle noFaults)
          (pure (r.finish reply (servedTask s r.data)) : Prog store _) h w) =
        .returned (.ok (ret, t)) h' w'' := by
      rw [← hfinish]
      rfl
    exact congrArg Service.result hdone
  | aborted w => simp [hexec] at hstep
  | blocked w => simp [hexec] at hstep

end Serving

/-! ## Keys -/

/-- The two keys have the same first `KEY_LEN` bytes. -/
def SameStart (k K : List UInt8) : Prop :=
  k.take keyLen = K.take keyLen

instance : DecidableRel SameStart := fun _ _ => inferInstanceAs (Decidable (_ = _))

/-- The string in the buffer for a normalised key. -/
lemma ofBuffer_fixedKey {k : List UInt8} (h : 0 ∉ k) : ofBuffer (fixedKey k).bytes = k.take keyLen := by
  have hnul : (0 : UInt8) ∉ k.take keyLen := fun hmem => h (List.mem_of_mem_take hmem)
  have hzeros : ofBuffer (List.replicate (keyLen - k.length) 0) = [] := by
    cases keyLen - k.length <;> rfl
  have hbytes : (fixedKey k).bytes = k.take keyLen ++ List.replicate (keyLen - k.length) 0 := by
    simp [fixedKey, Blob.copy]
  rw [hbytes, ofBuffer_append hnul, hzeros, List.append_nil]

/-- Two keys without zero bytes are filed under the same key if and only if they have the same first
bytes. -/
lemma fixedKey_eq_iff {k K : List UInt8} (hk : 0 ∉ k) (hK : 0 ∉ K) :
    fixedKey k = fixedKey K ↔ SameStart k K := by
  constructor
  · intro h
    rw [SameStart, ← ofBuffer_fixedKey hk, ← ofBuffer_fixedKey hK, h]
  · intro h
    have hlen : keyLen - k.length = keyLen - K.length := by
      have := congrArg List.length h
      simp only [List.length_take] at this
      omega
    ext1
    simp [fixedKey, Blob.copy, hlen, show k.take keyLen = K.take keyLen from h]

/-- The key of a request has no zero byte. -/
lemma Request.Valid.noNul {r : Request} {s : List UInt8} (h : r.Valid s) : (0 : UInt8) ∉ r.key := by
  suffices hsub : r.key ⊆ s from fun hmem => h.isHead.noNul (hsub hmem)
  cases r with
  | set key data =>
    obtain ⟨c, f, e, n, ts, htok, -⟩ := h.written
    obtain ⟨rest, hfirst, hrest⟩ := strtok_of_tokens htok
    obtain ⟨rest', hsecond, -⟩ := strtok_of_tokens hrest
    exact List.Subset.trans (subset_of_strtok hsecond).1 (subset_of_strtok hfirst).2
  | get key =>
    obtain ⟨i, j, c, -, rfl⟩ := h.written
    intro x hx
    simp [Request.key] at hx
    simp [hx]
  | delete key =>
    obtain ⟨i, j, c, -, rfl⟩ := h.written
    intro x hx
    simp [Request.key] at hx
    simp [hx]

/-- What a change of one key makes of the value of another. -/
lemma update_fixedKey (m : Kv) {k K : List UInt8} (hk : 0 ∉ k) (hK : 0 ∉ K)
    (value : Option (List UInt8)) :
    Function.update m (fixedKey k) value (fixedKey K) =
      if SameStart k K then value else m (fixedKey K) := by
  by_cases h : SameStart k K
  · rw [if_pos h, (fixedKey_eq_iff hk hK).2 h, Function.update_self]
  · rw [if_neg h, Function.update_of_ne fun heq => h ((fixedKey_eq_iff hk hK).1 heq.symm)]

/-- What a request makes of the value of a key in the store. -/
lemma step_fixedKey (m : Kv) {r : Request} {K : List UInt8} (hr : 0 ∉ r.key) (hK : 0 ∉ K) :
    (m.step (.call r.call)).2 (fixedKey K) = r.effect SameStart K (m (fixedKey K)) := by
  cases r with
  | set key data => exact update_fixedKey m hr hK (some data)
  | get key => rfl
  | delete key => exact update_fixedKey m hr hK none

/-! ## Sequences of requests -/

/-- A sequence of requests, on a store that represents a map. -/
lemma service_run (xs : List (Request × List UInt8)) {n : ℕ} {m : Kv} {w : World} {bsp : Handle}
    (hr : Represents n m w) (hvalid : ∀ x ∈ xs, x.1.Valid x.2)
    (hlawful : Client.Lawful n ⟨w, some bsp⟩ ((xs.map Prod.fst).map fun r => .call r.call)) :
    ∃ w' m', Service.run w xs = some w' ∧ Represents n m' w' ∧
      ∀ K, 0 ∉ K → m' (fixedKey K) =
        (xs.map Prod.fst).foldl (Request.effect SameStart K) (m (fixedKey K)) := by
  induction xs generalizing m w with
  | nil => exact ⟨w, m, rfl, hr, fun _ _ => rfl⟩
  | cons x xs ih =>
    obtain ⟨hallows, hrest⟩ := hlawful
    have hx := hvalid x (List.mem_cons_self ..)
    obtain ⟨t, w₁, hstep, hclient, hr₁, -⟩ := hx.step hr hallows
    obtain ⟨w', m', hrun, hr', hvalues⟩ := ih hr₁ (fun y hy => hvalid y (List.mem_cons_of_mem _ hy))
      (hrest _ _ hclient)
    refine ⟨w', m', ?_, hr', fun K hK => ?_⟩
    · simp only [Service.run, hstep, hrun]
    · rw [hvalues K hK, step_fixedKey m hx.noNul hK]
      rfl

/-- A get is answered with the data of the latest set of a key with the same first bytes. -/
lemma service_get {w₀ : World} (hblank : Blank w₀) {largest : ℕ}
    (hlimit : effectiveSize largest < beginningSize * 2 ^ maxBlockCnt)
    {xs : List (Request × List UInt8)} (hvalid : ∀ x ∈ xs, x.1.Valid x.2) {K s : List UInt8}
    (hget : (Request.get K).Valid s)
    (hlawful : Client.Lawful 0 ⟨w₀, none⟩ (serviceCalls largest (xs.map Prod.fst))) :
    ∃ w t w', Service.run (openStorage {} largest w₀).world xs = some w ∧
      Service.step w s none = some (t, w') ∧
      Answers K (latest SameStart K (xs.map Prod.fst)) t := by
  obtain ⟨⟨-, hsize⟩, hcalls⟩ := hlawful
  obtain ⟨w₁, hr, hrests⟩ := hblank.inv
  obtain ⟨w, hopen, hr'⟩ := hr.reopen hrests hsize hlimit
  have hstep : Client.step ⟨w₀, none⟩ (.openStorage largest) =
      some ({ ret := 0 }, ⟨w, some ⟨true, true, true⟩⟩) := by
    simp only [Client.step, hopen]
  obtain ⟨w', m', hrun, hr'', hvalues⟩ := service_run xs hr' hvalid (hcalls _ _ hstep)
  obtain ⟨t, w'', hserve, -, -, hanswer⟩ := hget.step hr''
    (find_allows w' ⟨true, true, true⟩ (effectiveSize largest) K)
  refine ⟨w', t, w'', by rw [hopen]; exact hrun, hserve, ?_⟩
  have hlatest : m' (fixedKey K) = latest SameStart K (xs.map Prod.fst) := hvalues K hget.noNul
  rw [← hlatest]
  exact hanswer K rfl

/-- Key identity.  Whatever requests have been handled, a get of a key is answered with the data of
the latest set of a key with the same first `KEY_LEN` bytes that is not followed by a delete of such
a key. -/
theorem service_answers_latest : AnswersLatest SameStart := by
  intro w₀ largest xs K s hblank hlimit hvalid hget hlawful
  exact service_get hblank hlimit hvalid hget hlawful

/-! ## Two long keys -/

/-- A key of `KEY_LEN` bytes and one more. -/
def longKey (c : Char) : List UInt8 :=
  ascii (List.replicate keyLen 'k' ++ [c])

/-- A set of a long key and a delete of another one, with their heads. -/
def longKeyRequests : List (Request × List UInt8) :=
  [(.set (longKey 'a') [2],
      ascii ['s', 'e', 't', ' '] ++ longKey 'a' ++ ascii [' ', '0', ' ', '0', ' ', '1']),
    (.delete (longKey 'b'), ascii ['d', 'e', 'l', 'e', 't', 'e', ' '] ++ longKey 'b')]

lemma longKeyRequests_valid : ∀ x ∈ longKeyRequests, x.1.Valid x.2 := by
  intro x hx
  simp only [longKeyRequests, List.mem_cons, List.not_mem_nil, or_false] at hx
  rcases hx with rfl | rfl
  · refine ⟨⟨by decide, by decide, by decide⟩, ?_, by decide, by decide, by decide⟩
    exact ⟨ascii ['s', 'e', 't'], ascii ['0'], ascii ['0'], ascii ['1'], [], by decide +kernel,
      by decide, by decide⟩
  · refine ⟨⟨by decide, by decide, by decide⟩, ?_, by decide, by decide, by decide⟩
    exact ⟨0, 0, ascii ['d', 'e', 'l', 'e', 't', 'e'], by decide, by decide⟩

/-- A `delete_block` may be made. -/
lemma delete_allows {n : ℕ} {m : Kv} {w : World} (hr : Represents n m w) (bsp : Handle)
    (key : List UInt8) : Client.Allows ⟨w, some bsp⟩ n (.call (.delete key)) := by
  have hfree : FileFree [] := fun b mode hmem => by simp at hmem
  refine ⟨by simp, by simp, ?_⟩
  rw [Call.prog, recordWrites_deleteBlock hr.sound.usable.ready hfree key (by simp [Admits])]
  simp

/-- The two requests can be handled. -/
lemma longKeyRequests_lawful : Client.Lawful 0 ⟨World.empty, none⟩
    (serviceCalls 1024 (longKeyRequests.map Prod.fst)) := by
  obtain ⟨w, hopen, hl, hcfg, hindex, hentry, -⟩ := exists_small_store
  refine ⟨⟨rfl, Nat.zero_le _⟩, fun r c hstep => ?_⟩
  obtain ⟨w₁, hr₁, hrests⟩ := blank_empty.inv
  obtain ⟨w₂, hopen₂, hr₂⟩ := hr₁.reopen hrests (Nat.zero_le (effectiveSize 1024)) (by decide)
  obtain rfl : w = w₂ := by
    rw [hopen] at hopen₂
    exact (OpenResult.mk.inj hopen₂).2.2
  simp only [Client.step, hopen, Option.some.injEq, Prod.mk.injEq] at hstep
  obtain ⟨-, rfl⟩ := hstep
  have hallows := small_update_allows hl hcfg hindex hentry (longKey 'a') ⟨true, true, true⟩
  refine ⟨hallows, fun r c hstep => ?_⟩
  obtain ⟨w₃, hstep₃, hr₃⟩ := Client.Inv.call hr₂ _ hallows
  obtain ⟨-, rfl⟩ := Prod.mk.inj (Option.some.inj (hstep₃.symm.trans hstep))
  exact ⟨delete_allows hr₃ _ _, fun _ _ _ => trivial⟩

/-- The head of a get of the first key. -/
def getLongKey : List UInt8 := ascii ['g', 'e', 't', ' '] ++ longKey 'a'

lemma getLongKey_valid : (Request.get (longKey 'a')).Valid getLongKey := by
  refine ⟨⟨by decide, by decide, by decide⟩, ?_, by decide, by decide, by decide⟩
  exact ⟨0, 0, ascii ['g', 'e', 't'], by decide, by decide⟩

/-- The latest request on the first sixteen bytes of the key is the delete. -/
theorem service_answers_latest_deleted :
    ∃ w t w', Service.run (openStorage {} 1024 World.empty).world longKeyRequests = some w ∧
      Service.step w getLongKey none = some (t, w') ∧ Answers (longKey 'a') none t := by
  have hnone : latest SameStart (longKey 'a') (longKeyRequests.map Prod.fst) = none := by decide
  have hanswer := service_answers_latest World.empty 1024 longKeyRequests _ _ blank_empty (by decide)
    longKeyRequests_valid getLongKey_valid longKeyRequests_lawful
  rwa [hnone] at hanswer

/-- Two different keys of seventeen bytes are not told apart: after a set of the first one and a
delete of the second one, a get of the first one finds nothing. -/
theorem service_confuses_long_keys : longKey 'a' ≠ longKey 'b' ∧ ¬ AnswersLatest (· = ·) := by
  refine ⟨by decide, fun hlatest => ?_⟩
  obtain ⟨w, t, w', hrun, hstep, hanswer⟩ := hlatest World.empty 1024 longKeyRequests _ _ blank_empty
    (by decide) longKeyRequests_valid getLongKey_valid longKeyRequests_lawful
  obtain ⟨w₁, t₁, w₁', hrun₁, hstep₁, hanswer₁⟩ := service_get blank_empty (by decide)
    longKeyRequests_valid getLongKey_valid longKeyRequests_lawful
  obtain rfl := Option.some.inj (hrun.symm.trans hrun₁)
  obtain ⟨rfl, -⟩ := Prod.mk.inj (Option.some.inj (hstep.symm.trans hstep₁))
  have hset : latest (· = ·) (longKey 'a') (longKeyRequests.map Prod.fst) = some [2] := by decide
  have hnone : latest SameStart (longKey 'a') (longKeyRequests.map Prod.fst) = none := by decide
  rw [hset] at hanswer
  rw [hnone] at hanswer₁
  exact absurd (hanswer.1.symm.trans hanswer₁.1) (by simp)

end Linglongta
