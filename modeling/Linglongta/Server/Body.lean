import Linglongta.Server.Buffering

/-!
# The body of a set request

`recv_req_data` reads the part of the body that did not come with the head.  `Awaiting` is the state
in between, and `feed_delivers` and `feed_fails` are what one read does to it.  `body_reassembled`
says that the body is put together from any pieces.
-/

namespace Linglongta

open CString

/-! ## The rest of the body -/

/-- The bytes of a read. -/
def ReadResult.bytes : ReadResult → List UInt8
  | .ok bytes => bytes
  | .error _ => []

/-- The bytes of some reads. -/
def arrivedBytes (reads : List ReadResult) : List UInt8 :=
  reads.flatMap ReadResult.bytes

/-- The stream has not ended and has not failed; there may be nothing to read yet. -/
def ReadResult.Delivers : ReadResult → Prop
  | .ok bytes => bytes ≠ []
  | .error errno => errno ≠ .other

/-- What stays the same while a body is received. -/
structure RequestTag where
  /-- `cmd_type`. -/
  cmdType : CmdType
  /-- `parse_status`. -/
  parseStatus : ParseStatus
  /-- `key`. -/
  key : List UInt8
  /-- `flag`. -/
  flag : Int
  /-- `exptime`. -/
  exptime : Int

/-- The tag of a request. -/
def QueryRequest.tag (qr : QueryRequest) : RequestTag where
  cmdType := qr.cmdType
  parseStatus := qr.parseStatus
  key := qr.key
  flag := qr.flag
  exptime := qr.exptime

/-- A task that waits for the rest of a body of `size` bytes, of which some have arrived. -/
structure Awaiting (tag : RequestTag) (size : ℕ) (arrived : List UInt8) (t : QueryTask) : Prop where
  /-- The request has this tag. -/
  tag : t.queryRequest.tag = tag
  /-- There is no response yet. -/
  queryResponse : t.queryResponse = .zero
  /-- It is in this state. -/
  state : t.state = .recvReqData
  /-- Nothing has been logged. -/
  errorLog : t.errorLog = none
  /-- `need_read` is what is missing. -/
  needRead : t.needRead = (size : Int) - arrived.length
  /-- Something is missing. -/
  missing : arrived.length < size
  /-- The size includes the line end. -/
  dataSize : t.queryRequest.dataSize = size
  /-- `have_read` counts the head too. -/
  haveRead : t.haveRead = t.queryRequest.queryHeadBufSize + arrived.length
  /-- What has arrived is in the buffer, which has the right size. -/
  data : ∃ data, t.queryRequest.data = some data ∧ data.size = size ∧
    data.extent = arrived.length ∧ data.bytes arrived.length = arrived

/-- A task that is dispatched with a whole body. -/
structure Whole (tag : RequestTag) (size : ℕ) (body : List UInt8) (t : QueryTask) : Prop where
  /-- The request has this tag. -/
  tag : t.queryRequest.tag = tag
  /-- There is no response yet. -/
  queryResponse : t.queryResponse = .zero
  /-- It is in this state. -/
  state : t.state = .dispatchQueryTask
  /-- Nothing has been logged. -/
  errorLog : t.errorLog = none
  /-- The size does not include the line end any more. -/
  dataSize : t.queryRequest.dataSize = toSizeT ((size : Int) - 2)
  /-- The body has this size. -/
  length : body.length = size
  /-- The buffer holds the body and has not been overrun. -/
  data : ∃ data, t.queryRequest.data = some data ∧ data.size = size ∧
    data.extent = body.length ∧ data.bytes body.length = body

/-- A task that is destroyed because more has arrived than the body has bytes. -/
structure Overfull (tag : RequestTag) (size : ℕ) (body : List UInt8) (t : QueryTask) : Prop where
  /-- The request has this tag. -/
  tag : t.queryRequest.tag = tag
  /-- It is in this state. -/
  state : t.state = .destroyRecv
  /-- The size includes the line end. -/
  dataSize : t.queryRequest.dataSize = size
  /-- What has arrived has been copied. -/
  data : ∃ data, t.queryRequest.data = some data ∧ data.extent = body.length ∧
    data.bytes body.length = body

/-- A connection that waits for the rest of a body. -/
def Conn.Awaits (tag : RequestTag) (size : ℕ) (arrived : List UInt8) (c : Conn) : Prop :=
  ∃ t, (c = .watched t ∨ c = .looping t) ∧ Awaiting tag size arrived t

section Rest

variable {slabAlloc : ℕ → Option (ℕ → UInt8)} {tag : RequestTag} {size : ℕ} {arrived : List UInt8}
variable {t : QueryTask} {c : Conn}

/-- A read while a connection waits for the rest of a body. -/
lemma feed_awaits (slabAlloc : ℕ → Option (ℕ → UInt8)) (h : c.Awaits tag size arrived)
    (read : ReadResult) :
    ∃ t, Awaiting tag size arrived t ∧
      c.feed slabAlloc read = Conn.settle slabAlloc 3 (Conn.ofResult (recvReqData read t)) := by
  obtain ⟨t, hc, ht⟩ := h
  refine ⟨t, ht, ?_⟩
  rcases hc with rfl | rfl
  · simp only [Conn.feed, Conn.round, queryIoRound, ht.state, Conn.ofRound_bind]
  · simp only [Conn.feed, Conn.round, queryIoRound, ht.state, Conn.ofRound_bind]

/-- The buffer after bytes have been copied behind those that have arrived. -/
lemma Awaiting.received (ht : Awaiting tag size arrived t) (bytes : List UInt8) :
    ∃ data, (t.received bytes).queryRequest.data = some data ∧ data.size = size ∧
      data.extent = (arrived ++ bytes).length ∧
      data.bytes (arrived ++ bytes).length = arrived ++ bytes := by
  obtain ⟨data, hdata, hsize, hextent, hbytes⟩ := ht.data
  have hoff : t.haveRead - t.queryRequest.queryHeadBufSize = arrived.length := by
    rw [ht.haveRead]
    omega
  refine ⟨data.copy arrived.length bytes, ?_, hsize, ?_, ?_⟩
  · simp [QueryTask.received, hdata, hoff]
  · simp [hextent]
  · rw [List.length_append, Buffer.bytes_copy, hbytes]

/-- A read that returns some of the missing bytes. -/
lemma recvReqData_part (ht : Awaiting tag size arrived t) {bytes : List UInt8} (hne : bytes ≠ [])
    (hlt : (arrived ++ bytes).length < size) :
    ∃ t', recvReqData (.ok bytes) t = .ok (false, t') ∧
      Awaiting tag size (arrived ++ bytes) t' := by
  rw [List.length_append] at hlt
  have hneed : ¬ t.needRead = 0 := by
    rw [ht.needRead]
    omega
  have hpart : (bytes.length : Int) < (t.received bytes).needRead := by
    show (bytes.length : Int) < t.needRead
    rw [ht.needRead]
    omega
  refine ⟨{ t.received bytes with
    haveRead := t.haveRead + bytes.length, needRead := t.needRead - bytes.length }, ?_, ?_⟩
  · rw [recvReqData, if_neg hneed]
    exact (if_neg hne).trans (if_pos hpart)
  · refine ⟨ht.tag, ht.queryResponse, ht.state, ht.errorLog, ?_, by simpa using hlt, ht.dataSize,
      ?_, ht.received bytes⟩
    · simp only [ht.needRead, List.length_append]
      omega
    · show t.haveRead + bytes.length = t.queryRequest.queryHeadBufSize + (arrived ++ bytes).length
      rw [ht.haveRead, List.length_append]
      omega

/-- A read that returns all of the missing bytes. -/
lemma recvReqData_done (ht : Awaiting tag size arrived t) {bytes : List UInt8} (hne : bytes ≠ [])
    (heq : (arrived ++ bytes).length = size) :
    ∃ t', recvReqData (.ok bytes) t = .ok (true, t') ∧ Whole tag size (arrived ++ bytes) t' := by
  have hlen := heq
  rw [List.length_append] at hlen
  have hneed : ¬ t.needRead = 0 := by
    rw [ht.needRead]
    have := ht.missing
    omega
  have hdone : (bytes.length : Int) = (t.received bytes).needRead := by
    show (bytes.length : Int) = t.needRead
    rw [ht.needRead]
    omega
  have hlog : (t.received bytes).errorLog = none := ht.errorLog
  have hread : recvReqData (.ok bytes) t =
      (changeQueryTaskState .dispatchQueryTask (t.received bytes) >>= fun t => pure (true, t)) := by
    rw [recvReqData, if_neg hneed]
    exact (if_neg hne).trans ((if_neg (by rw [hdone]; exact lt_irrefl _)).trans (if_pos hdone))
  obtain ⟨data, hdata, hsize, hextent, hbytes⟩ := ht.received bytes
  rw [hread, changeState_dispatch hlog]
  refine ⟨_, rfl, ht.tag, ht.queryResponse, rfl, ht.errorLog, ?_, heq, data, hdata, hsize, hextent,
    hbytes⟩
  show toSizeT ((t.queryRequest.dataSize : Int) - 2) = _
  rw [ht.dataSize]

/-- A read that finds nothing yet. -/
lemma recvReqData_again (ht : Awaiting tag size arrived t) {errno : Errno} (herr : errno ≠ .other) :
    recvReqData (.error errno) t = .ok (true, t) := by
  have hneed : ¬ t.needRead = 0 := by
    rw [ht.needRead]
    have := ht.missing
    omega
  cases errno with
  | again => exact if_neg hneed
  | intr => exact if_neg hneed
  | other => exact absurd rfl herr

/-- A read that fails or finds the end of the stream. -/
lemma recvReqData_fails (ht : Awaiting tag size arrived t) {read : ReadResult}
    (hread : ¬ read.Delivers) :
    ∃ t', recvReqData read t = .ok (true, t') ∧ t'.state = .destroyRecv := by
  have hmissing := ht.missing
  have hneed : ¬ t.needRead = 0 := by
    rw [ht.needRead]
    omega
  cases read with
  | error errno =>
    have hother : errno = .other := not_not.1 hread
    rw [hother, recvReqData, if_neg hneed, QueryTask.log_of_none _ ht.errorLog]
    exact ⟨_, rfl, rfl⟩
  | ok bytes =>
    have hlog : (t.received bytes).errorLog = none := ht.errorLog
    rw [recvReqData, if_neg hneed]
    simp only [if_pos (not_not.1 hread), QueryTask.log_of_none _ hlog]
    exact ⟨_, rfl, rfl⟩

/-- A read that returns more than what is missing. -/
lemma recvReqData_over (ht : Awaiting tag size arrived t) {bytes : List UInt8} (hne : bytes ≠ [])
    (hlt : size < (arrived ++ bytes).length) :
    ∃ t', recvReqData (.ok bytes) t = .ok (true, t') ∧
      Overfull tag size (arrived ++ bytes) t' := by
  have hmissing := ht.missing
  rw [List.length_append] at hlt
  have hneed : ¬ t.needRead = 0 := by
    rw [ht.needRead]
    omega
  have hneed' : (t.received bytes).needRead = (size : Int) - arrived.length := ht.needRead
  have hpart : ¬ (bytes.length : Int) < (t.received bytes).needRead := by
    rw [hneed']
    omega
  have hdone : ¬ (bytes.length : Int) = (t.received bytes).needRead := by
    rw [hneed']
    omega
  have hlog : (t.received bytes).errorLog = none := ht.errorLog
  obtain ⟨data, hdata, -, hextent, hbytes⟩ := ht.received bytes
  rw [recvReqData, if_neg hneed]
  simp only [if_neg hne, if_neg hpart, if_neg hdone, QueryTask.log_of_none _ hlog]
  exact ⟨_, rfl, ht.tag, rfl, ht.dataSize, data, hdata, hextent, hbytes⟩

/-- A read that returns at most what is missing, or finds nothing yet. -/
lemma feed_delivers (slabAlloc : ℕ → Option (ℕ → UInt8)) (h : c.Awaits tag size arrived)
    {read : ReadResult} (hread : read.Delivers) (hle : (arrived ++ read.bytes).length ≤ size) :
    ((arrived ++ read.bytes).length < size ∧
      (c.feed slabAlloc read).Awaits tag size (arrived ++ read.bytes)) ∨
    ((arrived ++ read.bytes).length = size ∧
      ∃ t, c.feed slabAlloc read = .dispatched t ∧ Whole tag size (arrived ++ read.bytes) t) := by
  obtain ⟨t, ht, hfeed⟩ := feed_awaits slabAlloc h read
  rw [hfeed]
  cases read with
  | error errno =>
    rw [recvReqData_again ht hread]
    refine Or.inl ⟨by simpa [ReadResult.bytes] using ht.missing, t, Or.inr ?_, ?_⟩
    · simp [Conn.ofResult, Conn.settle, ht.state]
    · simpa [ReadResult.bytes] using ht
  | ok bytes =>
    rcases Nat.lt_or_eq_of_le hle with hlt | heq
    · obtain ⟨t', hrecv, ht'⟩ := recvReqData_part ht hread hlt
      rw [hrecv]
      exact Or.inl ⟨hlt, t', Or.inl (Conn.settle_watched _ _ _), ht'⟩
    · obtain ⟨t', hrecv, hwhole⟩ := recvReqData_done ht hread heq
      rw [hrecv]
      exact Or.inr ⟨heq, t', Conn.settle_dispatch _ 2 hwhole.state, hwhole⟩

/-- A read that fails or finds the end of the stream. -/
lemma feed_fails (slabAlloc : ℕ → Option (ℕ → UInt8)) (h : c.Awaits tag size arrived)
    {read : ReadResult} (hread : ¬ read.Delivers) :
    ∃ t, c.feed slabAlloc read = .destroyed t ∧ t.state = .destroyRecv := by
  obtain ⟨t, ht, hfeed⟩ := feed_awaits slabAlloc h read
  obtain ⟨t', hrecv, hstate⟩ := recvReqData_fails ht hread
  rw [hfeed, hrecv]
  exact ⟨t', Conn.settle_destroyRecv _ 2 hstate, hstate⟩

/-- A read that returns more than what is missing. -/
lemma feed_over (slabAlloc : ℕ → Option (ℕ → UInt8)) (h : c.Awaits tag size arrived)
    {read : ReadResult} (hread : read.Delivers) (hlt : size < (arrived ++ read.bytes).length) :
    ∃ t, c.feed slabAlloc read = .destroyed t ∧ Overfull tag size (arrived ++ read.bytes) t := by
  obtain ⟨t, ht, hfeed⟩ := feed_awaits slabAlloc h read
  cases read with
  | error errno =>
    have hmissing := ht.missing
    simp only [ReadResult.bytes, List.append_nil] at hlt
    omega
  | ok bytes =>
    obtain ⟨t', hrecv, hover⟩ := recvReqData_over ht hread hlt
    rw [hfeed, hrecv]
    exact ⟨t', Conn.settle_destroyRecv _ 2 hover.state, hover⟩

/-- Reads that return at most what is missing: the task waits until all has arrived and is then
dispatched. -/
lemma serve_delivers (slabAlloc : ℕ → Option (ℕ → UInt8)) (reads : List ReadResult)
    (h : c.Awaits tag size arrived)
    (hreads : ∀ read ∈ reads, read.Delivers)
    (hle : (arrived ++ arrivedBytes reads).length ≤ size) :
    ((arrived ++ arrivedBytes reads).length < size ∧
      (c.serve slabAlloc reads).Awaits tag size (arrived ++ arrivedBytes reads)) ∨
    ((arrived ++ arrivedBytes reads).length = size ∧ ∃ t,
      c.serve slabAlloc reads = .dispatched t ∧ Whole tag size (arrived ++ arrivedBytes reads) t) := by
  induction reads generalizing c arrived with
  | nil =>
    obtain ⟨t, hc, ht⟩ := h
    have hnil : arrived ++ arrivedBytes [] = arrived := by simp [arrivedBytes]
    rw [hnil]
    exact Or.inl ⟨ht.missing, t, hc, ht⟩
  | cons read reads ih =>
    have hcons : arrived ++ arrivedBytes (read :: reads) =
        (arrived ++ read.bytes) ++ arrivedBytes reads := by simp [arrivedBytes]
    rw [hcons] at hle ⊢
    have hle' : (arrived ++ read.bytes).length ≤ size := by
      rw [List.length_append] at hle
      omega
    rcases feed_delivers slabAlloc h (hreads read (by simp)) hle' with
      ⟨-, hawaits⟩ | ⟨heq, t, hfeed, hwhole⟩
    · exact ih hawaits (fun r hr => hreads r (by simp [hr])) hle
    · -- nothing can come after the whole body
      have hnil : arrivedBytes reads = [] := by
        rw [List.length_append, heq] at hle
        exact List.length_eq_zero_iff.1 (by omega)
      rw [hnil, List.append_nil, Conn.serve_cons, hfeed, Conn.serve_dispatched]
      exact Or.inr ⟨heq, t, rfl, hwhole⟩

/-- A task that is dispatched has been dispatched by reads that returned a whole body. -/
lemma whole_of_dispatched (reads : List ReadResult) (h : c.Awaits tag size arrived)
    (hdisp : c.serve slabAlloc reads = .dispatched t) :
    ∃ reads', reads' <+: reads ∧ c.serve slabAlloc reads' = .dispatched t ∧
      Whole tag size (arrived ++ arrivedBytes reads') t := by
  induction reads generalizing c arrived with
  | nil =>
    obtain ⟨t', rfl | rfl, -⟩ := h
    · cases hdisp
    · cases hdisp
  | cons read reads ih =>
    rw [Conn.serve_cons] at hdisp
    by_cases hread : read.Delivers
    · rcases Nat.lt_or_ge size (arrived ++ read.bytes).length with hlt | hle
      · obtain ⟨t', hfeed, -⟩ := feed_over slabAlloc h hread hlt
        rw [hfeed, Conn.serve_destroyed] at hdisp
        cases hdisp
      · rcases feed_delivers slabAlloc h hread hle with ⟨-, hawaits⟩ | ⟨-, t', hfeed, hwhole⟩
        · obtain ⟨reads', hpre, hserve, hwhole⟩ := ih hawaits hdisp
          refine ⟨read :: reads', List.cons_prefix_cons.2 ⟨rfl, hpre⟩, hserve, ?_⟩
          simpa [arrivedBytes] using hwhole
        · rw [hfeed, Conn.serve_dispatched] at hdisp
          obtain rfl : t' = t := by simpa using hdisp
          refine ⟨[read], List.cons_prefix_cons.2 ⟨rfl, List.nil_prefix⟩, hfeed, ?_⟩
          simpa [arrivedBytes] using hwhole
    · obtain ⟨t', hfeed, -⟩ := feed_fails slabAlloc h hread
      rw [hfeed, Conn.serve_destroyed] at hdisp
      cases hdisp

end Rest

/-! ## Set heads -/

/-- The head of a set request, without its line end, and what `atol` gives for its bytes token. -/
structure SetHead (s : List UInt8) (v : Int) : Prop extends IsHead s where
  /-- `parse_memcached_string_head` succeeds. -/
  accepted : (parseMemcachedStringHead (headRequest s [])).1 = 0
  /-- The command is `set`. -/
  isSet : (parseMemcachedStringHead (headRequest s [])).2.cmdType = .set
  /-- The bytes token is the fifth one. -/
  declared : ∃ n, (tokens space s)[4]? = some n ∧ atol n = v

/-- The size of the buffer for a declared number of bytes. -/
def declaredSize (v : Int) : ℕ :=
  toSizeT (toSizeT v + 2)

/-- Some bytes of a body are missing, and their number is a `ssize_t`. -/
def Missing (size : ℕ) (arrived : List UInt8) : Prop :=
  arrived.length < size ∧ size < arrived.length + 2 ^ 63

instance instDecidableMissing (size : ℕ) (arrived : List UInt8) :
    Decidable (Missing size arrived) :=
  inferInstanceAs (Decidable (_ ∧ _))

/-- What `need_read` says of the body when the head has been parsed. -/
lemma needRead_cases {size : ℕ} {arrived : List UInt8} (hsize : size < 2 ^ 64)
    (hlen : arrived.length ≤ maxQueryHeaderSize) :
    (toSsizeT ((size : Int) - arrived.length) = 0 ∧ arrived.length = size) ∨
    (0 < toSsizeT ((size : Int) - arrived.length) ∧ Missing size arrived ∧
      toSsizeT ((size : Int) - arrived.length) = (size : Int) - arrived.length) ∨
    (toSsizeT ((size : Int) - arrived.length) < 0 ∧ arrived.length ≠ size ∧
      ¬ Missing size arrived) := by
  have hlen' : arrived.length ≤ 512 := hlen
  by_cases hbig : size < arrived.length + 2 ^ 63
  · rw [toSsizeT_eq (by omega) (by omega)]
    rcases lt_trichotomy arrived.length size with hlt | heq | hgt
    · exact Or.inr (Or.inl ⟨by omega, ⟨hlt, hbig⟩, rfl⟩)
    · exact Or.inl ⟨by omega, heq⟩
    · exact Or.inr (Or.inr ⟨by omega, hgt.ne', fun hmissing => hgt.not_gt hmissing.1⟩)
  · -- the difference is at least `2 ^ 63` and wraps around
    refine Or.inr (Or.inr ⟨?_, by omega, fun hmissing => hbig hmissing.2⟩)
    simp only [toSsizeT, Int.bmod]
    omega

section Buffered

variable {slabAlloc : ℕ → Option (ℕ → UInt8)} {d : List UInt8} {t : QueryTask}

/-- What comes of a set request for which there is memory, given what came behind its head: the body
is complete, or a part of it is missing, or more came than the body has bytes. -/
lemma settle_bufferBody (hlog : t.errorLog = none) (hresp : t.queryResponse = .zero)
    (hhave : t.haveRead = t.queryRequest.queryHeadBufSize + d.length)
    (hd : d.length ≤ maxQueryHeaderSize) {mem : ℕ → UInt8}
    (hmem : slabAlloc t.queryRequest.bodySize = some mem) :
    (d.length = t.queryRequest.bodySize ∧ ∃ t',
      Conn.settle slabAlloc 2 (Conn.ofResult (bufferBody slabAlloc d t)) = .dispatched t' ∧
      Whole t.queryRequest.tag t.queryRequest.bodySize d t') ∨
    (Missing t.queryRequest.bodySize d ∧
      (Conn.settle slabAlloc 2 (Conn.ofResult (bufferBody slabAlloc d t))).Awaits
        t.queryRequest.tag t.queryRequest.bodySize d) ∨
    (d.length ≠ t.queryRequest.bodySize ∧ ¬ Missing t.queryRequest.bodySize d ∧ ∃ t',
      Conn.settle slabAlloc 2 (Conn.ofResult (bufferBody slabAlloc d t)) = .destroyed t' ∧
      Overfull t.queryRequest.tag t.queryRequest.bodySize d t') := by
  have hextent : (Buffer.copy ⟨t.queryRequest.bodySize, mem, 0⟩ 0 d).extent = d.length := by
    simp
  have hbytes : (Buffer.copy ⟨t.queryRequest.bodySize, mem, 0⟩ 0 d).bytes d.length = d := by
    have hcopy := Buffer.bytes_copy ⟨t.queryRequest.bodySize, mem, 0⟩ 0 d
    simpa [Buffer.bytes] using hcopy
  rcases needRead_cases (toSizeT_lt _) hd with ⟨hzero, hlen⟩ | ⟨hpos, hmissing, hexact⟩ |
    ⟨hneg, hne, hnot⟩
  · left
    rw [bufferBody_complete hmem hlog hzero]
    exact ⟨hlen, _, Conn.settle_dispatch _ 1 rfl, rfl, hresp, rfl, hlog, rfl, hlen, _, rfl, rfl,
      hextent, hbytes⟩
  · right; left
    rw [bufferBody_unfinished hmem hlog hpos]
    exact ⟨hmissing, _, Or.inl (Conn.settle_watched _ _ _), rfl, hresp, rfl, hlog, hexact, hmissing.1,
      rfl, hhave, _, rfl, rfl, hextent, hbytes⟩
  · right; right
    rw [bufferBody_excess hmem hneg]
    exact ⟨hne, hnot, _, Conn.settle_destroyRecv _ 1 rfl, rfl, rfl, rfl, _, rfl, hextent, hbytes⟩

end Buffered

section SetHead

variable {s d : List UInt8} {v : Int} {slabAlloc : ℕ → Option (ℕ → UInt8)}

/-- What the parser makes of a set head, whatever comes behind it. -/
lemma SetHead.parse (h : SetHead s v)
    (hlen : (s ++ (mcTermStr ++ d)).length ≤ maxQueryHeaderSize) :
    ∃ qr, parseMemcachedStringHead (headRequest s d) = (0, qr) ∧ qr.parseStatus = .succ ∧
      qr.cmdType = .set ∧ qr.dataSize = toSizeT v ∧
      qr.queryHeadBufSize = s.length + mcTermStr.length := by
  have hshort : (s ++ (mcTermStr ++ [])).length ≤ maxQueryHeaderSize := by
    simpa using h.short.le
  obtain ⟨c, k, f, e, n, ts, htok, hc, hk, -⟩ :=
    setHead_of_parse (head_headRequest h.toIsHead hshort) h.accepted h.isSet
  obtain ⟨n', hn', hv⟩ := h.declared
  obtain rfl : n = n' := by simpa [htok] using hn'
  refine ⟨_, parse_of_setHead (head_headRequest h.toIsHead hlen) htok hc hk, rfl, rfl, ?_, rfl⟩
  exact congrArg toSizeT hv

/-- The first read of a set request. -/
lemma SetHead.feed (slabAlloc : ℕ → Option (ℕ → UInt8)) (h : SetHead s v)
    (hlen : (s ++ (mcTermStr ++ d)).length ≤ maxQueryHeaderSize) :
    ∃ t, Conn.feed slabAlloc (.watched acceptedTask) (.ok (s ++ (mcTermStr ++ d))) =
        Conn.settle slabAlloc 2 (Conn.ofResult (bufferBody slabAlloc d t)) ∧
      t.errorLog = none ∧ t.queryResponse = .zero ∧
      t.queryRequest = (parseMemcachedStringHead (headRequest s d)).2 ∧
      t.queryRequest.bodySize = declaredSize v ∧
      t.haveRead = t.queryRequest.queryHeadBufSize + d.length := by
  obtain ⟨qr, hparse, hsucc, hset, hsize, hhead⟩ := h.parse hlen
  rw [hparse]
  refine ⟨{ receivedTask (s ++ (mcTermStr ++ d)) with queryRequest := qr }, ?_, rfl, rfl, rfl, ?_,
    ?_⟩
  · rw [feed_received h.toIsHead hlen, hparse, actOnRequest_set rfl hsucc hset]
  · show toSizeT ((qr.dataSize : Int) + 2) = declaredSize v
    rw [hsize, declaredSize]
  · show (s ++ (mcTermStr ++ d)).length = qr.queryHeadBufSize + d.length
    rw [hhead]
    simp only [List.length_append]
    omega

/-- What the first read of a set request leads to: the body is complete, or a part of it is missing,
or more came than the body has bytes. -/
lemma SetHead.feed_cases (h : SetHead s v)
    (hlen : (s ++ (mcTermStr ++ d)).length ≤ maxQueryHeaderSize) {mem : ℕ → UInt8}
    (hmem : slabAlloc (declaredSize v) = some mem) {tag : RequestTag}
    (htag : (parseMemcachedStringHead (headRequest s d)).2.tag = tag) :
    (d.length = declaredSize v ∧ ∃ t,
      Conn.feed slabAlloc (.watched acceptedTask) (.ok (s ++ (mcTermStr ++ d))) = .dispatched t ∧
      Whole tag (declaredSize v) d t) ∨
    (Missing (declaredSize v) d ∧ (Conn.feed slabAlloc (.watched acceptedTask)
      (.ok (s ++ (mcTermStr ++ d)))).Awaits tag (declaredSize v) d) ∨
    (d.length ≠ declaredSize v ∧ ¬ Missing (declaredSize v) d ∧ ∃ t,
      Conn.feed slabAlloc (.watched acceptedTask) (.ok (s ++ (mcTermStr ++ d))) = .destroyed t ∧
      Overfull tag (declaredSize v) d t) := by
  obtain ⟨t, hfeed, hlog, hresp, hqr, hsize, hhave⟩ := h.feed slabAlloc hlen
  have hd : d.length ≤ maxQueryHeaderSize := by
    simp only [List.length_append] at hlen
    omega
  have hcases := settle_bufferBody hlog hresp hhave hd (hsize ▸ hmem)
  rw [hfeed, ← htag, ← hqr, ← hsize]
  exact hcases

end SetHead

/-- The size of the buffer for a number of bytes that is not negative. -/
lemma declaredSize_natCast {N : ℕ} (hN : N + 2 < 2 ^ 64) : declaredSize N = N + 2 := by
  have hsize : toSizeT (N : Int) = N := toSizeT_natCast (by omega)
  rw [declaredSize, hsize]
  exact_mod_cast toSizeT_natCast hN

/-- Body reassembly.  A set head that declares `N` bytes arrives in the first read, with the first
bytes of the body behind it, and the rest of the body arrives in any pieces, with any number of
reads in between that find nothing.  The task is dispatched exactly when the body with its line end
has arrived, its size is then `N` and its buffer holds the body, and has not been overrun.  If the
stream ends or fails before that, the task goes to `s_destroy_recv` and is destroyed, whatever is
read afterwards. -/
theorem body_reassembled {s d : List UInt8} {N : ℕ} {slabAlloc : ℕ → Option (ℕ → UInt8)}
    {mem : ℕ → UInt8} {reads : List ReadResult} (h : SetHead s N) (hN : N + 2 < 2 ^ 63)
    (hmem : slabAlloc (N + 2) = some mem)
    (hfirst : (s ++ (mcTermStr ++ d)).length ≤ maxQueryHeaderSize)
    (hreads : ∀ read ∈ reads, read.Delivers)
    (hle : (d ++ arrivedBytes reads).length ≤ N + 2) :
    let c := Conn.serve slabAlloc (.watched acceptedTask) (.ok (s ++ (mcTermStr ++ d)) :: reads)
    ((∃ t, c = .dispatched t) ↔ (d ++ arrivedBytes reads).length = N + 2) ∧
    (∀ t, c = .dispatched t → t.queryRequest.dataSize = N ∧
      ∃ data, t.queryRequest.data = some data ∧ data.bytes (N + 2) = d ++ arrivedBytes reads ∧
        data.extent ≤ data.size) ∧
    ((d ++ arrivedBytes reads).length < N + 2 → ∀ read : ReadResult, ¬ read.Delivers →
      ∃ t, t.state = .destroyRecv ∧
        ∀ reads', c.serve slabAlloc (read :: reads') = .destroyed t) := by
  intro c
  have hsize : declaredSize N = N + 2 := declaredSize_natCast (by omega)
  have hd : d.length ≤ N + 2 := by
    rw [List.length_append] at hle
    omega
  set tag := (parseMemcachedStringHead (headRequest s d)).2.tag with htag
  have hcases : ((d ++ arrivedBytes reads).length < N + 2 ∧
        c.Awaits tag (N + 2) (d ++ arrivedBytes reads)) ∨
      ((d ++ arrivedBytes reads).length = N + 2 ∧
        ∃ t, c = .dispatched t ∧ Whole tag (N + 2) (d ++ arrivedBytes reads) t) := by
    have hfeed := h.feed_cases hfirst (hsize ▸ hmem) htag.symm
    rw [hsize] at hfeed
    rcases hfeed with ⟨hall, t, hfeed, hwhole⟩ | ⟨-, hawaits⟩ | ⟨hne, hnot, -⟩
    · -- the reads behind it find nothing
      have hnil : arrivedBytes reads = [] := by
        rw [List.length_append, hall] at hle
        exact List.length_eq_zero_iff.1 (by omega)
      have hc : c = .dispatched t := by
        rw [show c = Conn.serve slabAlloc (Conn.feed slabAlloc (.watched acceptedTask)
          (.ok (s ++ (mcTermStr ++ d)))) reads from rfl, hfeed, Conn.serve_dispatched]
      rw [hnil, List.append_nil]
      exact Or.inr ⟨hall, t, hc, hwhole⟩
    · exact serve_delivers slabAlloc reads hawaits hreads hle
    · exact absurd ⟨lt_of_le_of_ne hd hne, by omega⟩ hnot
  rcases hcases with ⟨hlt, hawaits⟩ | ⟨heq, t, hc, hwhole⟩
  · have hnot : ∀ t, c ≠ .dispatched t := by
      obtain ⟨t, hc | hc, -⟩ := hawaits
      · simp [hc]
      · simp [hc]
    refine ⟨⟨fun ⟨t, hc⟩ => absurd hc (hnot t), fun heq => absurd heq hlt.ne⟩,
      fun t hc => absurd hc (hnot t), fun _ read hread => ?_⟩
    obtain ⟨t, hfeed, hstate⟩ := feed_fails slabAlloc hawaits hread
    exact ⟨t, hstate, fun reads' => by rw [Conn.serve_cons, hfeed, Conn.serve_destroyed]⟩
  · refine ⟨⟨fun _ => heq, fun _ => ⟨t, hc⟩⟩, fun t' hc' => ?_, fun hlt => absurd heq hlt.ne⟩
    obtain rfl : t = t' := by simpa [hc] using hc'
    obtain ⟨data, hdata, hdsize, hextent, hbytes⟩ := hwhole.data
    rw [heq] at hextent hbytes
    refine ⟨?_, data, hdata, hbytes, by omega⟩
    rw [hwhole.dataSize, show ((N + 2 : ℕ) : Int) - 2 = (N : Int) by push_cast; ring]
    exact toSizeT_natCast (by omega)

/-- The set request with five bytes is one. -/
lemma setHead_setFive : SetHead setFive 5 :=
  { isHead_setFive with
    accepted := by decide +kernel
    isSet := by decide +kernel
    declared := ⟨ascii ['5'], by rw [tokens_setFive]; rfl, by decide⟩ }

theorem body_reassembled_three_reads :
    ∃ t, Conn.serve plentyMemory (.watched acceptedTask)
        [.ok (setFive ++ (mcTermStr ++ [1, 2])), .error .again, .ok [3, 4, 5, 13], .ok [10]] =
        .dispatched t ∧
      t.queryRequest.dataSize = 5 := by
  have hmem : plentyMemory (5 + 2) = some fun _ => 0 := rfl
  have hfirst : (setFive ++ (mcTermStr ++ [1, 2])).length ≤ maxQueryHeaderSize := by decide
  have hreads : ∀ read ∈ ([.error .again, .ok [3, 4, 5, 13], .ok [10]] : List ReadResult),
      read.Delivers := by simp [ReadResult.Delivers]
  have hbody := body_reassembled setHead_setFive (by decide) hmem hfirst hreads (by decide)
  obtain ⟨t, ht⟩ := hbody.1.2 (by decide)
  exact ⟨t, ht, (hbody.2.1 t ht).1⟩

end Linglongta
