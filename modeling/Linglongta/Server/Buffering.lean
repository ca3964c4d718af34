import Linglongta.Server.Receiving

/-!
# Body bytes that come with the head

`parse_query_request_head` allocates the buffer for the body of a set request and copies to it what
came behind the head.  `body_buffer_safe_iff` says when this goes well: always, unless `slab_alloc`
returns `NULL`, for the body or for the error log of a head that is refused.  It also says when the
copy overruns the buffer, which is before the lengths are compared.
-/

namespace Linglongta

open CString

/-! ## Buffering what came behind the head -/

/-- The size that is asked for when a set request has been parsed. -/
def QueryRequest.bodySize (qr : QueryRequest) : ℕ :=
  toSizeT (qr.dataSize + 2)

/-- The task after what came behind the head has been copied. -/
def bufferedTask (mem : ℕ → UInt8) (tmpBuf : List UInt8) (t : QueryTask) : QueryTask :=
  { t with
    queryRequest := { t.queryRequest with
      dataSize := t.queryRequest.bodySize
      data := some (Buffer.copy ⟨t.queryRequest.bodySize, mem, 0⟩ 0 tmpBuf) }
    needRead := toSsizeT ((t.queryRequest.bodySize : Int) - tmpBuf.length) }

section Buffering

variable {slabAlloc : ℕ → Option (ℕ → UInt8)} {mem : ℕ → UInt8} {tmpBuf : List UInt8}
variable {t : QueryTask}

lemma bufferBody_of_none (tmpBuf : List UInt8) (h : slabAlloc t.queryRequest.bodySize = none) :
    bufferBody slabAlloc tmpBuf t = .error .data := by
  unfold QueryRequest.bodySize at h
  simp only [bufferBody, h]

/-- The whole body came with the head. -/
lemma bufferBody_complete (h : slabAlloc t.queryRequest.bodySize = some mem)
    (hlog : t.errorLog = none) (hneed : (bufferedTask mem tmpBuf t).needRead = 0) :
    bufferBody slabAlloc tmpBuf t = .ok (true, { bufferedTask mem tmpBuf t with
      state := .dispatchQueryTask
      queryRequest := { (bufferedTask mem tmpBuf t).queryRequest with
        dataSize := toSizeT ((t.queryRequest.bodySize : Int) - 2) } }) := by
  have hlog' : (bufferedTask mem tmpBuf t).errorLog = none := hlog
  have hbuffer : bufferBody slabAlloc tmpBuf t =
      (changeQueryTaskState .dispatchQueryTask (bufferedTask mem tmpBuf t) >>=
        fun t => pure (true, t)) := by
    unfold QueryRequest.bodySize at h
    simp only [bufferBody, h]
    exact if_pos hneed
  rw [hbuffer, changeState_dispatch hlog']
  rfl

/-- A part of the body is still to come. -/
lemma bufferBody_unfinished (h : slabAlloc t.queryRequest.bodySize = some mem)
    (hlog : t.errorLog = none) (hneed : 0 < (bufferedTask mem tmpBuf t).needRead) :
    bufferBody slabAlloc tmpBuf t =
      .ok (false, { bufferedTask mem tmpBuf t with state := .recvReqData }) := by
  have hlog' : (bufferedTask mem tmpBuf t).errorLog = none := hlog
  have hbuffer : bufferBody slabAlloc tmpBuf t =
      (changeQueryTaskState .recvReqData (bufferedTask mem tmpBuf t) >>=
        fun t => pure (false, t)) := by
    unfold QueryRequest.bodySize at h
    simp only [bufferBody, h]
    exact (if_neg hneed.ne').trans (if_pos hneed)
  rw [hbuffer, changeState_recvReqData hlog']
  rfl

/-- More came than the body has bytes. -/
lemma bufferBody_excess (h : slabAlloc t.queryRequest.bodySize = some mem)
    (hneed : (bufferedTask mem tmpBuf t).needRead < 0) :
    bufferBody slabAlloc tmpBuf t =
      .ok (true, { bufferedTask mem tmpBuf t with state := .destroyRecv }) := by
  unfold QueryRequest.bodySize at h
  simp only [bufferBody, h]
  exact (if_neg hneed.ne).trans (if_neg hneed.not_gt)

/-- If there is memory, the buffer is filled and no assertion fails. -/
lemma bufferBody_of_some (tmpBuf : List UInt8)
    (h : slabAlloc t.queryRequest.bodySize = some mem) (hlog : t.errorLog = none) :
    ∃ b t', bufferBody slabAlloc tmpBuf t = .ok (b, t') ∧
      t'.queryRequest.data = some (Buffer.copy ⟨t.queryRequest.bodySize, mem, 0⟩ 0 tmpBuf) ∧
      ((bufferedTask mem tmpBuf t).needRead < 0 → t'.state = .destroyRecv) := by
  rcases lt_trichotomy (bufferedTask mem tmpBuf t).needRead 0 with hneed | hneed | hneed
  · exact ⟨_, _, bufferBody_excess h hneed, rfl, fun _ => rfl⟩
  · exact ⟨_, _, bufferBody_complete h hlog hneed, rfl, fun hlt => absurd hneed hlt.ne⟩
  · exact ⟨_, _, bufferBody_unfinished h hlog hneed, rfl, fun hlt => absurd hneed hlt.not_gt⟩

end Buffering

/-- A number that fits a `ssize_t` is kept. -/
lemma toSsizeT_eq {n : Int} (hlo : -2 ^ 63 ≤ n) (hhi : n < 2 ^ 63) : toSsizeT n = n := by
  unfold toSsizeT
  rw [Int.bmod_eq_of_le] <;> omega

/-- A difference that is not negative is that of a number and a smaller one. -/
lemma le_of_toSsizeT_nonneg {size len : ℕ} (hlen : len ≤ maxQueryHeaderSize)
    (h : 0 ≤ toSsizeT ((size : Int) - len)) : len ≤ size := by
  by_contra hlt
  have hlen' : len ≤ 512 := hlen
  rw [toSsizeT_eq (by omega) (by omega)] at h
  omega

/-- What `parse_memcached_string_head` makes of a head of `p` bytes in a buffer. -/
def parsedHead (buf : Blob maxQueryHeaderSize) (p : ℕ) : Int × QueryRequest :=
  parseMemcachedStringHead ({ QueryRequest.zero with queryHeadBuf := buf }.terminate p)

/-- The task when the head of `p` bytes in its buffer has been parsed. -/
def parsedTask (buf : Blob maxQueryHeaderSize) (haveRead p : ℕ) : QueryTask :=
  { headTask buf haveRead with queryRequest := (parsedHead buf p).2 }

/-- The head of `p` bytes in a buffer is accepted as that of a set request. -/
def AcceptsSet (buf : Blob maxQueryHeaderSize) (p : ℕ) : Prop :=
  (parsedHead buf p).1 = 0 ∧ (parsedHead buf p).2.parseStatus = .succ ∧
    (parsedHead buf p).2.cmdType = .set

/-- No assertion fails and nothing is written through `NULL`, and an accepted set request is refused
or what came behind its head has been copied to a buffer that is large enough. -/
def BuffersSafely (slabAlloc : ℕ → Option (ℕ → UInt8)) (logMem : Bool)
    (buf : Blob maxQueryHeaderSize) (haveRead p : ℕ) : Prop :=
  ∃ b t, parseQueryRequestHead slabAlloc (headTask buf haveRead) logMem = .ok (b, t) ∧
    (AcceptsSet buf p → t.state = .returnFailed ∨ t.state = .destroyRecv ∨
      ∃ data, t.queryRequest.data = some data ∧ data.extent ≤ data.size)

section Safe

variable (slabAlloc : ℕ → Option (ℕ → UInt8)) (buf : Blob maxQueryHeaderSize) {haveRead i : ℕ}
variable (logMem : Bool)

/-- The bytes that come behind the head. -/
def behindHead (buf : Blob maxQueryHeaderSize) (haveRead p : ℕ) : List UInt8 :=
  (buf.bytes.drop p).take (haveRead - p)

lemma length_behindHead (hmax : haveRead ≤ maxQueryHeaderSize) (p : ℕ) :
    (behindHead buf haveRead p).length = haveRead - p := by
  rw [behindHead, List.length_take, List.length_drop, buf.size_eq]
  omega

/-- The head is parsed and acted on. -/
lemma parse_headTask
    (hfind : tryParseMemcachedStringHead (headTask buf haveRead).queryRequest = some i)
    (hread : i + mcTermStr.length ≤ haveRead) :
    parseQueryRequestHead slabAlloc (headTask buf haveRead) logMem =
      actOnRequest slabAlloc (behindHead buf haveRead (i + mcTermStr.length))
        (parsedHead buf (i + mcTermStr.length)) (headTask buf haveRead) logMem := by
  have hread' : i + mcTermStr.length ≤ (headTask buf haveRead).haveRead := hread
  simp only [parseQueryRequestHead, hfind, check_bind, if_pos hread']
  rfl

/-- An accepted set request for which there is no memory. -/
lemma parse_headTask_null
    (hfind : tryParseMemcachedStringHead (headTask buf haveRead).queryRequest = some i)
    (hread : i + mcTermStr.length ≤ haveRead) (hset : AcceptsSet buf (i + mcTermStr.length))
    (hnull : slabAlloc (parsedHead buf (i + mcTermStr.length)).2.bodySize = none) :
    parseQueryRequestHead slabAlloc (headTask buf haveRead) logMem = .error .data := by
  have hbody := bufferBody_of_none (behindHead buf haveRead (i + mcTermStr.length))
    (t := parsedTask buf haveRead (i + mcTermStr.length)) hnull
  obtain ⟨hret, hsucc, hcmd⟩ := hset
  rw [parse_headTask slabAlloc buf logMem hfind hread, actOnRequest_set hret hsucc hcmd]
  exact hbody

/-- An accepted set request for which there is memory: the buffer holds what came behind the head,
and the request is refused if this is more than was asked for. -/
lemma parse_headTask_set
    (hfind : tryParseMemcachedStringHead (headTask buf haveRead).queryRequest = some i)
    (hread : i + mcTermStr.length ≤ haveRead) (hmax : haveRead ≤ maxQueryHeaderSize)
    (hset : AcceptsSet buf (i + mcTermStr.length)) {mem : ℕ → UInt8}
    (hmem : slabAlloc (parsedHead buf (i + mcTermStr.length)).2.bodySize = some mem) :
    ∃ b t data, parseQueryRequestHead slabAlloc (headTask buf haveRead) logMem = .ok (b, t) ∧
      t.queryRequest.data = some data ∧
      data.size = (parsedHead buf (i + mcTermStr.length)).2.bodySize ∧
      data.extent = haveRead - (i + mcTermStr.length) ∧
      (data.size < data.extent → t.state = .destroyRecv) := by
  obtain ⟨hret, hsucc, hcmd⟩ := hset
  rw [parse_headTask slabAlloc buf logMem hfind hread, actOnRequest_set hret hsucc hcmd]
  obtain ⟨b, t, hbody, hdata, hneg⟩ := bufferBody_of_some
    (behindHead buf haveRead (i + mcTermStr.length))
    (t := parsedTask buf haveRead (i + mcTermStr.length)) hmem rfl
  refine ⟨b, t, _, hbody, hdata, rfl, ?_, ?_⟩
  · simp [length_behindHead buf hmax]
  · intro hover
    refine hneg ?_
    by_contra hnonneg
    have hle : (behindHead buf haveRead (i + mcTermStr.length)).length ≤
        (parsedTask buf haveRead (i + mcTermStr.length)).queryRequest.bodySize :=
      le_of_toSsizeT_nonneg (length_behindHead buf hmax _ ▸ by omega) (not_lt.1 hnonneg)
    simp only [Buffer.size_copy, Buffer.extent_copy] at hover
    omega

/-- A head that is not that of a set request: the function ends normally unless the head is refused
and there is no memory for the error log. -/
lemma parse_headTask_other
    (hfind : tryParseMemcachedStringHead (headTask buf haveRead).queryRequest = some i)
    (hread : i + mcTermStr.length ≤ haveRead) (hset : ¬ AcceptsSet buf (i + mcTermStr.length)) :
    (∃ b t, parseQueryRequestHead slabAlloc (headTask buf haveRead) logMem = .ok (b, t)) ↔
      ((parsedHead buf (i + mcTermStr.length)).1 ≠ 0 → logMem = true) := by
  have hlog : (headTask buf haveRead).errorLog = none := rfl
  rw [parse_headTask slabAlloc buf logMem hfind hread]
  rcases parse_outcome ({ QueryRequest.zero with queryHeadBuf := buf }.terminate
    (i + mcTermStr.length)) with ⟨hret, hsucc, hknown⟩ | ⟨hret, -⟩
  · have hcmd : (parsedHead buf (i + mcTermStr.length)).2.cmdType ≠ .set := fun hcmd =>
      hset ⟨hret, hsucc, hcmd⟩
    obtain ⟨t, hact, -⟩ := actOnRequest_accepted slabAlloc
      (behindHead buf haveRead (i + mcTermStr.length)) hlog hret hsucc hcmd hknown logMem
    exact iff_of_true ⟨true, t, hact⟩ fun hne => absurd hret hne
  · cases logMem with
    | true =>
      obtain ⟨t, hact, -⟩ := actOnRequest_other slabAlloc
        (behindHead buf haveRead (i + mcTermStr.length)) hlog hset
      exact iff_of_true ⟨true, t, hact⟩ fun _ => rfl
    | false =>
      have hnull := actOnRequest_null slabAlloc (behindHead buf haveRead (i + mcTermStr.length))
        (r := parsedHead buf (i + mcTermStr.length)) hlog (Or.inl fun hok => hret hok.1)
      refine iff_of_false ?_ fun hmem => absurd (hmem hret) Bool.false_ne_true
      rintro ⟨b, t, hact⟩
      rw [hnull] at hact
      cases hact

end Safe

/-- Buffering of body bytes received with the head.  For every content of the head buffer with a
CRLF in it and every amount that has been read and covers it, whatever `slab_alloc` returns for the
body and for an error log: no assertion of `parse_query_request_head` fails, nothing is written
through `NULL`, and an accepted set request is refused or has what came behind its head copied to a
buffer that is large enough, if and only if there is memory for the body of an accepted set request
and for the error log of a head that is refused.  If an accepted set request has memory, then the
copy stays inside the buffer exactly if no more came behind the head than has been asked for; else
the request is refused, but after the copy. -/
theorem body_buffer_safe_iff (slabAlloc : ℕ → Option (ℕ → UInt8)) (logMem : Bool)
    (buf : Blob maxQueryHeaderSize) {haveRead i : ℕ}
    (hfind : tryParseMemcachedStringHead (headTask buf haveRead).queryRequest = some i)
    (hread : i + mcTermStr.length ≤ haveRead) (hmax : haveRead ≤ maxQueryHeaderSize) :
    (BuffersSafely slabAlloc logMem buf haveRead (i + mcTermStr.length) ↔
      (AcceptsSet buf (i + mcTermStr.length) →
        slabAlloc (parsedHead buf (i + mcTermStr.length)).2.bodySize ≠ none) ∧
      ((parsedHead buf (i + mcTermStr.length)).1 ≠ 0 → logMem = true)) ∧
    ∀ b t, parseQueryRequestHead slabAlloc (headTask buf haveRead) logMem = .ok (b, t) →
      AcceptsSet buf (i + mcTermStr.length) → ∃ data, t.queryRequest.data = some data ∧
        (data.extent ≤ data.size ↔ haveRead - (i + mcTermStr.length) ≤
          (parsedHead buf (i + mcTermStr.length)).2.bodySize) ∧
        (data.size < data.extent → t.state = .destroyRecv) := by
  constructor
  · by_cases hset : AcceptsSet buf (i + mcTermStr.length)
    · constructor
      · rintro ⟨b, t, hparse, -⟩
        refine ⟨fun _ hnull => ?_, fun hne => absurd hset.1 hne⟩
        rw [parse_headTask_null slabAlloc buf logMem hfind hread hset hnull] at hparse
        cases hparse
      · rintro ⟨hbody, -⟩
        obtain ⟨mem, hmem⟩ := Option.ne_none_iff_exists'.1 (hbody hset)
        obtain ⟨b, t, data, hparse, hdata, -, -, hover⟩ :=
          parse_headTask_set slabAlloc buf logMem hfind hread hmax hset hmem
        refine ⟨b, t, hparse, fun _ => ?_⟩
        rcases Nat.lt_or_ge data.size data.extent with hlt | hle
        · exact Or.inr (Or.inl (hover hlt))
        · exact Or.inr (Or.inr ⟨data, hdata, hle⟩)
    · have hother := parse_headTask_other slabAlloc buf logMem hfind hread hset
      constructor
      · rintro ⟨b, t, hparse, -⟩
        exact ⟨fun h => absurd h hset, hother.1 ⟨b, t, hparse⟩⟩
      · rintro ⟨-, hmem⟩
        obtain ⟨b, t, hparse⟩ := hother.2 hmem
        exact ⟨b, t, hparse, fun h => absurd h hset⟩
  · intro b t hparse hset
    cases hmem : slabAlloc (parsedHead buf (i + mcTermStr.length)).2.bodySize with
    | none =>
      rw [parse_headTask_null slabAlloc buf logMem hfind hread hset hmem] at hparse
      cases hparse
    | some mem =>
      obtain ⟨b', t', data, hparse', hdata, hsize, hextent, hover⟩ :=
        parse_headTask_set slabAlloc buf logMem hfind hread hmax hset hmem
      rw [hparse] at hparse'
      obtain ⟨-, rfl⟩ := Prod.mk.inj (Except.ok.inj hparse')
      exact ⟨data, hdata, by rw [hsize, hextent], hover⟩

/-- A set request with five bytes. -/
def setFive : List UInt8 := ascii ['s', 'e', 't', ' ', 'a', ' ', '0', ' ', '0', ' ', '5']

lemma isHead_setFive : IsHead setFive :=
  ⟨by decide, by decide, by decide⟩

lemma tokens_setFive : tokens space setFive =
    [ascii ['s', 'e', 't'], ascii ['a'], ascii ['0'], ascii ['0'], ascii ['5']] := by
  decide

/-- There is memory of any size, and it is zeroed. -/
def plentyMemory : ℕ → Option (ℕ → UInt8) :=
  fun _ => some fun _ => 0

theorem body_buffer_safe_five :
    BuffersSafely plentyMemory true (Blob.copy maxQueryHeaderSize (setFive ++ mcTermStr)) 13 13 :=
  (body_buffer_safe_iff _ _ _ (i := 11) (by decide +kernel) (by decide) (by decide)).1.2
    ⟨fun _ => by simp [plentyMemory], fun _ => rfl⟩

/-- Without memory for the body, the assertion on `request->data` stops the server; without memory
for the error log of a head that is refused, the write through `NULL` does. -/
theorem body_buffer_null :
    ¬ BuffersSafely (fun _ => none) true (Blob.copy maxQueryHeaderSize (setFive ++ mcTermStr))
      13 13 ∧
    ¬ BuffersSafely plentyMemory false (Blob.copy maxQueryHeaderSize (ascii ['x'] ++ mcTermStr))
      3 3 := by
  constructor
  · rintro ⟨b, t, hparse, -⟩
    have hset : AcceptsSet (Blob.copy maxQueryHeaderSize (setFive ++ mcTermStr)) 13 := by
      unfold AcceptsSet
      decide +kernel
    rw [parse_headTask_null (fun _ => none) _ true (i := 11) (by decide +kernel) (by decide) hset
      rfl] at hparse
    cases hparse
  · rintro ⟨b, t, hparse, -⟩
    have hfind : tryParseMemcachedStringHead (headTask (Blob.copy maxQueryHeaderSize
        (ascii ['x'] ++ mcTermStr)) 3).queryRequest = some 1 := by decide +kernel
    have hset : ¬ AcceptsSet (Blob.copy maxQueryHeaderSize (ascii ['x'] ++ mcTermStr)) 3 := by
      unfold AcceptsSet
      decide +kernel
    have hmem := (parse_headTask_other plentyMemory _ false hfind (by decide) hset).1 ⟨b, t, hparse⟩
    exact absurd (hmem (by decide +kernel)) Bool.false_ne_true

end Linglongta
