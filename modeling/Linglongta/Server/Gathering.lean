import Linglongta.Server.Body

/-!
# The head that stands in the buffer

`query_head_buf_size` stays zero until a line end has been found, so `recv_req_head` puts each read
at the start of the buffer, over the earlier ones.  `gather` follows the buffer from read to read up
to the first line end: it is a function of the results of the reads alone.

`serve_of_gather` says that a connection comes to the head that `gather` finds, with the reads that
are left, and `unheard_of_gather` that nothing is known of the request if it finds none.
-/

namespace Linglongta

open CString

/-! ## Gathering -/

/-- A head that has been found in the buffer. -/
structure FoundHead where
  /-- What stands in the buffer. -/
  buf : Blob maxQueryHeaderSize
  /-- `have_read`. -/
  haveRead : ℕ
  /-- The position of the line end. -/
  lineEnd : ℕ
  /-- The reads that are left. -/
  rest : List ReadResult

/-- The head that is found when these are the results of the reads, given what stands in the buffer
and `have_read`: none if a read fails, ends the stream or returns too much before there is a line
end. -/
def gather (buf : Blob maxQueryHeaderSize) (haveRead : ℕ) : List ReadResult → Option FoundHead
  | [] => none
  | .error _ :: _ => none
  | .ok bytes :: reads =>
    if bytes = [] ∨ maxQueryHeaderSize < haveRead + bytes.length then none
    else
      match strstr mcTermStr (ofBuffer (buf.patch 0 bytes).bytes) with
      | some i => some ⟨buf.patch 0 bytes, haveRead + bytes.length, i, reads⟩
      | none => gather (buf.patch 0 bytes) (haveRead + bytes.length) reads

/-- The head that is found on a new connection. -/
def gatherHead (reads : List ReadResult) : Option FoundHead :=
  gather (Blob.copy maxQueryHeaderSize []) 0 reads

namespace FoundHead

/-- The size of the head. -/
def size (g : FoundHead) : ℕ := g.lineEnd + mcTermStr.length

/-- What `parse_memcached_string_head` makes of the head. -/
def parsed (g : FoundHead) : Int × QueryRequest := parsedHead g.buf g.size

/-- What stands behind the head. -/
def behind (g : FoundHead) : List UInt8 := behindHead g.buf g.haveRead g.size

/-- It is accepted as that of a set request. -/
def IsSet (g : FoundHead) : Prop :=
  g.parsed.1 = 0 ∧ g.parsed.2.parseStatus = .succ ∧ g.parsed.2.cmdType = .set

/-- The size that it declares is that of a `size_t`. -/
lemma dataSize_lt (g : FoundHead) : g.parsed.2.dataSize < 2 ^ 64 := by
  have hparsed := parsed_parse ({ QueryRequest.zero with queryHeadBuf := g.buf }.terminate g.size)
  exact hparsed.dataSize (show 0 < 2 ^ 64 by decide)

/-- The head has been found by looking for it, and has been read. -/
structure Sound (g : FoundHead) : Prop where
  /-- It is the first one. -/
  find : tryParseMemcachedStringHead (headTask g.buf g.haveRead).queryRequest = some g.lineEnd
  /-- `have_read` covers it. -/
  covered : g.size ≤ g.haveRead
  /-- Not more has been read than the buffer holds. -/
  short : g.haveRead ≤ maxQueryHeaderSize

lemma length_behind {g : FoundHead} (hg : g.Sound) : g.behind.length = g.haveRead - g.size :=
  length_behindHead g.buf hg.short g.size

lemma length_behind_le {g : FoundHead} (hg : g.Sound) : g.behind.length ≤ maxQueryHeaderSize := by
  have hshort := hg.short
  rw [length_behind hg]
  omega

end FoundHead

section Gather

variable {buf : Blob maxQueryHeaderSize} {haveRead : ℕ} {bytes : List UInt8}
variable {reads : List ReadResult} {g : FoundHead}

/-- A read that returns bytes and brings a line end into the buffer. -/
lemma gather_of_some (hne : bytes ≠ []) (hlen : haveRead + bytes.length ≤ maxQueryHeaderSize)
    {i : ℕ} (hfind : strstr mcTermStr (ofBuffer (buf.patch 0 bytes).bytes) = some i) :
    gather buf haveRead (.ok bytes :: reads) =
      some ⟨buf.patch 0 bytes, haveRead + bytes.length, i, reads⟩ := by
  rw [gather, if_neg (by simp [hne, hlen])]
  simp only [hfind]

/-- A read that returns bytes and brings no line end into the buffer. -/
lemma gather_of_none (hne : bytes ≠ []) (hlen : haveRead + bytes.length ≤ maxQueryHeaderSize)
    (hfind : strstr mcTermStr (ofBuffer (buf.patch 0 bytes).bytes) = none) :
    gather buf haveRead (.ok bytes :: reads) =
      gather (buf.patch 0 bytes) (haveRead + bytes.length) reads := by
  rw [gather, if_neg (by simp [hne, hlen])]
  simp only [hfind]

/-- How a head is found: with the first read, or after it. -/
lemma gather_cases (h : gather buf haveRead reads = some g) :
    ∃ bytes reads', reads = .ok bytes :: reads' ∧ bytes ≠ [] ∧
      haveRead + bytes.length ≤ maxQueryHeaderSize ∧
      ((∃ i, strstr mcTermStr (ofBuffer (buf.patch 0 bytes).bytes) = some i ∧
        g = ⟨buf.patch 0 bytes, haveRead + bytes.length, i, reads'⟩) ∨
      (strstr mcTermStr (ofBuffer (buf.patch 0 bytes).bytes) = none ∧
        gather (buf.patch 0 bytes) (haveRead + bytes.length) reads' = some g)) := by
  match reads, h with
  | .ok bytes :: reads', h =>
    rw [gather] at h
    split at h
    · cases h
    · rename_i hok
      rw [not_or, not_lt] at hok
      refine ⟨bytes, reads', rfl, hok.1, hok.2, ?_⟩
      split at h
      · rename_i i hfind
        exact Or.inl ⟨i, hfind, (Option.some.inj h).symm⟩
      · rename_i hfind
        exact Or.inr ⟨hfind, h⟩

/-- Nothing has been put behind the bytes that have been read. -/
def ZeroBehind (buf : Blob maxQueryHeaderSize) (haveRead : ℕ) : Prop :=
  ∀ c ∈ buf.bytes.drop haveRead, c = 0

lemma zeroBehind_start : ZeroBehind (Blob.copy maxQueryHeaderSize []) 0 := by
  intro c hc
  exact List.eq_of_mem_replicate (List.mem_of_mem_drop hc)

/-- Another read keeps this. -/
lemma ZeroBehind.patch (h : ZeroBehind buf haveRead) (bytes : List UInt8) :
    ZeroBehind (buf.patch 0 bytes) (haveRead + bytes.length) := by
  intro c hc
  have hbytes : (buf.patch 0 bytes).bytes =
      (bytes ++ buf.bytes.drop bytes.length).take maxQueryHeaderSize := by
    simp [Blob.patch]
  rw [hbytes, List.drop_take, Nat.add_comm, List.drop_append, List.drop_eq_nil_of_le (by omega),
    List.nil_append, List.drop_drop] at hc
  have hmem := List.mem_of_mem_take hc
  rw [show bytes.length + (bytes.length + haveRead - bytes.length) =
    haveRead + bytes.length by omega, ← List.drop_drop] at hmem
  exact h c (List.mem_of_mem_drop hmem)

/-- A line end stands within what has been read. -/
lemma ZeroBehind.covers (h : ZeroBehind buf haveRead) {i : ℕ}
    (hfind : strstr mcTermStr (ofBuffer buf.bytes) = some i) :
    i + mcTermStr.length ≤ haveRead := by
  have hle : i + mcTermStr.length ≤ (ofBuffer buf.bytes).length := by
    rcases strstr_add_le hfind with hle | hnil
    · exact hle
    · cases hnil
  have hpre : (ofBuffer buf.bytes).length ≤ haveRead := by
    by_contra hlt
    rw [not_le] at hlt
    have hstart : ofBuffer buf.bytes <+: buf.bytes := List.takeWhile_prefix _
    have hmem : (ofBuffer buf.bytes)[haveRead] ∈ buf.bytes.drop haveRead := by
      rw [hstart.getElem hlt]
      exact List.mem_drop_iff_getElem.2 ⟨0, by have := hstart.length_le; omega, by simp⟩
    have hzero := h _ hmem
    have hnonzero := List.mem_takeWhile_imp (List.getElem_mem hlt : _ ∈ ofBuffer buf.bytes)
    simp [hzero] at hnonzero
  omega

/-- The head that is found. -/
lemma sound_of_gather (hzero : ZeroBehind buf haveRead) (h : gather buf haveRead reads = some g) :
    g.Sound := by
  induction reads generalizing buf haveRead with
  | nil => cases h
  | cons read reads ih =>
    obtain ⟨bytes, reads', hcons, -, hlen, ⟨i, hfind, rfl⟩ | ⟨-, hlater⟩⟩ := gather_cases h
    · exact ⟨hfind, (hzero.patch bytes).covers hfind, hlen⟩
    · obtain ⟨-, rfl⟩ := List.cons.inj hcons
      exact ih (hzero.patch bytes) hlater

lemma sound_of_gatherHead (h : gatherHead reads = some g) : g.Sound :=
  sound_of_gather zeroBehind_start h

/-- The reads up to the head, whatever comes behind them. -/
lemma exists_of_gather (h : gather buf haveRead reads = some g) :
    ∃ reads', reads = reads' ++ g.rest ∧
      haveRead + (arrivedBytes reads').length = g.haveRead ∧
      ∀ rest, gather buf haveRead (reads' ++ rest) = some { g with rest := rest } := by
  induction reads generalizing buf haveRead with
  | nil => cases h
  | cons read reads ih =>
    obtain ⟨bytes, reads', hcons, hne, hlen, ⟨i, hfind, rfl⟩ | ⟨hfind, hlater⟩⟩ := gather_cases h
    · obtain ⟨rfl, rfl⟩ := List.cons.inj hcons
      exact ⟨[.ok bytes], rfl, by simp [arrivedBytes, ReadResult.bytes],
        fun rest => gather_of_some hne hlen hfind⟩
    · obtain ⟨rfl, rfl⟩ := List.cons.inj hcons
      obtain ⟨reads', hreads, hcount, hrest⟩ := ih hlater
      refine ⟨.ok bytes :: reads', by rw [hreads]; rfl, ?_, fun rest => ?_⟩
      · rw [← hcount]
        simp only [arrivedBytes, List.flatMap_cons, ReadResult.bytes, List.length_append]
        omega
      · rw [List.cons_append, gather_of_none hne hlen hfind, hrest]

end Gather

/-! ## Reading the head -/

/-- A task that reads the head, with this in its buffer. -/
def headWait (buf : Blob maxQueryHeaderSize) (haveRead : ℕ) : QueryTask :=
  { headTask buf haveRead with
    state := .recvReqHead
    needRead := (maxQueryHeaderSize : Int) - haveRead }

lemma acceptedTask_eq : acceptedTask = headWait (Blob.copy maxQueryHeaderSize []) 0 := rfl

/-- A connection that reads the head. -/
def Conn.ReadsHead (buf : Blob maxQueryHeaderSize) (haveRead : ℕ) (c : Conn) : Prop :=
  haveRead < maxQueryHeaderSize ∧
    (c = .watched (headWait buf haveRead) ∨ c = .looping (headWait buf haveRead))

/-- Nothing is known of the request, and no worker will hear of it. -/
def Conn.Unheard (c : Conn) : Prop :=
  ∃ t, (c = .watched t ∨ c = .looping t ∨ c = .destroyed t) ∧ t.queryRequest.cmdType = .unknown

section Reading

variable {slabAlloc : ℕ → Option (ℕ → UInt8)} {buf : Blob maxQueryHeaderSize} {haveRead : ℕ}
variable {bytes : List UInt8} {reads : List ReadResult} {c : Conn} {g : FoundHead}

lemma readsHead_accepted :
    (Conn.watched acceptedTask).ReadsHead (Blob.copy maxQueryHeaderSize []) 0 :=
  ⟨by decide, Or.inl (congrArg Conn.watched acceptedTask_eq)⟩

/-- A round that reads the head. -/
lemma feed_readsHead (hc : c.ReadsHead buf haveRead) (read : ReadResult) :
    c.feed slabAlloc read =
      Conn.settle slabAlloc 3 (Conn.ofResult (recvReqHead read (headWait buf haveRead))) := by
  have hstate : (headWait buf haveRead).state = .recvReqHead := rfl
  obtain ⟨-, rfl | rfl⟩ := hc
  · simp only [Conn.feed, Conn.round, queryIoRound, hstate, Conn.ofRound_bind]
  · simp only [Conn.feed, Conn.round, queryIoRound, hstate, Conn.ofRound_bind]

/-- A read that returns bytes. -/
lemma feed_readsHead_ok (hc : c.ReadsHead buf haveRead) (hne : bytes ≠ [])
    (hlen : haveRead + bytes.length ≤ maxQueryHeaderSize) :
    c.feed slabAlloc (.ok bytes) = Conn.settle slabAlloc 2 (Conn.ofResult
      (parseQueryRequestHead slabAlloc
        (headTask (buf.patch 0 bytes) (haveRead + bytes.length)))) := by
  have hneed : (bytes.length : Int) ≤ (headWait buf haveRead).needRead := by
    show (bytes.length : Int) ≤ (maxQueryHeaderSize : Int) - haveRead
    omega
  have hrecv : recvReqHead (.ok bytes) (headWait buf haveRead) =
      .ok (true, headTask (buf.patch 0 bytes) (haveRead + bytes.length)) := recvReqHead_ok hne hneed
  have hstate : (headTask (buf.patch 0 bytes) (haveRead + bytes.length)).state = .parseReqHead :=
    rfl
  rw [feed_readsHead hc, hrecv, Conn.ofResult, Conn.settle, if_neg (by simp [hstate])]
  simp only [Conn.round, queryIoRound, hstate, Conn.ofRound_bind]

/-- There is no line end in the buffer: the head is read on, unless the buffer is full. -/
lemma feed_readsHead_none (slabAlloc : ℕ → Option (ℕ → UInt8)) (hc : c.ReadsHead buf haveRead)
    (hne : bytes ≠ []) (hlen : haveRead + bytes.length ≤ maxQueryHeaderSize)
    (hfind : strstr mcTermStr (ofBuffer (buf.patch 0 bytes).bytes) = none) :
    (c.feed slabAlloc (.ok bytes)).ReadsHead (buf.patch 0 bytes) (haveRead + bytes.length) ∨
    (haveRead + bytes.length = maxQueryHeaderSize ∧ ∃ t,
      c.feed slabAlloc (.ok bytes) = .destroyed t ∧ t.queryRequest.cmdType = .unknown) := by
  have hfind' : tryParseMemcachedStringHead
      (headTask (buf.patch 0 bytes) (haveRead + bytes.length)).queryRequest = none := hfind
  rw [feed_readsHead_ok hc hne hlen]
  simp only [parseQueryRequestHead, hfind']
  by_cases hfull : haveRead + bytes.length = maxQueryHeaderSize
  · have hlog : ({ headTask (buf.patch 0 bytes) (haveRead + bytes.length) with
        state := .recvReqHead, needRead := 0 } : QueryTask).errorLog = none := rfl
    rw [changeState_recvReqHead_full (by exact hfull), QueryTask.log_of_none _ hlog]
    exact Or.inr ⟨hfull, _, Conn.settle_destroyRecv _ 1 rfl, rfl⟩
  · rw [changeState_recvReqHead (by exact hfull)]
    exact Or.inl ⟨lt_of_le_of_ne hlen hfull, Or.inr rfl⟩

/-- A connection that comes to a head. -/
lemma serve_of_gather (hc : c.ReadsHead buf haveRead) (h : gather buf haveRead reads = some g) :
    c.serve slabAlloc reads = Conn.serve slabAlloc (Conn.settle slabAlloc 2 (Conn.ofResult
      (parseQueryRequestHead slabAlloc (headTask g.buf g.haveRead)))) g.rest := by
  induction reads generalizing c buf haveRead with
  | nil => cases h
  | cons read reads ih =>
    obtain ⟨bytes, reads', hcons, hne, hlen, ⟨i, hfind, rfl⟩ | ⟨hfind, hlater⟩⟩ := gather_cases h
    · obtain ⟨rfl, rfl⟩ := List.cons.inj hcons
      rw [Conn.serve_cons, feed_readsHead_ok hc hne hlen]
    · obtain ⟨rfl, rfl⟩ := List.cons.inj hcons
      rcases feed_readsHead_none slabAlloc hc hne hlen hfind with hnext | ⟨hfull, -⟩
      · rw [Conn.serve_cons, ih hnext hlater]
      · -- a full buffer takes no further read
        obtain ⟨bytes', -, -, hne', hlen', -⟩ := gather_cases hlater
        have hpos := List.length_pos_iff.2 hne'
        omega

/-- A task that is given up without a request stays unheard. -/
lemma unheard_serve {t : QueryTask} (hstate : t.state = .destroyRecv)
    (hcmd : t.queryRequest.cmdType = .unknown) (reads : List ReadResult) :
    (Conn.serve slabAlloc (.watched t) reads).Unheard := by
  cases reads with
  | nil => exact ⟨t, Or.inl rfl, hcmd⟩
  | cons read reads =>
    have hfeed : Conn.feed slabAlloc (.watched t) read = .destroyed t := by
      simp [Conn.feed, Conn.round, queryIoRound, hstate, Conn.ofRound, pure, Except.pure]
    rw [Conn.serve_cons, hfeed, Conn.serve_destroyed]
    exact ⟨t, Or.inr (Or.inr rfl), hcmd⟩

/-- A read that fails or returns too much. -/
lemma recvReqHead_gives_up (buf : Blob maxQueryHeaderSize) {read : ReadResult}
    (hread : ∀ bytes, read = .ok bytes → maxQueryHeaderSize < haveRead + bytes.length)
    (hlt : haveRead < maxQueryHeaderSize) :
    ∃ t, recvReqHead read (headWait buf haveRead) = .ok (true, t) ∧ t.state = .destroyRecv ∧
      t.queryRequest.cmdType = .unknown := by
  have hlog : (headWait buf haveRead).errorLog = none := rfl
  cases read with
  | error errno =>
    rw [recvReqHead, QueryTask.log_of_none _ hlog]
    exact ⟨_, rfl, rfl, rfl⟩
  | ok bytes =>
    have hlong := hread bytes rfl
    have hlog' : ((headWait buf haveRead).receivedHead bytes).errorLog = none := rfl
    have hend : ¬ (bytes = [] ∧ ((headWait buf haveRead).receivedHead bytes).needRead ≠ 0) := by
      rintro ⟨rfl, -⟩
      exact absurd hlong (by simpa using hlt.le)
    have hmore : ¬ (0 < bytes.length ∧
        (bytes.length : Int) ≤ ((headWait buf haveRead).receivedHead bytes).needRead) := by
      rintro ⟨-, hle⟩
      have hle' : (bytes.length : Int) ≤ (maxQueryHeaderSize : Int) - haveRead := hle
      omega
    simp only [recvReqHead, if_neg hend, if_neg hmore, QueryTask.log_of_none _ hlog']
    exact ⟨_, rfl, rfl, rfl⟩

/-- A connection that comes to no head. -/
lemma unheard_of_gather (slabAlloc : ℕ → Option (ℕ → UInt8)) (hc : c.ReadsHead buf haveRead)
    (h : gather buf haveRead reads = none) :
    (c.serve slabAlloc reads).Unheard := by
  induction reads generalizing c buf haveRead with
  | nil =>
    obtain ⟨-, rfl | rfl⟩ := hc
    · exact ⟨_, Or.inl rfl, rfl⟩
    · exact ⟨_, Or.inr (Or.inl rfl), rfl⟩
  | cons read reads ih =>
    have hgiven : (∀ bytes, read = .ok bytes → maxQueryHeaderSize < haveRead + bytes.length) →
        (Conn.serve slabAlloc (c.feed slabAlloc read) reads).Unheard := by
      intro hread
      obtain ⟨t, hrecv, hstate, hcmd⟩ := recvReqHead_gives_up buf hread hc.1
      rw [feed_readsHead hc, hrecv, Conn.ofResult, Conn.settle_destroyRecv _ 2 hstate,
        Conn.serve_destroyed]
      exact ⟨t, Or.inr (Or.inr rfl), hcmd⟩
    rw [Conn.serve_cons]
    cases read with
    | error errno => exact hgiven fun bytes hread => by cases hread
    | ok bytes =>
      by_cases hne : bytes = []
      · -- the stream has ended
        have hend : bytes = [] ∧ ((headWait buf haveRead).receivedHead bytes).needRead ≠ 0 := by
          refine ⟨hne, ?_⟩
          show (maxQueryHeaderSize : Int) - haveRead ≠ 0
          have := hc.1
          omega
        rw [feed_readsHead hc, recvReqHead, if_pos hend]
        exact unheard_serve rfl rfl reads
      · rcases Nat.lt_or_ge maxQueryHeaderSize (haveRead + bytes.length) with hlong | hlen
        · exact hgiven fun bytes' hread => by cases hread; exact hlong
        · rcases hfind : strstr mcTermStr (ofBuffer (buf.patch 0 bytes).bytes) with _ | i
          · rw [gather_of_none hne hlen hfind] at h
            rcases feed_readsHead_none slabAlloc hc hne hlen hfind with
              hnext | ⟨-, t, hfeed, hcmd⟩
            · exact ih hnext h
            · rw [hfeed, Conn.serve_destroyed]
              exact ⟨t, Or.inr (Or.inr rfl), hcmd⟩
          · rw [gather_of_some hne hlen hfind] at h
            cases h

end Reading

/-! ## The head that is found -/

section Found

variable {slabAlloc : ℕ → Option (ℕ → UInt8)} {reads : List ReadResult} {g : FoundHead}

/-- The connection after the assign thread has acted on the head. -/
def FoundHead.acted (slabAlloc : ℕ → Option (ℕ → UInt8)) (g : FoundHead) : Conn :=
  Conn.settle slabAlloc 2 (Conn.ofResult
    (actOnRequest slabAlloc g.behind g.parsed (headTask g.buf g.haveRead)))

/-- A connection that comes to a head acts on it. -/
lemma serve_gatherHead (h : gatherHead reads = some g) :
    Conn.serve slabAlloc (.watched acceptedTask) reads =
      Conn.serve slabAlloc (g.acted slabAlloc) g.rest := by
  have hg := sound_of_gatherHead h
  rw [serve_of_gather readsHead_accepted h, parse_headTask slabAlloc g.buf true hg.find hg.covered]
  rfl

/-- A set request for which there is no memory. -/
lemma FoundHead.acted_null (hset : g.IsSet) (hnull : slabAlloc g.parsed.2.bodySize = none) :
    g.acted slabAlloc = .aborted .data := by
  rw [FoundHead.acted, actOnRequest_set hset.1 hset.2.1 hset.2.2,
    bufferBody_of_none _ (t := { headTask g.buf g.haveRead with queryRequest := g.parsed.2 }) hnull]
  exact Conn.settle_aborted _ _ _

/-- A set request for which there is memory. -/
lemma FoundHead.acted_set (hg : g.Sound) (hset : g.IsSet) {mem : ℕ → UInt8}
    (hmem : slabAlloc g.parsed.2.bodySize = some mem) :
    (g.behind.length = g.parsed.2.bodySize ∧ ∃ t, g.acted slabAlloc = .dispatched t ∧
      Whole g.parsed.2.tag g.parsed.2.bodySize g.behind t) ∨
    (Missing g.parsed.2.bodySize g.behind ∧
      (g.acted slabAlloc).Awaits g.parsed.2.tag g.parsed.2.bodySize g.behind) ∨
    (g.behind.length ≠ g.parsed.2.bodySize ∧ ¬ Missing g.parsed.2.bodySize g.behind ∧
      ∃ t, g.acted slabAlloc = .destroyed t ∧
        Overfull g.parsed.2.tag g.parsed.2.bodySize g.behind t) := by
  have hparsed := parsed_parse ({ QueryRequest.zero with queryHeadBuf := g.buf }.terminate g.size)
  have hsize : g.parsed.2.queryHeadBufSize = g.size := hparsed.queryHeadBufSize
  have hhave : g.haveRead = g.parsed.2.queryHeadBufSize + g.behind.length := by
    have hcovered := hg.covered
    rw [hsize, FoundHead.length_behind hg]
    omega
  rw [FoundHead.acted, actOnRequest_set hset.1 hset.2.1 hset.2.2]
  exact settle_bufferBody (t := parsedTask g.buf g.haveRead g.size) rfl rfl hhave
    (FoundHead.length_behind_le hg) hmem

variable {s d : List UInt8}

/-- A head that arrives whole with the first read is the one that is found. -/
lemma gatherHead_first (hs : IsHead s)
    (hlen : (s ++ (mcTermStr ++ d)).length ≤ maxQueryHeaderSize) (reads : List ReadResult) :
    gatherHead (.ok (s ++ (mcTermStr ++ d)) :: reads) = some
      ⟨Blob.copy maxQueryHeaderSize (s ++ (mcTermStr ++ d)), (s ++ (mcTermStr ++ d)).length,
        s.length, reads⟩ := by
  have hne : s ++ (mcTermStr ++ d) ≠ [] := by simp [mcTermStr]
  have hfind := tryParse_receivedTask hs hlen
  rw [← patch_zero hlen, ← Nat.zero_add (s ++ (mcTermStr ++ d)).length]
  refine gather_of_some hne (by simpa using hlen) ?_
  rw [patch_zero hlen]
  exact hfind

/-- What stands behind it is what has arrived behind it. -/
lemma behindHead_first (hlen : (s ++ (mcTermStr ++ d)).length ≤ maxQueryHeaderSize) :
    behindHead (Blob.copy maxQueryHeaderSize (s ++ (mcTermStr ++ d)))
      (s ++ (mcTermStr ++ d)).length (s.length + mcTermStr.length) = d :=
  tmpBuf_receivedTask hlen

end Found

end Linglongta
