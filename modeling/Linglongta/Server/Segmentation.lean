import Linglongta.Server.Gathering

/-!
# Heads that arrive in pieces

`Splits d head reads` says that the reads deliver a head piece by piece, with the bytes `d` behind
it.  After a piece without a line end in the buffer the assign thread reads again at once, and
`EAGAIN` makes it give up.  If there is something to read, it is put over the first piece.

So what is decided about a request depends on what `gather` finds (`outcome_of_gather`), and it is
the same as for a head in one piece only if that is the same request: `head_segmentation_iff`.
-/

namespace Linglongta

open CString

/-! ## Outcomes -/

/-- What the assign thread decides about a request. -/
inductive Decision
  /-- More is to be read. -/
  | waiting
  /-- The request is given to a worker. -/
  | dispatched
  /-- A worker has to answer that the request cannot be parsed. -/
  | refused
  /-- The connection is closed. -/
  | destroyed
  /-- The process ends. -/
  | exited
deriving DecidableEq

/-- A decision, and the request it is about. -/
structure RequestOutcome where
  /-- The decision. -/
  decision : Decision
  /-- `cmd_type`. -/
  cmdType : CmdType
  /-- `key`. -/
  key : List UInt8
  /-- `flag`. -/
  flag : Int
  /-- `exptime`. -/
  exptime : Int
  /-- `data_size`. -/
  dataSize : ℕ
  /-- The bytes of the body that have been received. -/
  body : Option (List UInt8)
deriving DecidableEq

/-- The outcome for a task about which this has been decided. -/
def QueryTask.outcome (t : QueryTask) (decision : Decision) : RequestOutcome where
  decision := decision
  cmdType := t.queryRequest.cmdType
  key := t.queryRequest.key
  flag := t.queryRequest.flag
  exptime := t.queryRequest.exptime
  dataSize := t.queryRequest.dataSize
  body := t.queryRequest.data.map fun data => data.bytes data.extent

/-- The outcome for a connection, none if an assertion has failed. -/
def Conn.outcome : Conn → Option RequestOutcome
  | watched t => some (t.outcome .waiting)
  | looping t => some (t.outcome .waiting)
  | dispatched t => some (t.outcome (if t.state = .returnFailed then .refused else .dispatched))
  | destroyed t => some (t.outcome .destroyed)
  | exited t => some (t.outcome .exited)
  | aborted _ => none

/-! ## Pieces -/

/-- The reads deliver a head in pieces that are not empty, the last one with the bytes `d` behind
it. Between two pieces there may be nothing to read, any number of times. -/
inductive Splits (d : List UInt8) : List UInt8 → List ReadResult → Prop
  /-- The last piece. -/
  | last {p : List UInt8} (hp : p ≠ []) : Splits d p [.ok (p ++ d)]
  /-- A piece before the others. -/
  | piece {p head : List UInt8} {reads : List ReadResult} (hp : p ≠ []) (n : ℕ)
      (h : Splits d head reads) :
      Splits d (p ++ head) (.ok p :: (List.replicate n (.error .again) ++ reads))

/-! ## Decisions -/

/-- The bytes of a body, of which some have come with the head, after these reads: none of them is
made once the body is complete. -/
def collect (size : ℕ) (arrived : List UInt8) : List ReadResult → List UInt8
  | [] => arrived
  | read :: reads =>
    if Missing size arrived then collect size (arrived ++ read.bytes) reads else arrived

/-- What is decided about a set request, given the size of its body and the bytes that have been
received. -/
def RequestTag.receiving (tag : RequestTag) (size : ℕ) (body : List UInt8) : RequestOutcome where
  decision :=
    if body.length = size then .dispatched else if Missing size body then .waiting else .destroyed
  cmdType := tag.cmdType
  key := tag.key
  flag := tag.flag
  exptime := tag.exptime
  dataSize := if body.length = size then toSizeT ((size : Int) - 2) else size
  body := some body

/-- What is decided about a request without a body. -/
def RequestTag.bodiless (tag : RequestTag) (decision : Decision) (dataSize : ℕ) :
    RequestOutcome where
  decision := decision
  cmdType := tag.cmdType
  key := tag.key
  flag := tag.flag
  exptime := tag.exptime
  dataSize := dataSize
  body := none

/-- What is decided about a request that has been parsed, given the bytes of its body that have been
received. -/
def QueryRequest.resolved (qr : QueryRequest) (body : List UInt8) : RequestOutcome :=
  if qr.parseStatus = .succ then
    match qr.cmdType with
    | .set => qr.tag.receiving qr.bodySize body
    | .sync => qr.tag.bodiless .destroyed qr.dataSize
    | .power => qr.tag.bodiless .exited qr.dataSize
    | _ => qr.tag.bodiless .dispatched (toSizeT ((qr.dataSize : Int) - 2))
  else qr.tag.bodiless .refused qr.dataSize

/-- There is no memory for the body of a set request. -/
def QueryRequest.Starved (slabAlloc : ℕ → Option (ℕ → UInt8)) (qr : QueryRequest) : Prop :=
  qr.parseStatus = .succ ∧ qr.cmdType = .set ∧ slabAlloc qr.bodySize = none

instance instDecidableStarved (slabAlloc : ℕ → Option (ℕ → UInt8)) (qr : QueryRequest) :
    Decidable (qr.Starved slabAlloc) :=
  inferInstanceAs (Decidable (_ ∧ _ ∧ _))

/-- What is decided about it if the memory may be missing. -/
def QueryRequest.decided (slabAlloc : ℕ → Option (ℕ → UInt8)) (qr : QueryRequest)
    (body : List UInt8) : Option RequestOutcome :=
  if qr.Starved slabAlloc then none else some (qr.resolved body)

section Receiving

variable {slabAlloc : ℕ → Option (ℕ → UInt8)} {tag : RequestTag} {size : ℕ}
variable {arrived body : List UInt8} {reads : List ReadResult} {t : QueryTask} {c : Conn}

lemma collect_of_not_missing (h : ¬ Missing size arrived) (reads : List ReadResult) :
    collect size arrived reads = arrived := by
  cases reads with
  | nil => rfl
  | cons read reads => exact if_neg h

lemma not_missing_of_length (h : arrived.length = size) : ¬ Missing size arrived :=
  fun hmissing => absurd h hmissing.1.ne

/-- A buffer that has been filled up to here. -/
lemma bytes_extent {data : Buffer} (hdata : t.queryRequest.data = some data)
    (hextent : data.extent = body.length) (hbytes : data.bytes body.length = body) :
    (t.queryRequest.data.map fun data => data.bytes data.extent) = some body := by
  rw [hdata, Option.map_some, hextent, hbytes]

lemma Awaiting.outcome (ht : Awaiting tag size body t) (hmissing : Missing size body) :
    t.outcome .waiting = tag.receiving size body := by
  obtain ⟨data, hdata, -, hextent, hbytes⟩ := ht.data
  have hne : body.length ≠ size := hmissing.1.ne
  simp only [QueryTask.outcome, RequestTag.receiving, if_neg hne, if_pos hmissing, ht.dataSize,
    bytes_extent hdata hextent hbytes, ← ht.tag]
  rfl

lemma Whole.outcome (ht : Whole tag size body t) :
    (Conn.dispatched t).outcome = some (tag.receiving size body) := by
  obtain ⟨data, hdata, -, hextent, hbytes⟩ := ht.data
  simp only [Conn.outcome, QueryTask.outcome, RequestTag.receiving, if_pos ht.length, ht.dataSize,
    bytes_extent hdata hextent hbytes, ← ht.tag, ht.state]
  rfl

lemma Overfull.outcome (ht : Overfull tag size body t) (hne : body.length ≠ size)
    (hnot : ¬ Missing size body) :
    (Conn.destroyed t).outcome = some (tag.receiving size body) := by
  obtain ⟨data, hdata, hextent, hbytes⟩ := ht.data
  simp only [Conn.outcome, QueryTask.outcome, RequestTag.receiving, if_neg hne, if_neg hnot,
    ht.dataSize, bytes_extent hdata hextent hbytes, ← ht.tag]
  rfl

/-- The reads of the rest of a body, with any number of reads that find nothing. -/
lemma outcome_of_awaits (reads : List ReadResult) (h : c.Awaits tag size arrived)
    (hmissing : Missing size arrived) (hreads : ∀ read ∈ reads, read.Delivers) :
    (c.serve slabAlloc reads).outcome = some (tag.receiving size (collect size arrived reads)) := by
  induction reads generalizing c arrived with
  | nil =>
    obtain ⟨t, rfl | rfl, ht⟩ := h
    · exact congrArg some (ht.outcome hmissing)
    · exact congrArg some (ht.outcome hmissing)
  | cons read reads ih =>
    have hread := hreads read (List.mem_cons_self ..)
    rw [Conn.serve_cons, collect, if_pos hmissing]
    rcases Nat.lt_or_ge size (arrived ++ read.bytes).length with hlt | hle
    · obtain ⟨t, hfeed, hover⟩ := feed_over slabAlloc h hread hlt
      have hnot : ¬ Missing size (arrived ++ read.bytes) := fun hmiss => hlt.not_gt hmiss.1
      rw [hfeed, Conn.serve_destroyed, collect_of_not_missing hnot, hover.outcome hlt.ne' hnot]
    · rcases feed_delivers slabAlloc h hread hle with ⟨hlt, hawaits⟩ | ⟨heq, t, hfeed, hwhole⟩
      · have hmissing' : Missing size (arrived ++ read.bytes) := by
          refine ⟨hlt, hmissing.2.trans_le ?_⟩
          rw [List.length_append]
          omega
        exact ih hawaits hmissing' fun r hr => hreads r (List.mem_cons_of_mem _ hr)
      · rw [hfeed, Conn.serve_dispatched, collect_of_not_missing (not_missing_of_length heq),
          hwhole.outcome]

end Receiving

section Deciding

variable {slabAlloc : ℕ → Option (ℕ → UInt8)} {r : Int × QueryRequest} {t : QueryTask}
variable {reads : List ReadResult} {g : FoundHead}

/-- A task whose request has this tag and no body. -/
lemma outcome_bodiless {t : QueryTask} {qr : QueryRequest} (htag : t.queryRequest.tag = qr.tag)
    (hdata : t.queryRequest.data = none) (decision : Decision) :
    t.outcome decision = qr.tag.bodiless decision t.queryRequest.dataSize := by
  simp only [QueryTask.outcome, hdata, Option.map_none, ← htag]
  rfl

/-- A task with which the assign thread has done. -/
lemma outcome_of_settle {c : Conn} {o : RequestOutcome}
    (hsettle : Conn.settle slabAlloc 2 (.looping t) = c) (hserve : c.serve slabAlloc reads = c)
    (ho : c.outcome = some o) :
    (Conn.serve slabAlloc (Conn.settle slabAlloc 2 (Conn.ofResult (.ok (true, t)))) reads).outcome =
      some o := by
  rw [Conn.ofResult, hsettle, hserve, ho]

/-- What is decided about a request that is not an accepted set request. -/
lemma outcome_of_other (hr : ParseOutcome r) (hdata : r.2.data = none) (hlog : t.errorLog = none)
    (hset : r.2.parseStatus = .succ → r.2.cmdType ≠ .set) (tmpBuf body : List UInt8) :
    (Conn.serve slabAlloc (Conn.settle slabAlloc 2 (Conn.ofResult
      (actOnRequest slabAlloc tmpBuf r t))) reads).outcome = r.2.decided slabAlloc body := by
  have hlog' : ({ t with queryRequest := r.2 } : QueryTask).errorLog = none := hlog
  have hfed : ¬ r.2.Starved slabAlloc := fun h => hset h.1 h.2.1
  rw [QueryRequest.decided, if_neg hfed]
  rcases hr with ⟨hret, hsucc, hknown⟩ | ⟨hret, hfailed⟩
  · simp only [actOnRequest, if_pos (And.intro hret hsucc), QueryRequest.resolved, if_pos hsucc]
    cases hcmd : r.2.cmdType with
    | set => exact absurd hcmd (hset hsucc)
    | unknown => exact absurd hcmd hknown
    | get =>
      simp only [changeState_dispatch hlog']
      exact outcome_of_settle (Conn.settle_dispatch _ 1 rfl) (Conn.serve_dispatched ..)
        (congrArg some (outcome_bodiless rfl hdata .dispatched))
    | delete =>
      simp only [changeState_dispatch hlog']
      exact outcome_of_settle (Conn.settle_dispatch _ 1 rfl) (Conn.serve_dispatched ..)
        (congrArg some (outcome_bodiless rfl hdata .dispatched))
    | sync =>
      exact outcome_of_settle (Conn.settle_doSync _ 0 rfl) (Conn.serve_destroyed ..)
        (congrArg some (outcome_bodiless rfl hdata .destroyed))
    | power =>
      exact outcome_of_settle (Conn.settle_doPower _ 1 rfl) (Conn.serve_exited ..)
        (congrArg some (outcome_bodiless rfl hdata .exited))
  · have hne : r.2.parseStatus ≠ .succ := by
      rw [hfailed]
      decide
    have hno : ¬ (r.1 = 0 ∧ r.2.parseStatus = .succ) := fun h => hne h.2
    have hlog'' : (refusedTask r.2 t).errorLog = none := hlog
    rw [actOnRequest_refused slabAlloc tmpBuf hno, QueryTask.log_of_none _ hlog'',
      QueryRequest.resolved, if_neg hne]
    exact outcome_of_settle (Conn.settle_returnFailed _ 1 rfl) (Conn.serve_dispatched ..)
      (congrArg some (outcome_bodiless rfl hdata .refused))

/-- What is decided about a set request that has been accepted. -/
lemma outcome_of_set (hg : g.Sound) (hset : g.IsSet) (hreads : ∀ read ∈ reads, read.Delivers) :
    (Conn.serve slabAlloc (g.acted slabAlloc) reads).outcome =
      g.parsed.2.decided slabAlloc (collect g.parsed.2.bodySize g.behind reads) := by
  cases hmem : slabAlloc g.parsed.2.bodySize with
  | none =>
    rw [FoundHead.acted_null hset hmem, Conn.serve_aborted, QueryRequest.decided,
      if_pos ⟨hset.2.1, hset.2.2, hmem⟩]
    rfl
  | some mem =>
    have hfed : ¬ g.parsed.2.Starved slabAlloc := fun h => by simp [h.2.2] at hmem
    simp only [QueryRequest.decided, if_neg hfed, QueryRequest.resolved, if_pos hset.2.1, hset.2.2]
    rcases FoundHead.acted_set hg hset hmem with
      ⟨hall, t, hserve, hwhole⟩ | ⟨hmissing, hawaits⟩ | ⟨hne, hnot, t, hserve, hover⟩
    · rw [hserve, Conn.serve_dispatched, collect_of_not_missing (not_missing_of_length hall),
        hwhole.outcome]
    · exact outcome_of_awaits reads hawaits hmissing hreads
    · rw [hserve, Conn.serve_destroyed, collect_of_not_missing hnot, hover.outcome hne hnot]

/-- What is decided about a request whose head has been found. -/
lemma outcome_of_gather (h : gatherHead reads = some g) (hreads : ∀ read ∈ g.rest, read.Delivers) :
    (Conn.serve slabAlloc (.watched acceptedTask) reads).outcome =
      g.parsed.2.decided slabAlloc (collect g.parsed.2.bodySize g.behind g.rest) := by
  have hg := sound_of_gatherHead h
  set qr := ({ QueryRequest.zero with queryHeadBuf := g.buf } : QueryRequest).terminate g.size
    with hqr
  have hparsed : qr.Parsed g.parsed.2 := parsed_parse qr
  have houtcome : ParseOutcome g.parsed := parse_outcome qr
  rw [serve_gatherHead h]
  by_cases hset : g.IsSet
  · exact outcome_of_set hg hset hreads
  · refine outcome_of_other houtcome hparsed.data rfl (fun hsucc hcmd => ?_) g.behind _
    rcases houtcome with ⟨hret, -⟩ | ⟨-, hfailed⟩
    · exact hset ⟨hret, hsucc, hcmd⟩
    · rw [hfailed] at hsucc
      cases hsucc

end Deciding

/-! ## Comparing requests -/

/-- A request as `parse_memcached_string_head` leaves it. -/
structure QueryRequest.Judged (qr : QueryRequest) : Prop where
  /-- It has been accepted or not. -/
  parseStatus : qr.parseStatus = .succ ∨ qr.parseStatus = .failed
  /-- If it has been accepted, it has a command. -/
  known : qr.parseStatus = .succ → qr.cmdType ≠ .unknown
  /-- The size is that of a `size_t`. -/
  dataSize : qr.dataSize < 2 ^ 64

/-- Two requests are the same, and those of a set request have the same bytes of their bodies. -/
structure Alike (qr qr' : QueryRequest) (body body' : List UInt8) : Prop where
  /-- They are parsed alike. -/
  tag : qr.tag = qr'.tag
  /-- They have the same size. -/
  dataSize : qr.dataSize = qr'.dataSize
  /-- The same bytes have been received. -/
  body : qr.parseStatus = .succ → qr.cmdType = .set → body = body'

section Comparing

variable {slabAlloc : ℕ → Option (ℕ → UInt8)} {qr qr' : QueryRequest} {body body' : List UInt8}

lemma judged_parse (h : qr.dataSize < 2 ^ 64) : (parseMemcachedStringHead qr).2.Judged := by
  have hsize := (parsed_parse qr).dataSize h
  rcases parse_outcome qr with ⟨-, hsucc, hknown⟩ | ⟨-, hfailed⟩
  · exact ⟨Or.inl hsucc, fun _ => hknown, hsize⟩
  · refine ⟨Or.inr hfailed, fun hsucc => ?_, hsize⟩
    rw [hfailed] at hsucc
    cases hsucc

/-- Sizes that are equal after they have been changed by the same amount were equal before. -/
lemma toSizeT_add_inj {m n : ℕ} (hm : m < 2 ^ 64) (hn : n < 2 ^ 64) {k : Int}
    (h : toSizeT ((m : Int) + k) = toSizeT ((n : Int) + k)) : m = n := by
  unfold toSizeT at h
  omega

/-- What was parsed is a part of what is decided. -/
lemma cmdType_resolved (qr : QueryRequest) (body : List UInt8) :
    (qr.resolved body).cmdType = qr.cmdType ∧ (qr.resolved body).key = qr.key ∧
      (qr.resolved body).flag = qr.flag ∧ (qr.resolved body).exptime = qr.exptime := by
  unfold QueryRequest.resolved
  split
  · split <;> exact ⟨rfl, rfl, rfl, rfl⟩
  · exact ⟨rfl, rfl, rfl, rfl⟩

/-- Just the requests that have not been accepted are refused. -/
lemma refused_resolved (qr : QueryRequest) (body : List UInt8) :
    (qr.resolved body).decision = .refused ↔ qr.parseStatus ≠ .succ := by
  unfold QueryRequest.resolved
  split
  · rename_i hsucc
    refine iff_of_false ?_ (not_not.2 hsucc)
    split
    · simp only [RequestTag.receiving]
      split_ifs <;> simp
    · simp [RequestTag.bodiless]
    · simp [RequestTag.bodiless]
    · simp [RequestTag.bodiless]
  · rename_i hne
    exact iff_of_true rfl hne

/-- Set requests about which the same is decided. -/
lemma receiving_inj {tag : RequestTag} {size size' : ℕ}
    (h : tag.receiving size body = tag.receiving size' body') : size = size' ∧ body = body' := by
  obtain rfl : body = body' := Option.some.inj (congrArg RequestOutcome.body h)
  have hdecision := congrArg RequestOutcome.decision h
  have hsize := congrArg RequestOutcome.dataSize h
  simp only [RequestTag.receiving] at hdecision hsize
  refine ⟨?_, rfl⟩
  split_ifs at hdecision hsize with h₁ h₂ h₂
  all_goals omega

/-- Two requests about which the same is decided are parsed alike. -/
lemma tag_of_resolved (h : qr.Judged) (h' : qr'.Judged)
    (heq : qr.resolved body = qr'.resolved body') : qr.tag = qr'.tag := by
  obtain ⟨hcmd, hkey, hflag, hexptime⟩ := cmdType_resolved qr body
  obtain ⟨hcmd', hkey', hflag', hexptime'⟩ := cmdType_resolved qr' body'
  have hrefused := refused_resolved qr body
  rw [heq] at hcmd hkey hflag hexptime hrefused
  have hstatus : qr.parseStatus = qr'.parseStatus := by
    have hiff := hrefused.symm.trans (refused_resolved qr' body')
    rcases h.parseStatus with hs | hs <;> rcases h'.parseStatus with hs' | hs' <;>
      simp [hs, hs'] at hiff ⊢
  simp only [QueryRequest.tag, ← hcmd, ← hcmd', ← hkey, ← hkey', ← hflag, ← hflag', ← hexptime,
    ← hexptime', hstatus]

/-- When the same is decided about two requests. -/
lemma resolved_eq_iff (h : qr.Judged) (h' : qr'.Judged) :
    qr.resolved body = qr'.resolved body' ↔ Alike qr qr' body body' := by
  constructor
  · intro heq
    have htag := tag_of_resolved h h' heq
    have hstatus : qr.parseStatus = qr'.parseStatus := congrArg RequestTag.parseStatus htag
    have hcmd : qr.cmdType = qr'.cmdType := congrArg RequestTag.cmdType htag
    have hsize := congrArg RequestOutcome.dataSize heq
    have hother : qr.cmdType ≠ .set → qr.dataSize = qr'.dataSize → Alike qr qr' body body' :=
      fun hne hsize => ⟨htag, hsize, fun _ hset => absurd hset hne⟩
    by_cases hsucc : qr.parseStatus = .succ
    · have hsucc' : qr'.parseStatus = .succ := hstatus ▸ hsucc
      simp only [QueryRequest.resolved, if_pos hsucc, if_pos hsucc', ← hcmd] at heq hsize
      cases hc : qr.cmdType with
      | unknown => exact absurd hc (h.known hsucc)
      | set =>
        simp only [hc, htag] at heq
        obtain ⟨hbody, hbytes⟩ := receiving_inj heq
        exact ⟨htag, toSizeT_add_inj h.dataSize h'.dataSize hbody, fun _ _ => hbytes⟩
      | get =>
        simp only [hc, RequestTag.bodiless, sub_eq_add_neg] at hsize
        exact hother (by simp [hc]) (toSizeT_add_inj h.dataSize h'.dataSize hsize)
      | delete =>
        simp only [hc, RequestTag.bodiless, sub_eq_add_neg] at hsize
        exact hother (by simp [hc]) (toSizeT_add_inj h.dataSize h'.dataSize hsize)
      | sync =>
        simp only [hc, RequestTag.bodiless] at hsize
        exact hother (by simp [hc]) hsize
      | power =>
        simp only [hc, RequestTag.bodiless] at hsize
        exact hother (by simp [hc]) hsize
    · have hne : ¬ qr'.parseStatus = .succ := hstatus ▸ hsucc
      simp only [QueryRequest.resolved, if_neg hsucc, if_neg hne, RequestTag.bodiless] at hsize
      exact ⟨htag, hsize, fun hsucc' => absurd hsucc' hsucc⟩
  · intro halike
    have hstatus : qr.parseStatus = qr'.parseStatus := congrArg RequestTag.parseStatus halike.tag
    have hcmd : qr.cmdType = qr'.cmdType := congrArg RequestTag.cmdType halike.tag
    have hbody : qr.bodySize = qr'.bodySize := by
      rw [QueryRequest.bodySize, halike.dataSize, QueryRequest.bodySize]
    by_cases hset : qr.parseStatus = .succ ∧ qr.cmdType = .set
    · obtain rfl : body = body' := halike.body hset.1 hset.2
      simp only [QueryRequest.resolved, halike.tag, halike.dataSize, hstatus, hcmd, hbody]
    · have hset' : ¬ (qr'.parseStatus = .succ ∧ qr'.cmdType = .set) := hstatus ▸ hcmd ▸ hset
      simp only [QueryRequest.resolved, halike.tag, halike.dataSize, hstatus, hcmd]
      split
      · rename_i hsucc
        split
        · rename_i hc
          exact absurd ⟨hsucc, hc⟩ hset'
        · rfl
        · rfl
        · rfl
      · rfl

/-- The same if there may be no memory. -/
lemma decided_eq_iff (h : qr.Judged) (h' : qr'.Judged) :
    qr.decided slabAlloc body = qr'.decided slabAlloc body' ↔
      (qr.Starved slabAlloc ∧ qr'.Starved slabAlloc) ∨ Alike qr qr' body body' := by
  have hstarved : Alike qr qr' body body' →
      (qr.Starved slabAlloc ↔ qr'.Starved slabAlloc) := by
    intro halike
    have hstatus : qr.parseStatus = qr'.parseStatus := congrArg RequestTag.parseStatus halike.tag
    have hcmd : qr.cmdType = qr'.cmdType := congrArg RequestTag.cmdType halike.tag
    simp only [QueryRequest.Starved, QueryRequest.bodySize, hstatus, hcmd, halike.dataSize]
  unfold QueryRequest.decided
  by_cases hs : qr.Starved slabAlloc <;> by_cases hs' : qr'.Starved slabAlloc
  · simp [hs, hs']
  · simp only [if_pos hs, if_neg hs', reduceCtorEq, false_iff]
    rintro (⟨-, h₂⟩ | halike)
    · exact hs' h₂
    · exact hs' ((hstarved halike).1 hs)
  · simp only [if_neg hs, if_pos hs', reduceCtorEq, false_iff]
    rintro (⟨h₁, -⟩ | halike)
    · exact hs h₁
    · exact hs ((hstarved halike).2 hs')
  · rw [if_neg hs, if_neg hs', Option.some_inj, resolved_eq_iff h h']
    exact (or_iff_right fun hboth => hs hboth.1).symm

end Comparing

/-! ## Heads in pieces -/

/-- The head that the reads bring into the buffer is that of the request which has the head `s`, and
what they bring behind it are the bytes `d`.  Two set requests for which there is no memory need not
be the same. -/
def Regathered (slabAlloc : ℕ → Option (ℕ → UInt8)) (s d : List UInt8) (reads : List ReadResult) :
    Prop :=
  ∃ g, gatherHead reads = some g ∧
    ((g.parsed.2.Starved slabAlloc ∧
      (parseMemcachedStringHead (headRequest s d)).2.Starved slabAlloc) ∨
    Alike g.parsed.2 (parseMemcachedStringHead (headRequest s d)).2
      (collect g.parsed.2.bodySize g.behind g.rest) d)

section Segmentation

variable {slabAlloc : ℕ → Option (ℕ → UInt8)} {s d head : List UInt8} {reads : List ReadResult}

lemma delivers_of_splits (h : Splits d head reads) : ∀ read ∈ reads, read.Delivers := by
  induction h with
  | last hp => simp [ReadResult.Delivers, hp]
  | piece hp n h ih =>
    intro read hread
    simp only [List.mem_cons, List.mem_append, List.mem_replicate] at hread
    rcases hread with rfl | ⟨-, rfl⟩ | hread
    · exact hp
    · exact Errno.noConfusion
    · exact ih read hread

/-- Nothing is decided about a request that nobody hears of. -/
lemma Conn.Unheard.outcome_ne {c : Conn} (h : c.Unheard) {qr : QueryRequest} (hqr : qr.Judged)
    (body : List UInt8) : c.outcome ≠ qr.decided slabAlloc body := by
  obtain ⟨t, hc, hcmd⟩ := h
  obtain ⟨decision, hout, hdecision⟩ : ∃ decision, c.outcome = some (t.outcome decision) ∧
      decision ≠ .refused := by
    rcases hc with rfl | rfl | rfl
    · exact ⟨.waiting, rfl, by decide⟩
    · exact ⟨.waiting, rfl, by decide⟩
    · exact ⟨.destroyed, rfl, by decide⟩
  rw [hout, QueryRequest.decided]
  split
  · simp
  · intro heq
    have heq' : t.outcome decision = qr.resolved body := Option.some.inj heq
    have hunknown : qr.cmdType = .unknown := by
      rw [← (cmdType_resolved qr body).1, ← heq']
      exact hcmd
    have hfailed : qr.parseStatus ≠ .succ := fun hsucc => hqr.known hsucc hunknown
    have hrefused := (refused_resolved qr body).2 hfailed
    rw [← heq'] at hrefused
    exact hdecision hrefused

lemma judged_headRequest (s d : List UInt8) :
    (parseMemcachedStringHead (headRequest s d)).2.Judged :=
  judged_parse (show 0 < 2 ^ 64 by decide)

lemma judged_parsed (g : FoundHead) : g.parsed.2.Judged :=
  judged_parse (show 0 < 2 ^ 64 by decide)

/-- The head of a request that arrives with one read. -/
lemma regathered_one (slabAlloc : ℕ → Option (ℕ → UInt8)) (hs : IsHead s)
    (hlen : (s ++ (mcTermStr ++ d)).length ≤ maxQueryHeaderSize) :
    Regathered slabAlloc s d [.ok (s ++ (mcTermStr ++ d))] :=
  ⟨_, gatherHead_first hs hlen [], Or.inr ⟨rfl, rfl, fun _ _ => behindHead_first hlen⟩⟩

/-- What is decided about it. -/
lemma outcome_of_one (slabAlloc : ℕ → Option (ℕ → UInt8)) (hs : IsHead s)
    (hlen : (s ++ (mcTermStr ++ d)).length ≤ maxQueryHeaderSize) :
    (Conn.serve slabAlloc (.watched acceptedTask) [.ok (s ++ (mcTermStr ++ d))]).outcome =
      (parseMemcachedStringHead (headRequest s d)).2.decided slabAlloc d := by
  obtain ⟨g, hg, hsame⟩ := regathered_one slabAlloc hs hlen
  have hrest : g.rest = [] := by
    rw [gatherHead_first hs hlen []] at hg
    rw [← Option.some.inj hg]
  rw [outcome_of_gather hg (by simp [hrest])]
  exact (decided_eq_iff (judged_parsed g) (judged_headRequest s d)).2 hsame

end Segmentation

/-- A get request. -/
def getHead : List UInt8 := ascii ['g', 'e', 't', ' ', 'a']

lemma isHead_getHead : IsHead getHead := ⟨by decide, by decide, by decide⟩

/-- Its head in two pieces. -/
def getPieces : List ReadResult :=
  [.ok (ascii ['g', 'e', 't', ' ']), .ok (ascii ['a'] ++ mcTermStr)]

lemma splits_getPieces : Splits [] (getHead ++ mcTermStr) getPieces := by
  have hpiece : Splits [] (ascii ['g', 'e', 't', ' '] ++ (ascii ['a'] ++ mcTermStr)) getPieces :=
    .piece (by decide) 0 (.last (by decide))
  exact hpiece

end Linglongta
