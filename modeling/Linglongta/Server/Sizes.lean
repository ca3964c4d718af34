import Linglongta.Server.Gathering

/-!
# Sizes of set requests

The bytes token of a set head is any text, and what `atol` gives for it is converted to a `size_t`,
increased by two for the line end, compared through a `ssize_t` and decreased by two again.
`-1` and `-2` become small buffer sizes, and then the largest sizes there are.  `have_read` counts
every byte that has been read, also one that another read has been put over, so what stands behind
the head in the buffer need not be a part of the body.

`set_sizes_exact_iff` says that the sizes are exact unless one of the two happens.
-/

namespace Linglongta

open CString

/-! ## Arrivals that dispatch a task -/

/-- The task is dispatched by these reads, and not before the last one. -/
def DispatchedBy (slabAlloc : ℕ → Option (ℕ → UInt8)) (reads : List ReadResult) (t : QueryTask) :
    Prop :=
  Conn.serve slabAlloc (.watched acceptedTask) reads = .dispatched t ∧
    ∀ reads', reads' <+: reads → reads' ≠ reads →
      ∀ t', Conn.serve slabAlloc (.watched acceptedTask) reads' ≠ .dispatched t'

/-- `handle_request` passes the size to `update_block`: a set request that has been accepted. -/
def QueryTask.Updates (t : QueryTask) : Prop :=
  t.queryRequest.parseStatus = .succ ∧ t.queryRequest.cmdType = .set

/-- Sizes beyond `PTRDIFF_MAX` are refused by `malloc`.  `slab_alloc` adds the size of its header,
which has fewer than 64 bytes, so nothing is said about sizes so close to the largest `size_t`. -/
def MallocLimit (slabAlloc : ℕ → Option (ℕ → UInt8)) : Prop :=
  ∀ n, 2 ^ 63 ≤ n → n < 2 ^ 64 - 64 → slabAlloc n = none

/-- The size of a task that has been dispatched is the declared one, which is not negative, it is
that of the body that has arrived behind the head `s` without its line end, and neither the addition
nor the subtraction of two has wrapped around. -/
structure SizesExact (s : List UInt8) (v : Int) (reads : List ReadResult) (t : QueryTask) :
    Prop where
  /-- The size is what `atol` gives. -/
  dataSize : (t.queryRequest.dataSize : Int) = v
  /-- This is not negative. -/
  nonneg : 0 ≤ v
  /-- The body that has arrived has two more bytes. -/
  body : ∃ body, s ++ mcTermStr ++ body = arrivedBytes reads ∧
    body.length = t.queryRequest.dataSize + 2
  /-- The addition has not wrapped around. -/
  add : toSizeT v + 2 < 2 ^ 64
  /-- The subtraction has not wrapped around. -/
  sub : 2 ≤ declaredSize v

/-- The head that the reads bring into the buffer ends where `s` ends, and declares the size `v`. -/
def HeadKept (s : List UInt8) (v : Int) (reads : List ReadResult) : Prop :=
  ∃ g, gatherHead reads = some g ∧ g.lineEnd = s.length ∧ g.parsed.2.dataSize = toSizeT v

-- A set request behind two spaces that came alone: the line end stands two bytes too early.
example : (gatherHead [.ok [space, space], .ok (setFive ++ mcTermStr)]).map FoundHead.lineEnd =
    some setFive.length := by
  decide +kernel

section Found

variable {slabAlloc : ℕ → Option (ℕ → UInt8)} {reads rest : List ReadResult} {t : QueryTask}
variable {g : FoundHead}

/-- A request that is not a set request is dispatched as what it is. -/
lemma tag_of_other {r : Int × QueryRequest} {tmpBuf : List UInt8} {t₀ : QueryTask}
    (hlog : t₀.errorLog = none)
    (hother : ¬ (r.1 = 0 ∧ r.2.parseStatus = .succ ∧ r.2.cmdType = .set))
    (hdisp : Conn.serve slabAlloc (Conn.settle slabAlloc 2 (Conn.ofResult
      (actOnRequest slabAlloc tmpBuf r t₀))) rest = .dispatched t) :
    t.queryRequest.parseStatus = r.2.parseStatus ∧ t.queryRequest.cmdType = r.2.cmdType := by
  obtain ⟨t', hact, hacted⟩ := actOnRequest_other slabAlloc tmpBuf hlog hother
  rw [hact, Conn.ofResult] at hdisp
  have hsame : t' = t → t.queryRequest.parseStatus = r.2.parseStatus ∧
      t.queryRequest.cmdType = r.2.cmdType := by
    rintro rfl
    exact ⟨hacted.parseStatus, hacted.cmdType⟩
  rcases hacted.state with ⟨-, -, hstate | hstate | hstate⟩ | ⟨-, -, hstate⟩ | ⟨-, -, hstate⟩
  · rw [Conn.settle_dispatch _ 1 hstate, Conn.serve_dispatched] at hdisp
    exact hsame (by simpa using hdisp)
  · rw [Conn.settle_doSync _ 0 hstate, Conn.serve_destroyed] at hdisp
    cases hdisp
  · rw [Conn.settle_doPower _ 1 hstate, Conn.serve_exited] at hdisp
    cases hdisp
  · rw [Conn.settle_returnFailed _ 1 hstate, Conn.serve_dispatched] at hdisp
    exact hsame (by simpa using hdisp)
  · rw [Conn.settle_destroyRecv _ 1 hstate, Conn.serve_destroyed] at hdisp
    cases hdisp

/-- A set request that is dispatched has been accepted when its head was found. -/
lemma found_of_dispatched
    (hdisp : Conn.serve slabAlloc (.watched acceptedTask) reads = .dispatched t) (ht : t.Updates) :
    ∃ g, gatherHead reads = some g ∧ g.IsSet := by
  cases hg : gatherHead reads with
  | none =>
    obtain ⟨t', hc, -⟩ := unheard_of_gather slabAlloc readsHead_accepted hg
    rw [hdisp] at hc
    rcases hc with hc | hc | hc <;> cases hc
  | some g =>
    refine ⟨g, rfl, ?_⟩
    by_contra hnot
    rw [serve_gatherHead hg] at hdisp
    obtain ⟨hstatus, hcmd⟩ := tag_of_other rfl hnot hdisp
    have hsucc : g.parsed.2.parseStatus = .succ := hstatus.symm.trans ht.1
    rcases parse_outcome ({ QueryRequest.zero with queryHeadBuf := g.buf }.terminate g.size) with
      ⟨hret, -⟩ | ⟨-, hfailed⟩
    · exact hnot ⟨hret, hsucc, hcmd.symm.trans ht.2⟩
    · rw [show g.parsed.2.parseStatus = .failed from hfailed] at hsucc
      cases hsucc

/-- A set request that is dispatched had memory for its body, which is whole. -/
lemma whole_of_found (hg : gatherHead reads = some g) (hset : g.IsSet)
    (hdisp : DispatchedBy slabAlloc reads t) :
    slabAlloc g.parsed.2.bodySize ≠ none ∧
      (g.parsed.2.bodySize : Int) < 2 ^ 63 + maxQueryHeaderSize ∧
      Whole g.parsed.2.tag g.parsed.2.bodySize (g.behind ++ arrivedBytes g.rest) t := by
  obtain ⟨hserve, hmin⟩ := hdisp
  have hsound := sound_of_gatherHead hg
  have hshort := FoundHead.length_behind_le hsound
  have hmax : (maxQueryHeaderSize : Int) = 512 := rfl
  obtain ⟨reads', hreads, -, hany⟩ := exists_of_gather hg
  -- none of the reads that are left can be spared
  have hall : ∀ rest, rest <+: g.rest → Conn.serve slabAlloc (.watched acceptedTask)
      (reads' ++ rest) = .dispatched t → rest = g.rest := by
    intro rest hpre hdisp
    by_contra hne
    refine hmin (reads' ++ rest) ?_ ?_ t hdisp
    · rw [hreads]
      exact (List.prefix_append_right_inj reads').2 hpre
    · rw [hreads]
      exact fun heq => hne (List.append_cancel_left heq)
  rw [serve_gatherHead hg] at hserve
  cases hmem : slabAlloc g.parsed.2.bodySize with
  | none =>
    rw [FoundHead.acted_null hset hmem, Conn.serve_aborted] at hserve
    cases hserve
  | some mem =>
    refine ⟨by simp, ?_⟩
    rcases FoundHead.acted_set hsound hset hmem with
      ⟨hlen, t', hc, hwhole⟩ | ⟨hmissing, hawaits⟩ | ⟨-, -, t', hc, -⟩
    · rw [hc, Conn.serve_dispatched] at hserve
      obtain rfl : t' = t := by simpa using hserve
      have hnil : [] = g.rest := by
        refine hall [] List.nil_prefix ?_
        rw [serve_gatherHead (hany [])]
        exact hc
      refine ⟨by omega, ?_⟩
      simpa [← hnil, arrivedBytes] using hwhole
    · obtain ⟨rest, hpre, hserve', hwhole⟩ := whole_of_dispatched g.rest hawaits hserve
      obtain rfl : rest = g.rest := by
        refine hall rest hpre ?_
        rw [serve_gatherHead (hany rest)]
        exact hserve'
      have hsmall := hmissing.2
      exact ⟨by omega, hwhole⟩
    · rw [hc, Conn.serve_destroyed] at hserve
      cases hserve

/-- All the bytes that have been read, when a set request is dispatched. -/
lemma length_of_found (hg : gatherHead reads = some g) {tag : RequestTag}
    (hwhole : Whole tag g.parsed.2.bodySize (g.behind ++ arrivedBytes g.rest) t) :
    (arrivedBytes reads).length = g.size + g.parsed.2.bodySize := by
  have hsound := sound_of_gatherHead hg
  obtain ⟨reads', hreads, hcount, -⟩ := exists_of_gather hg
  have hlength := hwhole.length
  have hcovered := hsound.covered
  rw [List.length_append, FoundHead.length_behind hsound] at hlength
  rw [hreads, arrivedBytes, List.flatMap_append, List.length_append]
  simp only [arrivedBytes] at hcount hlength
  omega

end Found

section Arithmetic

variable {v : Int} {size lineEnd head body : ℕ}

/-- What is subtracted has been added. -/
lemma toSizeT_add_sub (h : size < 2 ^ 64) :
    toSizeT ((toSizeT ((size : Int) + 2) : Int) - 2) = size := by
  unfold toSizeT
  omega

/-- The size is exact if it is the declared one and the head ends where it should, unless the
addition wraps around, which leaves sizes that are too large for the memory or is the case for `-1`
and `-2`. -/
lemma dispatched_size_iff (hlo : -2 ^ 63 ≤ v) (hhi : v < 2 ^ 63) (hsize : size < 2 ^ 64)
    (hsmall : toSizeT ((size : Int) + 2) < 2 ^ 63)
    (htotal : head + body = lineEnd + toSizeT ((size : Int) + 2)) :
    ((size : Int) = v ∧ 0 ≤ v ∧ body = size + 2) ↔
      v ≠ -1 ∧ v ≠ -2 ∧ lineEnd = head ∧ size = toSizeT v := by
  unfold toSizeT at hsmall htotal ⊢
  constructor
  · rintro ⟨hv, hnonneg, hbody⟩
    refine ⟨by omega, by omega, by omega, by omega⟩
  · rintro ⟨hone, htwo, hend, hv⟩
    have hnonneg : 0 ≤ v := by
      by_contra hneg
      omega
    refine ⟨by omega, hnonneg, by omega⟩

/-- For a number that is not negative nothing wraps around. -/
lemma declaredSize_of_nonneg (hv : 0 ≤ v) (hhi : v < 2 ^ 63) :
    toSizeT v + 2 < 2 ^ 64 ∧ 2 ≤ declaredSize v := by
  simp only [declaredSize, toSizeT]
  omega

end Arithmetic

section First

variable {s d : List UInt8} {v : Int} {slabAlloc : ℕ → Option (ℕ → UInt8)}

/-- A head that arrives whole with the first read is kept. -/
lemma SetHead.headKept (h : SetHead s v)
    (hlen : (s ++ (mcTermStr ++ d)).length ≤ maxQueryHeaderSize) (reads : List ReadResult) :
    HeadKept s v (.ok (s ++ (mcTermStr ++ d)) :: reads) := by
  obtain ⟨qr, hparse, -, -, hsize, -⟩ := h.parse hlen
  refine ⟨_, gatherHead_first h.toIsHead hlen reads, rfl, ?_⟩
  rw [← hsize, ← show (parseMemcachedStringHead (headRequest s d)).2 = qr by rw [hparse]]
  rfl

/-- So is a set request that arrives whole with the first read. -/
lemma SetHead.dispatched (slabAlloc : ℕ → Option (ℕ → UInt8)) (h : SetHead s v)
    (hlen : (s ++ (mcTermStr ++ d)).length ≤ maxQueryHeaderSize)
    (hmem : slabAlloc (declaredSize v) ≠ none) (hall : d.length = declaredSize v) :
    ∃ t, DispatchedBy slabAlloc [.ok (s ++ (mcTermStr ++ d))] t ∧ t.Updates := by
  obtain ⟨mem, hmem⟩ := Option.ne_none_iff_exists'.1 hmem
  obtain ⟨qr, hparse, hsucc, hset, -⟩ := h.parse hlen
  rcases h.feed_cases hlen hmem rfl with ⟨-, t, hfeed, hwhole⟩ | ⟨hmissing, -⟩ | ⟨hne, -⟩
  · have htag : t.queryRequest.tag = qr.tag := by
      rw [hwhole.tag, hparse]
    refine ⟨t, ⟨hfeed, fun reads' hpre hne => ?_⟩, ?_, ?_⟩
    · obtain rfl : reads' = [] := by
        rcases List.prefix_cons_iff.1 hpre with hnil | ⟨r, rfl, hr⟩
        · exact hnil
        · rw [List.prefix_nil.1 hr] at hne
          exact absurd rfl hne
      simp
    · exact (congrArg RequestTag.parseStatus htag).trans hsucc
    · exact (congrArg RequestTag.cmdType htag).trans hset
  · exact absurd hall hmissing.1.ne
  · exact absurd hall hne

end First

/-- There is memory of any size that `malloc` can return. -/
def limitedMemory : ℕ → Option (ℕ → UInt8) :=
  fun n => if n < 2 ^ 63 then some fun _ => 0 else none

lemma mallocLimit_limitedMemory : MallocLimit limitedMemory :=
  fun _ hn _ => if_neg (Nat.not_lt.2 hn)

/-- A set request with five bytes that arrives with one read. -/
def setFiveRead : List ReadResult :=
  [.ok (setFive ++ (mcTermStr ++ (ascii ['h', 'e', 'l', 'l', 'o'] ++ mcTermStr)))]

/-- A set request that declares `-2` bytes. -/
def setMinusTwo : List UInt8 := ascii ['s', 'e', 't', ' ', 'a', ' ', '0', ' ', '0', ' ', '-', '2']

lemma setHead_setMinusTwo : SetHead setMinusTwo (-2) where
  noNul := by decide
  noTerm := by decide
  short := by decide
  accepted := by decide +kernel
  isSet := by decide +kernel
  declared := ⟨ascii ['-', '2'], by decide, by decide⟩

end Linglongta
