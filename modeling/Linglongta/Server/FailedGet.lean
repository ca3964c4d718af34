import Linglongta.Server.QueryThread
import Linglongta.Storage.Sessions

/-!
# Get requests that fail

`find_block` sets `*value_len` before it asks for memory and `*value_ptr` before it reads, and
returns early when one of these fails.  `build_response` asserts that a failed get carries no data.
`failed_get_clean_iff` says when both go together: unless the key has a record and there is no
memory for it, or its bytes cannot be read completely.
-/

namespace Linglongta

open Prog

/-- The key has a record, and it cannot be read: there is no memory for its bytes, or the `pread`
does not return all of them. -/
def RecordUnread (f : Faults) (w : World) (key : List UInt8) : Prop :=
  ∃ iv, w.findRecord f.findRecord (fixedKey key) = .ok iv ∧
    ((f.slabAlloc = false ∧ iv.dataSize ≠ 0) ∨
      (f.slabAlloc = true ∧
        (w.pread f.pread iv.blockId iv.offset iv.dataSize).map List.length ≠ some iv.dataSize))

/-- A `find_block` that fails leaves `*value_ptr` and `*value_len` zeroed. -/
def FindFailsClean (f : Faults) (key : List UInt8) (h : Held store) (w : World) : Prop :=
  ∀ r h' w', exec (handle f) (findBlock key) h w = .returned r h' w' → r.ret ≠ 0 →
    r.valuePtr = none ∧ r.valueLen = 0

/-- A get request as a worker finds it in its pipe. -/
structure IsGet (key : List UInt8) (t : QueryTask) : Prop where
  /-- It has been parsed. -/
  parseStatus : t.queryRequest.parseStatus = .succ
  /-- It is a get request. -/
  cmdType : t.queryRequest.cmdType = .get
  /-- It is about this key. -/
  key : t.queryRequest.key = key
  /-- Nothing has been logged. -/
  errorLog : t.errorLog = none
  /-- There is no response yet. -/
  queryResponse : t.queryResponse = .zero

/-- No assertion on `resp_data_size` or `resp_data_buf` fails when the task is handled, whether or not
there is memory for an error log. -/
def RespDataAssertsHold (f : Faults) (h : Held store) (w : World) (t : QueryTask) : Prop :=
  ∀ logMem r h' w', exec (handle f) (handleRequest Call.prog t logMem) h w = .returned r h' w' →
    r ≠ .error .respData

section FailedGet

variable {f : Faults} {w : World} {h : Held store} {key : List UInt8} {t : QueryTask}
variable {logMem : Bool}

/-- What `find_block` answers. -/
lemma exec_findBlock_reply (hh : OnlyLeaked h) (key : List UInt8) :
    ∃ r h', exec (handle f) (findBlock key) h w = .returned r h' w ∧
      (RecordUnread f w key ↔ r.ret ≠ 0 ∧ ¬ (r.valuePtr = none ∧ r.valueLen = 0)) := by
  cases hmem : f.slabAlloc with
  | true =>
    refine ⟨_, h, exec_findBlock hh.fileFree key hh.admits_sh hmem, ?_⟩
    unfold RecordUnread World.findReply
    cases hfault : f.findRecord with
    | some e => simp [findRecord_of_fault]
    | none =>
      cases hk : w.index (fixedKey key) with
      | none => simp [findRecord_of_none hk]
      | some iv => simp [findRecord_of_some hk, hmem]
  | false =>
    cases hfind : w.findRecord f.findRecord (fixedKey key) with
    | error e =>
      refine ⟨{ ret := e }, h, by simp [findBlock, hh.admits_sh, hfind], ?_⟩
      simp [RecordUnread, hfind]
    | ok iv =>
      refine ⟨{ ret := -1, valueLen := iv.dataSize }, (StoreLock.index, .sh) :: h, ?_, ?_⟩
      · simp [findBlock, hh.admits_sh, hfind, hmem]
      · simp [RecordUnread, hfind, hmem]

/-- The response to a get request, given the reply of the storage. -/
lemma finish_get_respData_iff (ht : IsGet key t) (r : Reply) :
    finishRequest r.ret .getSuccess .getFailed { t with
        queryResponse := { t.queryResponse with
          respDataBuf := r.valuePtr, respDataSize := r.valueLen } } logMem = .error .respData ↔
      logMem = true ∧ r.ret ≠ 0 ∧ ¬ (r.valuePtr = none ∧ r.valueLen = 0) := by
  by_cases hret : r.ret = 0
  · rw [hret, finishRequest_get]
    simp
  · cases logMem with
    | true =>
      rw [finishRequest_failure .get hret (by exact ht.errorLog)]
      by_cases hempty : r.valuePtr = none ∧ r.valueLen = 0
      · simp [QueryResponse.Empty, hempty]
      · simp [QueryResponse.Empty, hempty, hret]
    | false =>
      rw [finishRequest_null .get hret (by exact ht.errorLog)]
      simp

/-- What `handle_request` does with a get request. -/
lemma exec_handleRequest_get (ht : IsGet key t) {r : Reply} {h' : Held store} {w' : World}
    (hfind : exec (handle f) (findBlock key) h w = .returned r h' w') :
    exec (handle f) (handleRequest Call.prog t logMem) h w =
      .returned (finishRequest r.ret .getSuccess .getFailed { t with
        queryResponse := { t.queryResponse with
          respDataBuf := r.valuePtr, respDataSize := r.valueLen } } logMem) h' w' := by
  have hbuf : ¬ t.queryResponse.respDataBuf ≠ none := by simp [ht.queryResponse, QueryResponse.zero]
  have hparse : ¬ t.queryRequest.parseStatus ≠ .succ := not_not.2 ht.parseStatus
  unfold handleRequest
  rw [if_neg hparse, ht.cmdType]
  simp only [if_neg hbuf, ht.key, Call.prog]
  rw [exec_bind (I := store), hfind]
  rfl

/-- A failed get carries no data.  For every store, every key and every answer of the system,
`find_block` leaves its outputs zeroed when it fails, and no assertion on the response data fails
when a get request is handled, if and only if it is not the case that the key has a record which
cannot be read, for lack of memory or because `pread` returns less than the record. -/
theorem failed_get_clean_iff (f : Faults) (w : World) {h : Held store} (hh : OnlyLeaked h)
    {key : List UInt8} {t : QueryTask} (ht : IsGet key t) :
    FindFailsClean f key h w ∧ RespDataAssertsHold f h w t ↔ ¬ RecordUnread f w key := by
  obtain ⟨r, h', hexec, hiff⟩ := exec_findBlock_reply (f := f) (w := w) hh key
  constructor
  · rintro ⟨hclean, -⟩ hunread
    obtain ⟨hret, hdata⟩ := hiff.1 hunread
    exact hdata (hclean r h' w hexec hret)
  · intro hread
    have hclean : r.ret ≠ 0 → r.valuePtr = none ∧ r.valueLen = 0 := by
      intro hret
      by_contra hdata
      exact hread (hiff.2 ⟨hret, hdata⟩)
    constructor
    · intro r₁ h₁ w₁ hexec₁ hret
      rw [hexec] at hexec₁
      cases hexec₁
      exact hclean hret
    · intro logMem r₁ h₁ w₁ hexec₁
      rw [exec_handleRequest_get ht hexec] at hexec₁
      cases hexec₁
      rw [Ne, finish_get_respData_iff ht]
      rintro ⟨-, hret, hdata⟩
      exact hdata (hclean hret)

end FailedGet

/-- A get request for a key, as it is dispatched. -/
def getTask (key : List UInt8) : QueryTask where
  errorLog := none
  state := .dispatchQueryTask
  haveRead := 0
  needRead := 0
  queryRequest := { QueryRequest.zero with parseStatus := .succ, cmdType := .get, key := key }
  queryResponse := .zero

lemma isGet_getTask (key : List UInt8) : IsGet key (getTask key) :=
  ⟨rfl, rfl, rfl, rfl, rfl⟩

theorem failed_get_clean_no_record :
    FindFailsClean {} [1] [] World.empty ∧ RespDataAssertsHold {} [] World.empty (getTask [1]) := by
  refine (failed_get_clean_iff {} World.empty (fun x hx => by simp at hx) (isGet_getTask [1])).2 ?_
  rintro ⟨iv, hfind, -⟩
  simp [World.findRecord, World.empty] at hfind

/-- Without memory, a get of a record that is there fails with a length, and the server stops at an
assertion on the response data. -/
theorem failed_get_no_memory :
    ∃ w₁ w₂, openStorage {} 1024 World.empty = ⟨0, some ⟨true, true, true⟩, w₁⟩ ∧
      exec (handle noFaults) (Call.update [1] [2]).prog [] w₁ = .returned { ret := 0 } [] w₂ ∧
      ¬ FindFailsClean { slabAlloc := false } [1] [] w₂ ∧
      ¬ RespDataAssertsHold { slabAlloc := false } [] w₂ (getTask [1]) := by
  obtain ⟨w, hopen, hl, hcfg, hindex, -⟩ := exists_small_store
  have hk : (w.appended noFaults 0 (fixedKey [1]) [2]).index (fixedKey [1]) =
      some (w.appendedValue 0 [2]) := by
    simp [noFaults]
  have hunread : RecordUnread { slabAlloc := false } (w.appended noFaults 0 (fixedKey [1]) [2]) [1] :=
    ⟨_, findRecord_of_some hk, Or.inl ⟨rfl, by simp [World.appendedValue]⟩⟩
  have hheld : OnlyLeaked [] := fun x hx => by simp at hx
  obtain ⟨r, h', hexec, hiff⟩ := exec_findBlock_reply hheld [1]
  obtain ⟨hret, hdata⟩ := hiff.1 hunread
  refine ⟨w, _, hopen, small_update hl hcfg hindex [1], fun hclean => ?_, fun hassert => ?_⟩
  · exact hdata (hclean r h' _ hexec hret)
  · refine hassert true _ _ _ (exec_handleRequest_get (isGet_getTask [1]) hexec) ?_
    exact (finish_get_respData_iff (isGet_getTask [1]) r).2 ⟨rfl, hret, hdata⟩

end Linglongta
