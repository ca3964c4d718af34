import Linglongta.Foundations.CString
import Linglongta.Storage.Operations

/-!
# The memcached string protocol

`memcached_protocol.c`: a request starts with a head of at most `MAX_QUERY_HEADER_SIZE` bytes that
ends with CRLF, and `parse_memcached_string_head` reads the command and its arguments from it into
the fields of the request.  A key is a C string here: what stands in the array of `MAX_KEY_SIZE`
bytes before the first zero byte.

`ScanKey` looks at the byte before the line end to cut off one space.  If nothing stands before the
line end, this byte is one before the string: a space that has been skipped, or the zero byte that
`strtok_r` has put in place of a space.  `scanKey` follows both cases.

`setHead_of_parse` and `parse_of_setHead` say what the heads of set requests are.
-/

namespace Linglongta

open CString

/-- `MAX_KEY_SIZE`. -/
def maxKeySize : ℕ := 251

/-- `MAX_QUERY_HEADER_SIZE`. -/
def maxQueryHeaderSize : ℕ := 512

/-- `MC_TERM_STR`. -/
def mcTermStr : List UInt8 := [13, 10]

/-- The byte between the arguments of a command. -/
def space : UInt8 := 32

/-- `enum cmd_type_e`. -/
inductive CmdType
  /-- `cmd_unknown`. -/
  | unknown
  /-- `cmd_set`. -/
  | set
  /-- `cmd_get`. -/
  | get
  /-- `cmd_delete`. -/
  | delete
  /-- `cmd_sync`. -/
  | sync
  /-- `cmd_power`. -/
  | power
deriving DecidableEq

/-- `enum parse_status_e`. -/
inductive ParseStatus
  /-- `ps_unknown`. -/
  | unknown
  /-- `ps_succ`. -/
  | succ
  /-- `ps_failed`. -/
  | failed
deriving DecidableEq

/-- `struct query_request_s`. -/
structure QueryRequest where
  /-- `query_head_buf`. -/
  queryHeadBuf : Blob maxQueryHeaderSize
  /-- `query_head_buf_size`. -/
  queryHeadBufSize : ℕ
  /-- `data`, none for `NULL`. -/
  data : Option Buffer
  /-- `data_size`. -/
  dataSize : ℕ
  /-- `cmd_type`. -/
  cmdType : CmdType
  /-- `parse_status`. -/
  parseStatus : ParseStatus
  /-- `flag`. -/
  flag : Int
  /-- `exptime`. -/
  exptime : Int
  /-- `key`. -/
  key : List UInt8

/-- A zeroed request. -/
def QueryRequest.zero : QueryRequest where
  queryHeadBuf := Blob.copy maxQueryHeaderSize []
  queryHeadBufSize := 0
  data := none
  dataSize := 0
  cmdType := .unknown
  parseStatus := .unknown
  flag := 0
  exptime := 0
  key := []

/-! ## Arguments -/

/-- `ScanKey`: the key, none if the string does not end with CRLF. -/
def scanKey (saveptr : List UInt8) : Option (List UInt8) :=
  let s := saveptr.dropWhile (· == space)
  if mcTermStr <:+ s then
    let key := s.take (s.length - mcTermStr.length)
    if key = [] then
      -- the byte before the string is looked at, and overwritten if it is a space
      some (if s.length < saveptr.length then mcTermStr else [])
    else
      some ((if key.getLast? = some space then key.dropLast else key).take (maxKeySize - 1))
  else none

/-- A command with a key as its argument. -/
def parseKeyCmd (accepts : List UInt8 → Bool) (saveptr : List UInt8) (qr : QueryRequest) :
    Bool × QueryRequest :=
  match scanKey saveptr with
  | some key => (accepts key, { qr with key := key })
  | none => (false, qr)

/-- `parse_power_cmd`. -/
def parsePowerCmd : List UInt8 → QueryRequest → Bool × QueryRequest :=
  parseKeyCmd fun key => strcaseEq key (ascii ['h', 'a', 'l', 't'])

/-- `parse_sync_cmd`. -/
def parseSyncCmd : List UInt8 → QueryRequest → Bool × QueryRequest :=
  parseKeyCmd fun key => strcaseEq key (ascii ['i', 'n', 'd', 'e', 'x']) ||
    strcaseEq key (ascii ['a', 'l', 'l'])

/-- `parse_get_cmd`. -/
def parseGetCmd : List UInt8 → QueryRequest → Bool × QueryRequest :=
  parseKeyCmd fun _ => true

/-- `parse_delete_cmd`. -/
def parseDeleteCmd : List UInt8 → QueryRequest → Bool × QueryRequest :=
  parseKeyCmd fun _ => true

/-- The states `s_set_flag` to `s_set_done` of `parse_set_cmd`. -/
def parseSetNumbers (saveptr : List UInt8) (qr : QueryRequest) : Bool × QueryRequest :=
  match strtok space saveptr with
  | none => (false, qr)
  | some (token, saveptr) =>
    let qr := { qr with flag := atoi token }
    match strtok space saveptr with
    | none => (false, qr)
    | some (token, saveptr) =>
      let qr := { qr with exptime := atoi token }
      match strtok space saveptr with
      | none => (false, qr)
      | some (token, _) => (true, { qr with dataSize := toSizeT (atol token) })

/-- `parse_set_cmd`. -/
def parseSetCmd (saveptr : List UInt8) (qr : QueryRequest) : Bool × QueryRequest :=
  if mcTermStr <:+ saveptr then
    match strtok space (saveptr.take (saveptr.length - mcTermStr.length)) with
    | none => (false, qr)
    | some (token, saveptr) =>
      if maxKeySize ≤ token.length then (false, qr)
      else parseSetNumbers saveptr { qr with key := token }
  else (false, qr)

/-! ## Heads -/

/-- `RET_PARSE_REQ_FAILED`. -/
def retParseReqFailed : Int := 2

lemma retParseReqFailed_ne_zero : retParseReqFailed ≠ 0 := by decide

/-- `HandleCmd`: the return code and the request. -/
def handleCmd (type : CmdType) (r : Bool × QueryRequest) : Int × QueryRequest :=
  if r.1 then (0, { r.2 with cmdType := type, parseStatus := .succ })
  else (retParseReqFailed, { r.2 with cmdType := type, parseStatus := .failed })

@[simp] lemma cmdType_handleCmd (type : CmdType) (r : Bool × QueryRequest) :
    (handleCmd type r).2.cmdType = type := by
  unfold handleCmd
  split <;> rfl

/-- The return code tells whether the arguments could be parsed. -/
lemma handleCmd_eq_zero_iff (type : CmdType) (r : Bool × QueryRequest) :
    (handleCmd type r).1 = 0 ↔ r.1 = true := by
  unfold handleCmd
  cases hr : r.1 with
  | true => simp
  | false => simp [retParseReqFailed]

/-- The string that `parse_memcached_string_head` works on: a copy of the head whose last byte is
overwritten. -/
def QueryRequest.head (qr : QueryRequest) : List UInt8 :=
  ofBuffer (qr.queryHeadBuf.bytes.take (maxQueryHeaderSize - 1))

/-- The state machine of `parse_memcached_string_head`, for the first token of the head. -/
def parseCmd (token saveptr : List UInt8) (qr : QueryRequest) : Int × QueryRequest :=
  if strcaseEq token (ascii ['g', 'e', 't']) then handleCmd .get (parseGetCmd saveptr qr)
  else if strcaseEq token (ascii ['s', 'e', 't']) then handleCmd .set (parseSetCmd saveptr qr)
  else if strcaseEq token (ascii ['d', 'e', 'l', 'e', 't', 'e']) then
    handleCmd .delete (parseDeleteCmd saveptr qr)
  else if strcaseEq token (ascii ['s', 'y', 'n', 'c']) then handleCmd .sync (parseSyncCmd saveptr qr)
  else if strcaseEq token (ascii ['p', 'o', 'w', 'e', 'r']) then
    handleCmd .power (parsePowerCmd saveptr qr)
  else (retParseReqFailed, { qr with parseStatus := .failed })

/-- `parse_memcached_string_head`. -/
def parseMemcachedStringHead (qr : QueryRequest) : Int × QueryRequest :=
  match strtok space qr.head with
  | none => (retParseReqFailed, { qr with cmdType := .unknown, parseStatus := .failed })
  | some (token, saveptr) => parseCmd token saveptr { qr with cmdType := .unknown }

/-- `try_parse_memcached_string_head`: the position of the line end. -/
def tryParseMemcachedStringHead (qr : QueryRequest) : Option ℕ :=
  strstr mcTermStr (ofBuffer qr.queryHeadBuf.bytes)

/-- The return code and the parse status agree, and a request that has been parsed has a command. -/
def ParseOutcome (r : Int × QueryRequest) : Prop :=
  (r.1 = 0 ∧ r.2.parseStatus = .succ ∧ r.2.cmdType ≠ .unknown) ∨
    (r.1 ≠ 0 ∧ r.2.parseStatus = .failed)

lemma handleCmd_outcome {type : CmdType} (htype : type ≠ .unknown) (r : Bool × QueryRequest) :
    ParseOutcome (handleCmd type r) := by
  unfold handleCmd
  split
  · exact Or.inl ⟨rfl, rfl, htype⟩
  · exact Or.inr ⟨retParseReqFailed_ne_zero, rfl⟩

/-- How `parse_memcached_string_head` ends. -/
lemma parse_outcome (qr : QueryRequest) : ParseOutcome (parseMemcachedStringHead qr) := by
  unfold parseMemcachedStringHead
  split
  · exact Or.inr ⟨retParseReqFailed_ne_zero, rfl⟩
  · unfold parseCmd
    split_ifs
    · exact handleCmd_outcome (by decide) _
    · exact handleCmd_outcome (by decide) _
    · exact handleCmd_outcome (by decide) _
    · exact handleCmd_outcome (by decide) _
    · exact handleCmd_outcome (by decide) _
    · exact Or.inr ⟨retParseReqFailed_ne_zero, rfl⟩

/-- What parsing a head leaves alone, and that a size is that of a `size_t`. -/
structure QueryRequest.Parsed (qr qr' : QueryRequest) : Prop where
  /-- `query_head_buf_size` is the same. -/
  queryHeadBufSize : qr'.queryHeadBufSize = qr.queryHeadBufSize
  /-- `data` is the same. -/
  data : qr'.data = qr.data
  /-- The size fits. -/
  dataSize : qr.dataSize < 2 ^ 64 → qr'.dataSize < 2 ^ 64

lemma toSizeT_lt (n : Int) : toSizeT n < 2 ^ 64 := by
  unfold toSizeT
  omega

lemma parsed_parseKeyCmd (accepts : List UInt8 → Bool) (saveptr : List UInt8) (qr : QueryRequest) :
    qr.Parsed (parseKeyCmd accepts saveptr qr).2 := by
  unfold parseKeyCmd
  split <;> exact ⟨rfl, rfl, id⟩

lemma parsed_parseSetNumbers (saveptr : List UInt8) (qr : QueryRequest) :
    qr.Parsed (parseSetNumbers saveptr qr).2 := by
  unfold parseSetNumbers
  split
  · exact ⟨rfl, rfl, id⟩
  · split
    · exact ⟨rfl, rfl, id⟩
    · split
      · exact ⟨rfl, rfl, id⟩
      · exact ⟨rfl, rfl, fun _ => toSizeT_lt _⟩

lemma parsed_parseSetCmd (saveptr : List UInt8) (qr : QueryRequest) :
    qr.Parsed (parseSetCmd saveptr qr).2 := by
  unfold parseSetCmd
  split
  · split
    · exact ⟨rfl, rfl, id⟩
    · split
      · exact ⟨rfl, rfl, id⟩
      · rename_i token saveptr' _ _
        have hnumbers := parsed_parseSetNumbers saveptr' { qr with key := token }
        exact ⟨hnumbers.queryHeadBufSize, hnumbers.data, hnumbers.dataSize⟩
  · exact ⟨rfl, rfl, id⟩

lemma QueryRequest.Parsed.handleCmd {type : CmdType} {qr : QueryRequest} {r : Bool × QueryRequest}
    (h : qr.Parsed r.2) : qr.Parsed (handleCmd type r).2 := by
  unfold Linglongta.handleCmd
  split <;> exact ⟨h.queryHeadBufSize, h.data, h.dataSize⟩

/-- What `parse_memcached_string_head` leaves alone. -/
lemma parsed_parse (qr : QueryRequest) : qr.Parsed (parseMemcachedStringHead qr).2 := by
  have hcmd : ∀ token saveptr, qr.Parsed (parseCmd token saveptr { qr with cmdType := .unknown }).2 := by
    intro token saveptr
    have htype : ∀ qr', ({ qr with cmdType := .unknown } : QueryRequest).Parsed qr' →
        qr.Parsed qr' := fun qr' h => ⟨h.queryHeadBufSize, h.data, h.dataSize⟩
    refine htype _ ?_
    unfold parseCmd
    split_ifs
    · exact (parsed_parseKeyCmd _ _ _).handleCmd
    · exact (parsed_parseSetCmd _ _).handleCmd
    · exact (parsed_parseKeyCmd _ _ _).handleCmd
    · exact (parsed_parseKeyCmd _ _ _).handleCmd
    · exact (parsed_parseKeyCmd _ _ _).handleCmd
    · exact ⟨rfl, rfl, id⟩
  unfold parseMemcachedStringHead
  split
  · exact ⟨rfl, rfl, id⟩
  · exact hcmd _ _

/-- Only the command `set` leads to `cmd_set`. -/
lemma parseCmd_of_set {token saveptr : List UInt8} {qr : QueryRequest} (hqr : qr.cmdType ≠ .set)
    (h : (parseCmd token saveptr qr).2.cmdType = .set) :
    strcaseEq token (ascii ['s', 'e', 't']) = true ∧
      parseCmd token saveptr qr = handleCmd .set (parseSetCmd saveptr qr) := by
  unfold parseCmd at h ⊢
  split_ifs at h ⊢ with hget hset hdelete hsync hpower
  · simp at h
  · exact ⟨hset, rfl⟩
  · simp at h
  · simp at h
  · simp at h
  · exact absurd h hqr

/-! ## Set requests -/

section SetHeads

variable {qr : QueryRequest} {s : List UInt8}

/-- The request after `parse_set_cmd` with these tokens. -/
def QueryRequest.withSet (qr : QueryRequest) (key flag exptime bytes : List UInt8) : QueryRequest :=
  { qr with
    key := key
    flag := atoi flag
    exptime := atoi exptime
    dataSize := toSizeT (atol bytes) }

/-- A string that ends with CRLF. -/
lemma take_termStr (s : List UInt8) :
    (s ++ mcTermStr).take ((s ++ mcTermStr).length - mcTermStr.length) = s := by
  simp

/-- The last three states of `parse_set_cmd`. -/
lemma parseSetNumbers_of_tokens {f e n : List UInt8} {ts : List (List UInt8)}
    (h : tokens space s = f :: e :: n :: ts) :
    parseSetNumbers s qr = (true,
      { qr with flag := atoi f, exptime := atoi e, dataSize := toSizeT (atol n) }) := by
  obtain ⟨s₁, hf, h₁⟩ := strtok_of_tokens h
  obtain ⟨s₂, he, h₂⟩ := strtok_of_tokens h₁
  obtain ⟨s₃, hn, -⟩ := strtok_of_tokens h₂
  simp [parseSetNumbers, hf, he, hn]

/-- The last three states of `parse_set_cmd` need three tokens. -/
lemma tokens_of_parseSetNumbers (h : (parseSetNumbers s qr).1 = true) :
    ∃ f e n ts, tokens space s = f :: e :: n :: ts := by
  unfold parseSetNumbers at h
  rcases hf : strtok space s with _ | ⟨f, s₁⟩
  · simp [hf] at h
  · rcases he : strtok space s₁ with _ | ⟨e, s₂⟩
    · simp [hf, he] at h
    · rcases hn : strtok space s₂ with _ | ⟨n, s₃⟩
      · simp [hf, he, hn] at h
      · refine ⟨f, e, n, tokens space s₃, ?_⟩
        rw [tokens_of_strtok hf, tokens_of_strtok he, tokens_of_strtok hn]

/-- `parse_set_cmd` accepts four tokens of which the first is not too long. -/
lemma parseSetCmd_of_tokens {k f e n : List UInt8} {ts : List (List UInt8)}
    (h : tokens space s = k :: f :: e :: n :: ts) (hk : k.length < maxKeySize) :
    parseSetCmd (s ++ mcTermStr) qr = (true, qr.withSet k f e n) := by
  obtain ⟨s₁, hkey, h₁⟩ := strtok_of_tokens h
  unfold parseSetCmd
  rw [if_pos (List.suffix_append s mcTermStr), take_termStr, hkey]
  simp only [if_neg (Nat.not_le.2 hk), parseSetNumbers_of_tokens h₁]
  rfl

/-- `parse_set_cmd` accepts nothing else. -/
lemma tokens_of_parseSetCmd {saveptr : List UInt8} (h : (parseSetCmd saveptr qr).1 = true) :
    ∃ s k f e n ts, saveptr = s ++ mcTermStr ∧ tokens space s = k :: f :: e :: n :: ts ∧
      k.length < maxKeySize := by
  unfold parseSetCmd at h
  split at h
  · rename_i hsuffix
    obtain ⟨s, rfl⟩ := hsuffix
    rw [take_termStr] at h
    rcases hkey : strtok space s with _ | ⟨k, s₁⟩
    · simp [hkey] at h
    · simp only [hkey] at h
      split at h
      · cases h
      · rename_i hk
        obtain ⟨f, e, n, ts, h₁⟩ := tokens_of_parseSetNumbers h
        exact ⟨s, k, f, e, n, ts, rfl, by rw [tokens_of_strtok hkey, h₁], Nat.not_le.1 hk⟩
  · cases h

/-- The request that `parse_memcached_string_head` leaves for a set head with these tokens. -/
def QueryRequest.accepted (qr : QueryRequest) (key flag exptime bytes : List UInt8) : QueryRequest :=
  { qr.withSet key flag exptime bytes with cmdType := .set, parseStatus := .succ }

/-- A set head has at least five tokens. -/
lemma setHead_of_parse (hhead : qr.head = s ++ mcTermStr) (hret : (parseMemcachedStringHead qr).1 = 0)
    (hset : (parseMemcachedStringHead qr).2.cmdType = .set) :
    ∃ c k f e n ts, tokens space s = c :: k :: f :: e :: n :: ts ∧
      strcaseEq c (ascii ['s', 'e', 't']) = true ∧ k.length < maxKeySize ∧
      parseMemcachedStringHead qr = (0, qr.accepted k f e n) := by
  unfold parseMemcachedStringHead at hret hset ⊢
  rw [hhead] at hret hset ⊢
  rcases htok : strtok space (s ++ mcTermStr) with _ | ⟨c, saveptr⟩
  · simp only [htok] at hret
    exact absurd hret retParseReqFailed_ne_zero
  · simp only [htok] at hret hset ⊢
    obtain ⟨hc, hcmd⟩ := parseCmd_of_set (by simp) hset
    rw [hcmd, handleCmd_eq_zero_iff] at hret
    obtain ⟨s₁, k, f, e, n, ts, hsave, htokens, hk⟩ := tokens_of_parseSetCmd hret
    have hcr : (13 : UInt8) ∉ c := not_mem_of_strcaseEq hc (by decide)
    obtain ⟨s₂, hrest, hs⟩ := tokens_of_strtok_append (by decide) hcr htok
    obtain rfl : s₁ = s₂ := List.append_cancel_right (hsave.symm.trans hrest)
    refine ⟨c, k, f, e, n, ts, by rw [hs, htokens], hc, hk, ?_⟩
    rw [hcmd, hsave, parseSetCmd_of_tokens htokens hk]
    rfl

/-- Every head with these tokens is a set head. -/
lemma parse_of_setHead (hhead : qr.head = s ++ mcTermStr) {c k f e n : List UInt8}
    {ts : List (List UInt8)} (hs : tokens space s = c :: k :: f :: e :: n :: ts)
    (hc : strcaseEq c (ascii ['s', 'e', 't']) = true) (hk : k.length < maxKeySize) :
    parseMemcachedStringHead qr = (0, qr.accepted k f e n) := by
  obtain ⟨rest, htok, hrest⟩ := strtok_append hs (by simp) mcTermStr
  have hget : strcaseEq c (ascii ['g', 'e', 't']) = false := by
    simp only [strcaseEq, beq_iff_eq] at hc
    simp only [strcaseEq, hc]
    decide
  simp only [parseMemcachedStringHead, hhead, htok, parseCmd, hget, hc, Bool.false_eq_true, if_false,
    if_true, parseSetCmd_of_tokens hrest hk]
  rfl

end SetHeads

end Linglongta
