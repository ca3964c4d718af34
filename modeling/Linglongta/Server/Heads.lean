import Linglongta.Server.Receiving

/-!
# The heads that are accepted

Which heads `parse_memcached_string_head` accepts, and what it reads from them.  `Command cmd rest
s` says that the head `s` is the command `cmd`, in upper or lower case and with spaces before it,
and then a space and `rest`; `Argument arg rest` says that `rest` is the word `arg` with any spaces
before it and at most one behind it.

`parse_cases` says that a head with a command is parsed by the function of that command, and that
every other head is refused.  Set, sync and power heads are parsed exactly (`heads_parsed_exactly`).
A get or delete head is accepted whatever stands behind the command, so that the documented grammar
is met only if that is a single word (`key_heads_exact_iff`).
-/

namespace Linglongta

open CString

/-! ## Commands and arguments -/

/-- The word of a command. -/
def CmdType.word : CmdType → List UInt8
  | unknown => []
  | set => ascii ['s', 'e', 't']
  | get => ascii ['g', 'e', 't']
  | delete => ascii ['d', 'e', 'l', 'e', 't', 'e']
  | sync => ascii ['s', 'y', 'n', 'c']
  | power => ascii ['p', 'o', 'w', 'e', 'r']

/-- The function that parses the arguments of a command. -/
def CmdType.parseArgs : CmdType → List UInt8 → QueryRequest → Bool × QueryRequest
  | unknown => fun _ qr => (false, qr)
  | set => parseSetCmd
  | get => parseGetCmd
  | delete => parseDeleteCmd
  | sync => parseSyncCmd
  | power => parsePowerCmd

/-- The head is the command with a space and `rest` behind it. -/
def Command (type : CmdType) (rest s : List UInt8) : Prop :=
  ∃ n c, strcaseEq c type.word = true ∧ s = List.replicate n space ++ (c ++ space :: rest)

/-- What stands behind a command is one word, with at most one space behind it. -/
def Argument (arg rest : List UInt8) : Prop :=
  ∃ j d, d ≤ 1 ∧ rest = List.replicate j space ++ (arg ++ List.replicate d space)

/-- The head is the command with one argument. -/
def CommandLine (type : CmdType) (arg s : List UInt8) : Prop :=
  ∃ rest, Command type rest s ∧ Argument arg rest

section Words

variable {type : CmdType} {c rest s : List UInt8} {qr : QueryRequest}

/-- The words of different commands are different. -/
lemma word_inj {type' : CmdType} (h : strcaseEq c type.word = true)
    (h' : strcaseEq c type'.word = true) : type = type' := by
  have heq : type.word.map toLower = type'.word.map toLower := by
    simp only [strcaseEq, beq_iff_eq] at h h'
    rw [← h, ← h']
  revert heq
  cases type <;> cases type' <;> decide

/-- A word of a command has no space and no CR, and is not empty. -/
lemma word_spec (htype : type ≠ .unknown) (h : strcaseEq c type.word = true) :
    c ≠ [] ∧ space ∉ c ∧ (13 : UInt8) ∉ c := by
  refine ⟨?_, ?_, ?_⟩
  · rintro rfl
    revert h
    cases type <;> first | exact absurd rfl htype | decide
  · refine not_mem_of_strcaseEq h ?_
    cases type <;> decide
  · refine not_mem_of_strcaseEq h ?_
    cases type <;> decide

/-- The state machine, in terms of the words and the functions of the commands. -/
lemma parseCmd_eq : parseCmd c rest qr =
    if strcaseEq c CmdType.get.word then handleCmd .get (CmdType.get.parseArgs rest qr)
    else if strcaseEq c CmdType.set.word then handleCmd .set (CmdType.set.parseArgs rest qr)
    else if strcaseEq c CmdType.delete.word then handleCmd .delete (CmdType.delete.parseArgs rest qr)
    else if strcaseEq c CmdType.sync.word then handleCmd .sync (CmdType.sync.parseArgs rest qr)
    else if strcaseEq c CmdType.power.word then handleCmd .power (CmdType.power.parseArgs rest qr)
    else (retParseReqFailed, { qr with parseStatus := .failed }) := rfl

/-- The state machine goes to the function of the command. -/
lemma parseCmd_of_word (htype : type ≠ .unknown) (h : strcaseEq c type.word = true) :
    parseCmd c rest qr = handleCmd type (type.parseArgs rest qr) := by
  have hno : ∀ type', type' ≠ type → ¬strcaseEq c type'.word = true := fun type' hne hyes =>
    hne (word_inj hyes h)
  rw [parseCmd_eq]
  cases type with
  | unknown => exact absurd rfl htype
  | get => rw [if_pos h]
  | set => rw [if_neg (hno .get (by simp)), if_pos h]
  | delete => rw [if_neg (hno .get (by simp)), if_neg (hno .set (by simp)), if_pos h]
  | sync =>
    rw [if_neg (hno .get (by simp)), if_neg (hno .set (by simp)), if_neg (hno .delete (by simp)),
      if_pos h]
  | power =>
    rw [if_neg (hno .get (by simp)), if_neg (hno .set (by simp)), if_neg (hno .delete (by simp)),
      if_neg (hno .sync (by simp)), if_pos h]

/-- No command is recognised. -/
lemma parseCmd_of_no_word (h : ∀ type : CmdType, type ≠ .unknown → ¬strcaseEq c type.word = true) :
    parseCmd c rest qr = (retParseReqFailed, { qr with parseStatus := .failed }) := by
  rw [parseCmd_eq, if_neg (h .get (by simp)), if_neg (h .set (by simp)),
    if_neg (h .delete (by simp)),
    if_neg (h .sync (by simp)), if_neg (h .power (by simp))]

/-- The first token of a head with a command. -/
lemma Command.strtok (htype : type ≠ .unknown) (h : Command type rest s) :
    ∃ c, strcaseEq c type.word = true ∧
      CString.strtok space (s ++ mcTermStr) = some (c, rest ++ mcTermStr) := by
  obtain ⟨n, c, hc, rfl⟩ := h
  obtain ⟨hne, hspace, -⟩ := word_spec htype hc
  refine ⟨c, hc, ?_⟩
  rw [List.append_assoc, List.append_assoc, List.cons_append]
  exact strtok_replicate hne hspace n _

/-- A head has at most one command, and what stands behind it is fixed. -/
lemma Command.unique {type' : CmdType} {rest' : List UInt8} (htype : type ≠ .unknown)
    (htype' : type' ≠ .unknown) (h : Command type rest s) (h' : Command type' rest' s) :
    type = type' ∧ rest = rest' := by
  obtain ⟨c, hc, htok⟩ := h.strtok htype
  obtain ⟨c', hc', htok'⟩ := h'.strtok htype'
  obtain ⟨rfl, hrest⟩ := Prod.mk.inj (Option.some.inj (htok.symm.trans htok'))
  exact ⟨word_inj hc hc', List.append_cancel_right hrest⟩

/-- A head with a command is parsed by the function of the command; every other head is refused. -/
lemma parse_cases (hhead : qr.head = s ++ mcTermStr) :
    (∃ type rest, type ≠ .unknown ∧ Command type rest s ∧ parseMemcachedStringHead qr =
      handleCmd type (type.parseArgs (rest ++ mcTermStr) { qr with cmdType := .unknown })) ∨
    ((∀ type rest, type ≠ .unknown → ¬Command type rest s) ∧ parseMemcachedStringHead qr =
      (retParseReqFailed, { qr with cmdType := .unknown, parseStatus := .failed })) := by
  have hcr : (13 : UInt8) ≠ space := by decide
  obtain ⟨⟨c, saveptr⟩, htok⟩ := Option.ne_none_iff_exists'.1
    (strtok_ne_none (s := s ++ mcTermStr) hcr (by simp [mcTermStr]))
  have hparse : parseMemcachedStringHead qr =
      parseCmd c saveptr { qr with cmdType := .unknown } := by
    simp only [parseMemcachedStringHead, hhead, htok]
  rw [hparse]
  by_cases hword : ∃ type : CmdType, type ≠ .unknown ∧ strcaseEq c type.word = true
  · obtain ⟨type, htype, hc⟩ := hword
    obtain ⟨n, rest, hs, hrest⟩ := strtok_append_cases hcr (word_spec htype hc).2.2 htok
    refine Or.inl ⟨type, rest, htype, ⟨n, c, hc, hs⟩, ?_⟩
    rw [parseCmd_of_word htype hc, hrest]
    rfl
  · push Not at hword
    refine Or.inr ⟨fun type rest htype hcmd => ?_, parseCmd_of_no_word hword⟩
    obtain ⟨c', hc', htok'⟩ := hcmd.strtok htype
    obtain ⟨rfl, -⟩ := Prod.mk.inj (Option.some.inj (htok.symm.trans htok'))
    exact hword type htype hc'

lemma parse_of_command (hhead : qr.head = s ++ mcTermStr) (htype : type ≠ .unknown)
    (hcmd : Command type rest s) : parseMemcachedStringHead qr =
      handleCmd type (type.parseArgs (rest ++ mcTermStr) { qr with cmdType := .unknown }) := by
  rcases parse_cases hhead with ⟨type', rest', htype', hcmd', hparse⟩ | ⟨hno, -⟩
  · obtain ⟨rfl, rfl⟩ := hcmd.unique htype htype' hcmd'
    exact hparse
  · exact absurd hcmd (hno type rest htype)

end Words

section Arguments

variable {arg rest s : List UInt8} {qr : QueryRequest}

/-- The spaces before the line end are skipped, not the line end. -/
lemma dropWhile_termStr (rest : List UInt8) :
    (rest ++ mcTermStr).dropWhile (· == space) = rest.dropWhile (· == space) ++ mcTermStr := by
  induction rest with
  | nil => decide
  | cons c rest ih =>
    by_cases hc : c = space
    · rw [List.cons_append, List.dropWhile_cons_of_pos (by simp [hc]), ih,
        List.dropWhile_cons_of_pos (by simp [hc])]
    · rw [List.cons_append, List.dropWhile_cons_of_neg (by simp [hc]),
        List.dropWhile_cons_of_neg (by simp [hc]), List.cons_append]

/-- `ScanKey` before a line end: without a word the result is empty or the line end itself. -/
lemma scanKey_termStr (rest : List UInt8) :
    scanKey (rest ++ mcTermStr) = some (
      if rest.dropWhile (· == space) = [] then (if rest = [] then [] else mcTermStr)
      else ((if (rest.dropWhile (· == space)).getLast? = some space then
        (rest.dropWhile (· == space)).dropLast else rest.dropWhile (· == space)).take (maxKeySize - 1))) := by
  unfold scanKey
  simp only [dropWhile_termStr]
  rw [if_pos (List.suffix_append _ mcTermStr), take_termStr]
  split
  · rename_i hnil
    rw [hnil]
    by_cases hrest : rest = []
    · simp [hrest]
    · have hpos := List.length_pos_iff.2 hrest
      simp [hrest, hpos]
  · rfl

/-- A word is scanned up to the size of the key. -/
lemma scanKey_of_argument (hne : arg ≠ []) (hspace : space ∉ arg) (h : Argument arg rest) :
    scanKey (rest ++ mcTermStr) = some (arg.take (maxKeySize - 1)) := by
  obtain ⟨j, d, hd, rfl⟩ := h
  have hdrop : (List.replicate j space ++ (arg ++ List.replicate d space)).dropWhile (· == space) =
      arg ++ List.replicate d space := by
    rw [List.dropWhile_append_of_pos (by simp +contextual)]
    cases arg with
    | nil => exact absurd rfl hne
    | cons c arg =>
      have hc : c ≠ space := fun heq => hspace (by simp [heq])
      rw [List.cons_append, List.dropWhile_cons_of_neg (by simpa using hc)]
  rw [scanKey_termStr, hdrop, if_neg (by simp [hne])]
  congr 2
  interval_cases d
  · have hlast : (arg ++ List.replicate 0 space).getLast? ≠ some space := by
      intro hlast
      rw [List.replicate_zero, List.append_nil] at hlast
      exact hspace (List.mem_of_getLast? hlast)
    rw [if_neg hlast, List.replicate_zero, List.append_nil]
  · simp

/-- A short result that is neither empty nor the line end is the word behind the command. -/
lemma argument_of_scanKey {key : List UInt8} (h : scanKey (rest ++ mcTermStr) = some key)
    (hne : key ≠ []) (hcr : (13 : UInt8) ∉ key) (hshort : key.length < maxKeySize - 1) :
    Argument key rest := by
  rw [scanKey_termStr] at h
  have hkey := Option.some.inj h
  have hrest : rest = List.replicate (rest.takeWhile (· == space)).length space ++
      rest.dropWhile (· == space) := by
    conv_lhs => rw [← List.takeWhile_append_dropWhile (p := (· == space)) (l := rest)]
    congr 1
    exact List.eq_replicate_iff.2 ⟨rfl, fun c hc => by simpa using List.mem_takeWhile_imp hc⟩
  split at hkey
  · split at hkey
    · exact absurd hkey.symm hne
    · exact absurd (hkey ▸ by simp [mcTermStr]) hcr
  · rename_i hk
    have htake : ∀ l : List UInt8, l.take (maxKeySize - 1) = key → l = key := by
      intro l hl
      have hlen := congrArg List.length hl
      rw [List.length_take] at hlen
      rw [← hl, List.take_of_length_le (by omega)]
    split at hkey
    · rename_i hlast
      refine ⟨(rest.takeWhile (· == space)).length, 1, le_rfl, ?_⟩
      rw [← htake _ hkey, List.replicate_one, List.dropLast_append_getLast? space hlast]
      exact hrest
    · refine ⟨(rest.takeWhile (· == space)).length, 0, Nat.zero_le 1, ?_⟩
      rw [← htake _ hkey, List.replicate_zero, List.append_nil]
      exact hrest

end Arguments

/-! ## Which heads are accepted -/

section Accepted

variable {type : CmdType} {rest s : List UInt8} {qr : QueryRequest}

/-- The string in the buffer of a request is the head that is parsed. -/
lemma head_of_string (hs : IsHead s) (h : ofBuffer qr.queryHeadBuf.bytes = s ++ mcTermStr) :
    qr.head = s ++ mcTermStr := by
  have hshort := hs.short
  have hcommute : ofBuffer (qr.queryHeadBuf.bytes.take (maxQueryHeaderSize - 1)) =
      (ofBuffer qr.queryHeadBuf.bytes).take (maxQueryHeaderSize - 1) := List.take_takeWhile.symm
  rw [QueryRequest.head, hcommute, h, List.take_of_length_le (by rw [List.length_append]; omega)]

/-- A head is accepted with a command if it has the command and the arguments can be parsed. -/
lemma parse_succeeds_iff (hhead : qr.head = s ++ mcTermStr) (htype : type ≠ .unknown) :
    (parseMemcachedStringHead qr).1 = 0 ∧ (parseMemcachedStringHead qr).2.cmdType = type ↔
      ∃ rest, Command type rest s ∧
        (type.parseArgs (rest ++ mcTermStr) { qr with cmdType := .unknown }).1 = true := by
  rcases parse_cases hhead with ⟨type', rest, htype', hcmd, hparse⟩ | ⟨hno, hparse⟩
  · rw [hparse, handleCmd_eq_zero_iff, cmdType_handleCmd]
    constructor
    · rintro ⟨hargs, rfl⟩
      exact ⟨rest, hcmd, hargs⟩
    · rintro ⟨rest', hcmd', hargs⟩
      obtain ⟨rfl, rfl⟩ := hcmd.unique htype' htype hcmd'
      exact ⟨hargs, rfl⟩
  · rw [hparse]
    constructor
    · rintro ⟨hret, -⟩
      exact absurd hret retParseReqFailed_ne_zero
    · rintro ⟨rest', hcmd', -⟩
      exact absurd hcmd' (hno type rest' htype)

/-- A head that is not accepted is refused with the same code, whatever the reason. -/
lemma parse_refused (hhead : qr.head = s ++ mcTermStr)
    (hret : (parseMemcachedStringHead qr).1 ≠ 0) :
    (parseMemcachedStringHead qr).1 = retParseReqFailed ∧
      (parseMemcachedStringHead qr).2.parseStatus = .failed := by
  rcases parse_cases hhead with ⟨type', rest, htype', hcmd, hparse⟩ | ⟨hno, hparse⟩
  · rw [hparse, Ne, handleCmd_eq_zero_iff] at hret
    rw [hparse, handleCmd, if_neg hret]
    exact ⟨rfl, rfl⟩
  · rw [hparse]
    exact ⟨rfl, rfl⟩

/-- A command whose argument is one of some words. -/
lemma parseKeyCmd_iff {accepts : List UInt8 → Bool}
    (haccepts : ∀ w, accepts w = true → w ≠ [] ∧ space ∉ w ∧ (13 : UInt8) ∉ w ∧
      w.length < maxKeySize - 1) :
    (parseKeyCmd accepts (rest ++ mcTermStr) qr).1 = true ↔
      ∃ w, accepts w = true ∧ Argument w rest := by
  constructor
  · intro h
    rcases hscan : scanKey (rest ++ mcTermStr) with _ | key
    · simp [parseKeyCmd, hscan] at h
    · have hkey : accepts key = true := by simpa [parseKeyCmd, hscan] using h
      obtain ⟨hne, -, hcr, hshort⟩ := haccepts key hkey
      exact ⟨key, hkey, argument_of_scanKey hscan hne hcr hshort⟩
  · rintro ⟨w, hw, harg⟩
    obtain ⟨hne, hspace, -, hshort⟩ := haccepts w hw
    have hscan := scanKey_of_argument hne hspace harg
    rw [List.take_of_length_le hshort.le] at hscan
    simpa [parseKeyCmd, hscan] using hw

/-- What a string that is equal to a word, in upper or lower case, has not. -/
lemma word_of_strcaseEq {w v : List UInt8} (h : strcaseEq w v = true) (hne : v ≠ [])
    (hspace : toLower space ∉ v.map toLower) (hcr : toLower 13 ∉ v.map toLower)
    (hshort : v.length < maxKeySize - 1) :
    w ≠ [] ∧ space ∉ w ∧ (13 : UInt8) ∉ w ∧ w.length < maxKeySize - 1 := by
  have hlen : w.length = v.length := by
    simp only [strcaseEq, beq_iff_eq] at h
    simpa using congrArg List.length h
  refine ⟨?_, not_mem_of_strcaseEq h hspace, not_mem_of_strcaseEq h hcr, by omega⟩
  rintro rfl
  exact hne (List.eq_nil_of_length_eq_zero hlen.symm)

/-- `parse_sync_cmd` accepts `index` and `all`. -/
lemma parseSyncCmd_iff : (parseSyncCmd (rest ++ mcTermStr) qr).1 = true ↔
    ∃ w, (strcaseEq w (ascii ['i', 'n', 'd', 'e', 'x']) = true ∨
      strcaseEq w (ascii ['a', 'l', 'l']) = true) ∧ Argument w rest := by
  refine (parseKeyCmd_iff fun w hw => ?_).trans (by simp)
  rcases Bool.or_eq_true_iff.1 hw with h | h
  · exact word_of_strcaseEq h (by decide) (by decide) (by decide) (by decide)
  · exact word_of_strcaseEq h (by decide) (by decide) (by decide) (by decide)

/-- `parse_power_cmd` accepts `halt`. -/
lemma parsePowerCmd_iff : (parsePowerCmd (rest ++ mcTermStr) qr).1 = true ↔
    ∃ w, strcaseEq w (ascii ['h', 'a', 'l', 't']) = true ∧ Argument w rest :=
  parseKeyCmd_iff fun w hw => word_of_strcaseEq hw (by decide) (by decide) (by decide) (by decide)

/-- A head is accepted with a command whose argument is one of some words if it is such a line. -/
lemma parse_succeeds_iff_line {P : List UInt8 → Prop} (hhead : qr.head = s ++ mcTermStr)
    (htype : type ≠ .unknown)
    (hargs : ∀ rest qr, (type.parseArgs (rest ++ mcTermStr) qr).1 = true ↔
      ∃ w, P w ∧ Argument w rest) :
    (parseMemcachedStringHead qr).1 = 0 ∧ (parseMemcachedStringHead qr).2.cmdType = type ↔
      ∃ w, CommandLine type w s ∧ P w := by
  rw [parse_succeeds_iff hhead htype]
  constructor
  · rintro ⟨rest, hcmd, hsucc⟩
    obtain ⟨w, hw, harg⟩ := (hargs _ _).1 hsucc
    exact ⟨w, ⟨rest, hcmd, harg⟩, hw⟩
  · rintro ⟨w, ⟨rest, hcmd, harg⟩, hw⟩
    exact ⟨rest, hcmd, (hargs _ _).2 ⟨w, hw, harg⟩⟩

/-- `parse_get_cmd` and `parse_delete_cmd` accept everything. -/
lemma parseKeyCmd_accepts : (parseKeyCmd (fun _ => true) (rest ++ mcTermStr) qr).1 = true := by
  simp [parseKeyCmd, scanKey_termStr]

/-- The command of a head is its first token. -/
lemma Command.tokens (htype : type ≠ .unknown) (h : Command type rest s) :
    ∃ c, strcaseEq c type.word = true ∧
      CString.tokens space s = c :: CString.tokens space rest := by
  obtain ⟨n, c, hc, rfl⟩ := h
  obtain ⟨hne, hspace, -⟩ := word_spec htype hc
  exact ⟨c, hc, by rw [tokens_replicate, tokens_append hne hspace]⟩

end Accepted

/-- The head has the tokens of a set command. -/
def SetTokens (s k f e n : List UInt8) : Prop :=
  ∃ c ts, tokens space s = c :: k :: f :: e :: n :: ts ∧ strcaseEq c CmdType.set.word = true ∧
    k.length ≤ 250

/-- The head is a sync command. -/
def SyncLine (s : List UInt8) : Prop :=
  ∃ w, CommandLine .sync w s ∧ (strcaseEq w (ascii ['i', 'n', 'd', 'e', 'x']) = true ∨
    strcaseEq w (ascii ['a', 'l', 'l']) = true)

/-- The head is a power command. -/
def PowerLine (s : List UInt8) : Prop :=
  ∃ w, CommandLine .power w s ∧ strcaseEq w (ascii ['h', 'a', 'l', 't']) = true

/-- Set, sync and power heads are parsed exactly.  A head is accepted with `cmd_set` if and only if
it has the five tokens of a set command and a key of at most 250 bytes, and the fields of the
request are then read from these tokens; it is accepted with `cmd_sync` or `cmd_power` if and only
if it is a sync or power command with one of their words; and every other head is refused, unless
its first token is `get` or `delete`. -/
theorem heads_parsed_exactly {qr : QueryRequest} {s : List UInt8} (hs : IsHead s)
    (hqr : ofBuffer qr.queryHeadBuf.bytes = s ++ mcTermStr) :
    ((parseMemcachedStringHead qr).1 = 0 ∧ (parseMemcachedStringHead qr).2.cmdType = .set ↔
      ∃ k f e n, SetTokens s k f e n) ∧
    (∀ k f e n, SetTokens s k f e n →
      (parseMemcachedStringHead qr).2.key = k ∧
      (parseMemcachedStringHead qr).2.flag = atoi f ∧
      (parseMemcachedStringHead qr).2.exptime = atoi e ∧
      (parseMemcachedStringHead qr).2.dataSize = toSizeT (atol n)) ∧
    ((parseMemcachedStringHead qr).1 = 0 ∧ (parseMemcachedStringHead qr).2.cmdType = .sync ↔
      SyncLine s) ∧
    ((parseMemcachedStringHead qr).1 = 0 ∧ (parseMemcachedStringHead qr).2.cmdType = .power ↔
      PowerLine s) ∧
    ((¬∃ k f e n, SetTokens s k f e n) → ¬SyncLine s → ¬PowerLine s →
      (∀ t ts, tokens space s = t :: ts → strcaseEq t CmdType.get.word ≠ true ∧
        strcaseEq t CmdType.delete.word ≠ true) →
      (parseMemcachedStringHead qr).1 = retParseReqFailed ∧
        (parseMemcachedStringHead qr).2.parseStatus = .failed) := by
  have hhead := head_of_string hs hqr
  have hset : ∀ k f e n, SetTokens s k f e n →
      parseMemcachedStringHead qr = (0, qr.accepted k f e n) := by
    rintro k f e n ⟨c, ts, htok, hc, hk⟩
    exact parse_of_setHead hhead htok hc (Nat.lt_succ_of_le hk)
  have hset_iff : (parseMemcachedStringHead qr).1 = 0 ∧
      (parseMemcachedStringHead qr).2.cmdType = .set ↔ ∃ k f e n, SetTokens s k f e n := by
    constructor
    · rintro ⟨hret, htype⟩
      obtain ⟨c, k, f, e, n, ts, htok, hc, hk, -⟩ := setHead_of_parse hhead hret htype
      exact ⟨k, f, e, n, c, ts, htok, hc, Nat.le_of_lt_succ hk⟩
    · rintro ⟨k, f, e, n, h⟩
      rw [hset k f e n h]
      exact ⟨rfl, rfl⟩
  have hsync_iff : (parseMemcachedStringHead qr).1 = 0 ∧
      (parseMemcachedStringHead qr).2.cmdType = .sync ↔ SyncLine s :=
    parse_succeeds_iff_line hhead (by decide) fun _ _ => parseSyncCmd_iff
  have hpower_iff : (parseMemcachedStringHead qr).1 = 0 ∧
      (parseMemcachedStringHead qr).2.cmdType = .power ↔ PowerLine s :=
    parse_succeeds_iff_line hhead (by decide) fun _ _ => parsePowerCmd_iff
  refine ⟨hset_iff, fun k f e n h => ?_, hsync_iff, hpower_iff,
    fun hnset hnsync hnpower hfirst => ?_⟩
  · rw [hset k f e n h]
    exact ⟨rfl, rfl, rfl, rfl⟩
  · refine parse_refused hhead fun hret => ?_
    -- a head that is accepted has one of the five commands
    rcases parse_cases hhead with ⟨type, rest, htype, hcmd, hparse⟩ | ⟨-, hparse⟩
    · have hcmdType : (parseMemcachedStringHead qr).2.cmdType = type := by
        rw [hparse, cmdType_handleCmd]
      obtain ⟨c, hc, htok⟩ := hcmd.tokens htype
      cases type with
      | unknown => exact htype rfl
      | set => exact hnset (hset_iff.1 ⟨hret, hcmdType⟩)
      | get => exact (hfirst c _ htok).1 hc
      | delete => exact (hfirst c _ htok).2 hc
      | sync => exact hnsync (hsync_iff.1 ⟨hret, hcmdType⟩)
      | power => exact hnpower (hpower_iff.1 ⟨hret, hcmdType⟩)
    · rw [hparse] at hret
      exact absurd hret retParseReqFailed_ne_zero

/-- The request whose buffer holds this string, and nothing else. -/
def requestOf (h : List UInt8) : QueryRequest :=
  { QueryRequest.zero with queryHeadBuf := Blob.copy maxQueryHeaderSize h }

/-- The head `Sync  all ` is accepted. -/
theorem heads_parsed_exactly_sync :
    SyncLine (ascii ['S', 'y', 'n', 'c', ' ', ' ', 'a', 'l', 'l', ' ']) ∧
      (parseMemcachedStringHead (requestOf
        (ascii ['S', 'y', 'n', 'c', ' ', ' ', 'a', 'l', 'l', ' '] ++ mcTermStr))).2.cmdType = .sync := by
  have hline : SyncLine (ascii ['S', 'y', 'n', 'c', ' ', ' ', 'a', 'l', 'l', ' ']) :=
    ⟨ascii ['a', 'l', 'l'], ⟨ascii [' ', 'a', 'l', 'l', ' '],
      ⟨0, ascii ['S', 'y', 'n', 'c'], by decide, by decide⟩, 1, 1, le_rfl, by decide⟩, by decide⟩
  have hs : IsHead (ascii ['S', 'y', 'n', 'c', ' ', ' ', 'a', 'l', 'l', ' ']) :=
    ⟨by decide, by decide, by decide⟩
  exact ⟨hline, ((heads_parsed_exactly hs (by decide +kernel)).2.2.1.2 hline).2⟩

/-! ## Get and delete heads -/

/-- What stands behind the command is a key: one word that is not empty. -/
def IsKey (key : List UInt8) : Prop := key ≠ [] ∧ space ∉ key

/-- The documented grammar of a command with a key: the head is accepted with the command if and
only if it is the command with one key, and the key of the request is then that key, up to the size
of the array. -/
def KeyHeadExact (type : CmdType) (qr : QueryRequest) (s : List UInt8) : Prop :=
  ((parseMemcachedStringHead qr).1 = 0 ∧ (parseMemcachedStringHead qr).2.cmdType = type ↔
    ∃ key, IsKey key ∧ CommandLine type key s) ∧
  ∀ key, IsKey key → CommandLine type key s →
    (parseMemcachedStringHead qr).2.key = key.take 250

section KeyHeads

variable {type : CmdType} {rest s : List UInt8} {qr : QueryRequest}

/-- A head with one of the two commands is accepted, with what `ScanKey` finds. -/
lemma parse_of_keyCommand (hhead : qr.head = s ++ mcTermStr) (htype : type = .get ∨ type = .delete)
    (hcmd : Command type rest s) :
    (parseMemcachedStringHead qr).1 = 0 ∧ (parseMemcachedStringHead qr).2.cmdType = type ∧
      scanKey (rest ++ mcTermStr) = some (parseMemcachedStringHead qr).2.key := by
  have hunknown : type ≠ .unknown := by
    rcases htype with rfl | rfl <;> decide
  have hargs : type.parseArgs = parseKeyCmd fun _ => true := by
    rcases htype with rfl | rfl <;> rfl
  have hsucc : (type.parseArgs (rest ++ mcTermStr) { qr with cmdType := .unknown }).1 = true := by
    rw [hargs]
    exact parseKeyCmd_accepts
  obtain ⟨hret, hcmdType⟩ := (parse_succeeds_iff hhead hunknown).2 ⟨rest, hcmd, hsucc⟩
  refine ⟨hret, hcmdType, ?_⟩
  rw [parse_of_command hhead hunknown hcmd, handleCmd, if_pos hsucc, hargs]
  rcases hscan : scanKey (rest ++ mcTermStr) with _ | key
  · simp [scanKey_termStr] at hscan
  · simp [parseKeyCmd, hscan]

/-- The grammar is met if and only if a key stands behind the command, where there is one. -/
lemma keyHeadExact_iff (hhead : qr.head = s ++ mcTermStr) (htype : type = .get ∨ type = .delete) :
    KeyHeadExact type qr s ↔
      ∀ rest, Command type rest s → ∃ key, IsKey key ∧ Argument key rest := by
  have hunknown : type ≠ .unknown := by
    rcases htype with rfl | rfl <;> decide
  constructor
  · intro hexact rest hcmd
    obtain ⟨hret, hcmdType, -⟩ := parse_of_keyCommand hhead htype hcmd
    obtain ⟨key, hkey, rest', hcmd', harg⟩ := hexact.1.1 ⟨hret, hcmdType⟩
    obtain ⟨-, rfl⟩ := hcmd.unique hunknown hunknown hcmd'
    exact ⟨key, hkey, harg⟩
  · intro hkeys
    refine ⟨⟨fun hacc => ?_, ?_⟩, ?_⟩
    · obtain ⟨rest, hcmd, -⟩ := (parse_succeeds_iff hhead hunknown).1 hacc
      obtain ⟨key, hkey, harg⟩ := hkeys rest hcmd
      exact ⟨key, hkey, rest, hcmd, harg⟩
    · rintro ⟨key, -, rest, hcmd, -⟩
      obtain ⟨hret, hcmdType, -⟩ := parse_of_keyCommand hhead htype hcmd
      exact ⟨hret, hcmdType⟩
    · rintro key hkey ⟨rest, hcmd, harg⟩
      obtain ⟨-, -, hscan⟩ := parse_of_keyCommand hhead htype hcmd
      rw [scanKey_of_argument hkey.1 hkey.2 harg] at hscan
      exact (Option.some.inj hscan).symm

end KeyHeads

/-- Get and delete heads follow the documented grammar if and only if, where a head starts with one
of the two commands and a space, a single key stands behind it. -/
theorem key_heads_exact_iff {qr : QueryRequest} {s : List UInt8} (hs : IsHead s)
    (hqr : ofBuffer qr.queryHeadBuf.bytes = s ++ mcTermStr) :
    KeyHeadExact .get qr s ∧ KeyHeadExact .delete qr s ↔
      ∀ rest, Command .get rest s ∨ Command .delete rest s →
        ∃ key, IsKey key ∧ Argument key rest := by
  have hhead := head_of_string hs hqr
  rw [keyHeadExact_iff hhead (Or.inl rfl), keyHeadExact_iff hhead (Or.inr rfl)]
  constructor
  · rintro ⟨hget, hdelete⟩ rest (hcmd | hcmd)
    · exact hget rest hcmd
    · exact hdelete rest hcmd
  · intro h
    exact ⟨fun rest hcmd => h rest (Or.inl hcmd), fun rest hcmd => h rest (Or.inr hcmd)⟩

/-- The head `get a` follows the grammar. -/
theorem key_heads_exact_get :
    KeyHeadExact .get (requestOf (ascii ['g', 'e', 't', ' ', 'a'] ++ mcTermStr))
      (ascii ['g', 'e', 't', ' ', 'a']) := by
  have hs : IsHead (ascii ['g', 'e', 't', ' ', 'a']) := ⟨by decide, by decide, by decide⟩
  refine ((key_heads_exact_iff hs (by decide +kernel)).2 ?_).1
  have hget : Command .get (ascii ['a']) (ascii ['g', 'e', 't', ' ', 'a']) :=
    ⟨0, ascii ['g', 'e', 't'], by decide, by decide⟩
  rintro rest (hcmd | hcmd)
  · obtain ⟨-, rfl⟩ := hget.unique (by decide) (by decide) hcmd
    exact ⟨ascii ['a'], ⟨by decide, by decide⟩, 0, 0, by decide, by decide⟩
  · exact absurd (hget.unique (by decide) (by decide) hcmd).1 (by decide)

/-- The head `get` with a space behind it is accepted with an empty key; with two spaces the key is
the line end, and with two words it contains a space. -/
theorem key_heads_without_key :
    ¬KeyHeadExact .get (requestOf (ascii ['g', 'e', 't', ' '] ++ mcTermStr))
      (ascii ['g', 'e', 't', ' ']) ∧
    (parseMemcachedStringHead (requestOf (ascii ['g', 'e', 't', ' '] ++ mcTermStr))).2.key = [] ∧
    (parseMemcachedStringHead (requestOf (ascii ['g', 'e', 't', ' ', ' '] ++ mcTermStr))).2.key =
      mcTermStr ∧
    (parseMemcachedStringHead (requestOf (ascii ['g', 'e', 't', ' ', 'a', ' ', 'b'] ++
      mcTermStr))).2.key = ascii ['a', ' ', 'b'] := by
  refine ⟨?_, by decide +kernel, by decide +kernel, by decide +kernel⟩
  have hs : IsHead (ascii ['g', 'e', 't', ' ']) := ⟨by decide, by decide, by decide⟩
  rw [keyHeadExact_iff (head_of_string hs (by decide +kernel)) (Or.inl rfl)]
  intro h
  obtain ⟨key, ⟨hne, -⟩, j, d, -, hrest⟩ := h [] ⟨0, ascii ['g', 'e', 't'], by decide, by decide⟩
  have hlen := congrArg List.length hrest
  have hpos := List.length_pos_iff.2 hne
  simp only [List.length_nil, List.length_append, List.length_replicate] at hlen
  omega

end Linglongta
