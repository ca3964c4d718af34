import Mathlib.Tactic
import Mathlib.Data.List.TakeWhile

/-!
# C strings

A C string is the list of the bytes before its terminating zero byte.  The functions of `string.h`,
`strings.h` and `stdlib.h` below are functions of such lists; `strtok` returns the token and the
string that its save pointer refers to afterwards.

`tokens` is what a sequence of `strtok` calls is for: the non-empty pieces between the delimiters.
`tokens_of_strtok` and `tokens_eq_nil_iff` say that `strtok` goes through them from left to right.

A `Buffer` is what the allocator returns.  Nothing stops a copy at its end, so it also says how far
it has been written.  Copying bytes right behind what has been copied before appends them
(`Buffer.bytes_copy`).
-/

/-! ## Buffers -/

/-- A buffer from the allocator. -/
structure Buffer where
  /-- The size that has been asked for. -/
  size : ℕ
  /-- The byte at an offset. -/
  byte : ℕ → UInt8
  /-- The end of what has been copied to it; the buffer is overrun if this exceeds its size. -/
  extent : ℕ

namespace Buffer

/-- The first `n` bytes. -/
def bytes (b : Buffer) (n : ℕ) : List UInt8 :=
  (List.range n).map b.byte

/-- `memmove` to an offset. -/
def copy (b : Buffer) (off : ℕ) (src : List UInt8) : Buffer where
  size := b.size
  byte := fun i => if off ≤ i ∧ i < off + src.length then src.getD (i - off) 0 else b.byte i
  extent := max b.extent (off + src.length)

@[simp] lemma size_copy (b : Buffer) (off : ℕ) (src : List UInt8) :
    (b.copy off src).size = b.size := rfl

@[simp] lemma extent_copy (b : Buffer) (off : ℕ) (src : List UInt8) :
    (b.copy off src).extent = max b.extent (off + src.length) := rfl

@[simp] lemma length_bytes (b : Buffer) (n : ℕ) : (b.bytes n).length = n := by
  simp [bytes]

/-- The first bytes of the first bytes. -/
lemma take_bytes (b : Buffer) {n k : ℕ} (h : k ≤ n) : (b.bytes n).take k = b.bytes k := by
  simp [bytes, ← List.map_take, List.take_range, Nat.min_eq_left h]

/-- What is copied right behind the first `n` bytes is appended to them. -/
lemma bytes_copy (b : Buffer) (n : ℕ) (src : List UInt8) :
    (b.copy n src).bytes (n + src.length) = b.bytes n ++ src := by
  refine List.ext_getElem (by simp) fun i hi hi' => ?_
  have hi : i < n + src.length := by simpa using hi
  by_cases hin : i < n
  · have hout : ¬ (n ≤ i ∧ i < n + src.length) := by omega
    simp [bytes, copy, hin, hout]
  · have hle : n ≤ i := by omega
    have hlt : i - n < src.length := by omega
    rw [List.getElem_append_right (by simpa using hle)]
    simp [bytes, copy, hle, hi, hlt]

end Buffer

namespace CString

/-! ## Strings -/

/-- The bytes of a string of ASCII characters. -/
def ascii (s : List Char) : List UInt8 :=
  s.map fun c => UInt8.ofNat c.toNat

/-- The string at the start of a buffer: the bytes before the first zero byte. -/
def ofBuffer (buf : List UInt8) : List UInt8 :=
  buf.takeWhile (· ≠ 0)

/-- `strstr`: the position of the first occurrence of a string. -/
def strstr (needle : List UInt8) : List UInt8 → Option ℕ
  | [] => if needle = [] then some 0 else none
  | c :: s => if needle.isPrefixOf (c :: s) then some 0 else (strstr needle s).map (· + 1)

/-- `tolower` of the C locale. -/
def toLower (c : UInt8) : UInt8 :=
  if 65 ≤ c ∧ c ≤ 90 then c + 32 else c

/-- `strcasecmp(a, b) == 0`. -/
def strcaseEq (a b : List UInt8) : Bool :=
  a.map toLower == b.map toLower

/-- A byte that is not in a string, in upper or lower case, is not in an equal one. -/
lemma not_mem_of_strcaseEq {a b : List UInt8} (h : strcaseEq a b = true) {x : UInt8}
    (hx : toLower x ∉ b.map toLower) : x ∉ a := by
  intro hmem
  have heq : a.map toLower = b.map toLower := by simpa [strcaseEq] using h
  exact hx (heq ▸ List.mem_map_of_mem hmem)

/-- What is found stands where it is found. -/
lemma prefix_of_strstr {needle s : List UInt8} {i : ℕ} (h : strstr needle s = some i) :
    needle <+: s.drop i := by
  induction s generalizing i with
  | nil =>
    simp only [strstr] at h
    split at h
    · rename_i hnil
      simp [hnil]
    · cases h
  | cons c s ih =>
    rw [strstr] at h
    split at h
    · rename_i hpre
      obtain rfl := Option.some.inj h
      exact List.isPrefixOf_iff_prefix.1 hpre
    · obtain ⟨j, hj, rfl⟩ := Option.map_eq_some_iff.1 h
      exact ih hj

/-- What is found lies inside the string. -/
lemma strstr_add_le {needle s : List UInt8} {i : ℕ} (h : strstr needle s = some i) :
    i + needle.length ≤ s.length ∨ needle = [] := by
  rcases Nat.lt_or_ge i s.length with hi | hi
  · left
    have hlen := (prefix_of_strstr h).length_le
    rw [List.length_drop] at hlen
    omega
  · right
    have hpre := prefix_of_strstr h
    rw [List.drop_eq_nil_of_le hi] at hpre
    exact List.prefix_nil.1 hpre

/-! ## Tokens -/

/-- `strtok_r` with one delimiter: the token and what is left behind it, none for `NULL`. -/
def strtok (delim : UInt8) (s : List UInt8) : Option (List UInt8 × List UInt8) :=
  match s.dropWhile (· == delim) with
  | [] => none
  | c :: s => some ((c :: s).takeWhile (· != delim), ((c :: s).dropWhile (· != delim)).tail)

/-- The non-empty pieces of a string between the delimiters. -/
def tokens (delim : UInt8) (s : List UInt8) : List (List UInt8) :=
  (s.splitOn delim).filter (· ≠ [])

section Tokens

variable {delim : UInt8} {s : List UInt8}

@[simp] lemma tokens_nil : tokens delim [] = [] := by
  simp [tokens]

/-- A delimiter at the start does not count. -/
@[simp] lemma tokens_cons_delim : tokens delim (delim :: s) = tokens delim s := by
  have h := List.splitOn_append_cons_self (a := delim) [] s
  simp only [List.nil_append, List.splitOn_nil] at h
  simp [tokens, h]

/-- Delimiters at the start do not count. -/
lemma tokens_dropWhile (s : List UInt8) :
    tokens delim (s.dropWhile (· == delim)) = tokens delim s := by
  induction s with
  | nil => rfl
  | cons c s ih =>
    by_cases hc : c = delim
    · rw [List.dropWhile_cons_of_pos (by simp [hc]), ih, hc, tokens_cons_delim]
    · rw [List.dropWhile_cons_of_neg (by simp [hc])]

/-- A string without delimiters is one token. -/
lemma tokens_of_not_mem {t : List UInt8} (hne : t ≠ []) (ht : delim ∉ t) :
    tokens delim t = [t] := by
  simp [tokens, List.splitOn_eq_singleton ht, hne]

/-- A token before a delimiter. -/
lemma tokens_append {t : List UInt8} (hne : t ≠ []) (ht : delim ∉ t) :
    tokens delim (t ++ delim :: s) = t :: tokens delim s := by
  simp [tokens, List.splitOn_append_cons_self, List.splitOn_eq_singleton ht, hne]

/-- What a string with a token looks like: delimiters, the token, and then nothing or a delimiter
with the rest behind it. -/
lemma strtok_cases {t rest : List UInt8} (h : strtok delim s = some (t, rest)) :
    t ≠ [] ∧ delim ∉ t ∧ ∃ n, s = List.replicate n delim ++ (t ++ delim :: rest) ∨
      s = List.replicate n delim ++ t ∧ rest = [] := by
  unfold strtok at h
  have hstart : ∃ n, s.takeWhile (· == delim) = List.replicate n delim := by
    refine ⟨_, List.eq_replicate_iff.2 ⟨rfl, fun c hc => ?_⟩⟩
    simpa using List.mem_takeWhile_imp hc
  have hs := List.takeWhile_append_dropWhile (p := (· == delim)) (l := s)
  cases hdrop : s.dropWhile (· == delim) with
  | nil => simp [hdrop] at h
  | cons c s' =>
    rw [hdrop] at h hs
    have hc : c ≠ delim := by
      have hhead := List.head_dropWhile_not (· == delim) (l := s) (by simp [hdrop])
      simpa [hdrop] using hhead
    simp only [Option.some.injEq, Prod.mk.injEq] at h
    obtain ⟨ht, hrest⟩ := h
    have hsplit := List.takeWhile_append_dropWhile (p := (· != delim)) (l := c :: s')
    have hfirst : t ≠ [] := by
      rw [← ht, List.takeWhile_cons_of_pos (by simpa using hc)]
      exact List.cons_ne_nil _ _
    have hnot : delim ∉ t := by
      rw [← ht]
      intro hmem
      simpa using List.mem_takeWhile_imp hmem
    obtain ⟨n, hn⟩ := hstart
    refine ⟨hfirst, hnot, n, ?_⟩
    rw [ht] at hsplit
    rw [hn] at hs
    cases hleft : (c :: s').dropWhile (· != delim) with
    | nil =>
      right
      rw [hleft, List.append_nil] at hsplit
      rw [hleft] at hrest
      exact ⟨by rw [hsplit, hs], hrest.symm⟩
    | cons d r =>
      left
      have hd : d = delim := by
        have hhead := List.head_dropWhile_not (· != delim) (l := c :: s') (by simp [hleft])
        simpa [hleft] using hhead
      rw [hleft, hd] at hsplit
      rw [hleft] at hrest
      rw [← hs, ← hsplit, ← hrest, List.tail_cons]

/-- A token and what is left are parts of the string. -/
lemma subset_of_strtok {t rest : List UInt8} (h : strtok delim s = some (t, rest)) :
    t ⊆ s ∧ rest ⊆ s := by
  obtain ⟨-, -, n, rfl | ⟨rfl, rfl⟩⟩ := strtok_cases h
  · constructor
    · intro c hc
      simp [hc]
    · intro c hc
      simp [hc]
  · exact ⟨List.subset_append_right _ _, List.nil_subset _⟩

/-- Delimiters at the start do not count. -/
lemma tokens_replicate (n : ℕ) (s : List UInt8) :
    tokens delim (List.replicate n delim ++ s) = tokens delim s := by
  induction n with
  | zero => rfl
  | succ n ih => rw [List.replicate_succ, List.cons_append, tokens_cons_delim, ih]

/-- `strtok` returns the first token and leaves the others. -/
lemma tokens_of_strtok {t rest : List UInt8} (h : strtok delim s = some (t, rest)) :
    tokens delim s = t :: tokens delim rest := by
  obtain ⟨hne, hnot, n, hs | ⟨hs, hrest⟩⟩ := strtok_cases h
  · rw [hs, tokens_replicate, tokens_append hne hnot]
  · rw [hs, hrest, tokens_replicate, tokens_of_not_mem hne hnot, tokens_nil]

/-- `strtok` returns `NULL` if there is no token. -/
lemma tokens_eq_nil_iff : tokens delim s = [] ↔ strtok delim s = none := by
  constructor
  · intro h
    rcases htok : strtok delim s with _ | ⟨t, rest⟩
    · rfl
    · rw [tokens_of_strtok htok] at h
      exact absurd h (List.cons_ne_nil _ _)
  · intro h
    unfold strtok at h
    cases hdrop : s.dropWhile (· == delim) with
    | nil => rw [← tokens_dropWhile, hdrop, tokens_nil]
    | cons c s' => simp [hdrop] at h

/-- `strtok` finds the first token. -/
lemma strtok_of_tokens {t : List UInt8} {ts : List (List UInt8)} (h : tokens delim s = t :: ts) :
    ∃ rest, strtok delim s = some (t, rest) ∧ tokens delim rest = ts := by
  rcases htok : strtok delim s with _ | ⟨t', rest⟩
  · rw [tokens_eq_nil_iff.2 htok] at h
    cases h
  · rw [tokens_of_strtok htok] at h
    obtain ⟨rfl, hts⟩ := List.cons.inj h
    exact ⟨rest, rfl, hts⟩

/-- A string that starts with a token and a delimiter. -/
lemma strtok_replicate {t : List UInt8} (hne : t ≠ []) (ht : delim ∉ t) (n : ℕ) (rest : List UInt8) :
    strtok delim (List.replicate n delim ++ (t ++ delim :: rest)) = some (t, rest) := by
  have hdrop : (List.replicate n delim ++ (t ++ delim :: rest)).dropWhile (· == delim) =
      t ++ delim :: rest := by
    rw [List.dropWhile_append_of_pos (by simp +contextual)]
    cases t with
    | nil => exact absurd rfl hne
    | cons c t =>
      have hc : c ≠ delim := fun heq => ht (by simp [heq])
      rw [List.cons_append, List.dropWhile_cons_of_neg (by simpa using hc)]
  have hpos : ∀ c ∈ t, (c != delim) = true := by
    intro c hc
    simpa using fun heq : c = delim => ht (heq ▸ hc)
  have htake : (t ++ delim :: rest).takeWhile (· != delim) = t := by
    rw [List.takeWhile_append_of_pos hpos, List.takeWhile_cons_of_neg (by simp), List.append_nil]
  have hleft : (t ++ delim :: rest).dropWhile (· != delim) = delim :: rest := by
    rw [List.dropWhile_append_of_pos hpos, List.dropWhile_cons_of_neg (by simp)]
  unfold strtok
  rw [hdrop]
  cases t with
  | nil => exact absurd rfl hne
  | cons c t =>
    rw [List.cons_append] at htake hleft ⊢
    simp only [htake, hleft, List.tail_cons]

/-- The first of several tokens is found before anything that stands behind them. -/
lemma strtok_append {t : List UInt8} {ts : List (List UInt8)} (h : tokens delim s = t :: ts)
    (hts : ts ≠ []) (u : List UInt8) :
    ∃ rest, strtok delim (s ++ u) = some (t, rest ++ u) ∧ tokens delim rest = ts := by
  obtain ⟨rest, htok, hrest⟩ := strtok_of_tokens h
  obtain ⟨hne, hnot, n, hs | ⟨-, hnil⟩⟩ := strtok_cases htok
  · refine ⟨rest, ?_, hrest⟩
    rw [hs, List.append_assoc, List.append_assoc, List.cons_append]
    exact strtok_replicate hne hnot n (rest ++ u)
  · rw [hnil, tokens_nil] at hrest
    exact absurd hrest.symm hts

/-- A token that does not reach into what stands behind a string ends with a delimiter in the
string. -/
lemma strtok_append_cases {x : UInt8} {u t rest : List UInt8} (hx : x ≠ delim) (ht : x ∉ t)
    (h : strtok delim (s ++ x :: u) = some (t, rest)) :
    ∃ n s', s = List.replicate n delim ++ (t ++ delim :: s') ∧ rest = s' ++ x :: u := by
  obtain ⟨-, -, n, hs | ⟨hs, -⟩⟩ := strtok_cases h
  · have hs' : s ++ x :: u = List.replicate n delim ++ (t ++ [delim]) ++ rest := by simp [hs]
    have hmem : x ∉ List.replicate n delim ++ (t ++ [delim]) := by
      simp only [List.mem_append, List.mem_replicate, List.mem_singleton, not_or]
      exact ⟨fun hr => hx hr.2, ht, hx⟩
    rcases List.append_eq_append_iff.1 hs' with ⟨a, ha, hu⟩ | ⟨s', hs'', hrest⟩
    · cases a with
      | nil => exact ⟨n, [], by simpa using ha.symm, by simpa using hu.symm⟩
      | cons y a =>
        obtain ⟨rfl, -⟩ := List.cons.inj hu
        exact absurd (ha ▸ by simp) hmem
    · exact ⟨n, s', by simpa using hs'', hrest⟩
  · have hmem : x ∈ List.replicate n delim ++ t := hs ▸ by simp
    rcases List.mem_append.1 hmem with hr | hr
    · exact absurd (List.mem_replicate.1 hr).2 hx
    · exact absurd hr ht

/-- A token that does not reach into what stands behind a string is a token of the string. -/
lemma tokens_of_strtok_append {x : UInt8} {u t rest : List UInt8} (hx : x ≠ delim) (ht : x ∉ t)
    (h : strtok delim (s ++ x :: u) = some (t, rest)) :
    ∃ s', rest = s' ++ x :: u ∧ tokens delim s = t :: tokens delim s' := by
  obtain ⟨hne, hnot, -⟩ := strtok_cases h
  obtain ⟨n, s', rfl, hrest⟩ := strtok_append_cases hx ht h
  exact ⟨s', hrest, by rw [tokens_replicate, tokens_append hne hnot]⟩

/-- There is a token in a string with a byte that is no delimiter. -/
lemma strtok_ne_none {x : UInt8} (hx : x ≠ delim) (hmem : x ∈ s) : strtok delim s ≠ none := by
  intro hnone
  have hdrop : s.dropWhile (· == delim) = [] := by
    unfold strtok at hnone
    split at hnone
    · assumption
    · cases hnone
  have := List.dropWhile_eq_nil_iff.1 hdrop x hmem
  exact hx (by simpa using this)

end Tokens

/-! ## Numbers -/

/-- `isspace` of the C locale. -/
def isSpace (c : UInt8) : Bool :=
  c == 32 || (9 ≤ c && c ≤ 13)

/-- `isdigit`. -/
def isDigit (c : UInt8) : Bool :=
  48 ≤ c && c ≤ 57

/-- The number that the digits at the start of a string stand for. -/
def decimal (s : List UInt8) : ℕ :=
  (s.takeWhile isDigit).foldl (fun n c => 10 * n + (c.toNat - 48)) 0

/-- `atol`, which is `strtol` to the base ten: white space, a sign, digits, and the nearest bound of
`long` for what does not fit. -/
def atol (s : List UInt8) : Int :=
  match s.dropWhile isSpace with
  | 45 :: s => max (-(decimal s : Int)) (-2 ^ 63)
  | 43 :: s => min (decimal s : Int) (2 ^ 63 - 1)
  | s => min (decimal s : Int) (2 ^ 63 - 1)

/-- `atoi`: the conversion of the `long` to `int`. -/
def atoi (s : List UInt8) : Int :=
  Int.bmod (atol s) (2 ^ 32)

/-- The result of `atol` is a `long`. -/
lemma atol_mem (s : List UInt8) : -2 ^ 63 ≤ atol s ∧ atol s < 2 ^ 63 := by
  unfold atol
  split
  · constructor
    · exact le_max_right _ _
    · omega
  · omega
  · omega

end CString
