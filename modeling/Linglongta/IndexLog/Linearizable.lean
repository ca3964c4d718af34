import Linglongta.IndexLog.Alone

/-!
# The journal is linearizable

`journal_linearizable` says that the threads cannot tell that they are not alone: in every
interleaving, and whatever the kernel does with the writes, the calls return what they return when
they run one after another.

`journal_synced` says what a flush is good for while every `write` is complete: the items that were
appended before it was made are in the file when it has returned, and what else the file has are
items that were appended since, in the order of `done`.
-/

namespace Linglongta

open Prog

section Calls

variable {m : LogMem} {j : Journal}

/-- Calls that run one after another are those of a journal. -/
lemma LogMem.Is.serial {T : Type} (hm : m.Is j) {xs : List (T × WriteCall × Int)} {m' : LogMem}
    (hs : journalMonitor.Serial m xs m') :
    m'.Is (j.run (xs.map fun x => x.2.1)) ∧
      j.rets (xs.map fun x => x.2.1) = xs.map fun x => x.2.2 := by
  induction hs with
  | nil => exact ⟨hm, rfl⟩
  | @snoc m₁ m₂ xs t c a _ hexec ih =>
    obtain ⟨hm₁, hrets⟩ := ih
    obtain ⟨m', hexec', hm'⟩ := hm₁.exec_prog c
    obtain ⟨rfl, -, rfl⟩ := Outcome.returned.inj (hexec.symm.trans hexec')
    rw [List.map_append, List.map_append, ← hrets]
    exact ⟨by rw [Journal.run, List.foldl_append]; exact hm', Journal.rets_concat _ _ _⟩

lemma journalMonitor_keeps : journalMonitor.Keeps fun m => ∃ j, LogMem.Is m j := by
  rintro c m ⟨j, hm⟩
  obtain ⟨m', hexec, hm'⟩ := hm.exec_prog c
  exact ⟨_, m', hexec, _, hm'⟩

/-- `index_logger_create` makes a journal. -/
lemma LogMem.is_create (outs : ℕ → Option ℕ) : (LogMem.create outs).Is (Journal.create outs) := by
  have hsame : SameItems { bufPtr := List.replicate logBufSize 0 } {} :=
    ⟨rfl, rfl, by simp, List.length_replicate, Nat.zero_le _⟩
  exact ⟨⟨rfl, Or.inl ⟨rfl, rfl, rfl⟩, hsame, hsame⟩, rfl, rfl⟩

end Calls

/-- Several threads append to one journal and flush it.  In every interleaving of their accesses to
the logger, and whatever the kernel does with each `write`: the calls return what they return when
they run one after another in the order in which they release `working_lock`, and when none of them
is inside, the file is the one of that run; a thread that is done has got the value of its last call;
no copy passes the end of a buffer, no assertion fails and no threads wait for each other. -/
theorem journal_linearizable {T : Type} [DecidableEq T] (outs : ℕ → Option ℕ)
    {s : Calls journalMonitor T}
    (hs : Relation.ReflTransGen Calls.Step (Calls.initial (LogMem.create outs)) s) :
    (Journal.create outs).rets (s.done.map fun x => x.2.1) = (s.done.map fun x => x.2.2) ∧
    ((∀ t, (BufName.working, LockMode.ex) ∉ (s.threads t).held) →
      s.world.file = ((Journal.create outs).run (s.done.map fun x => x.2.1)).writer.file) ∧
    (∀ t a, (s.threads t).prog = ret a →
      (s.doneBy t).map Prod.fst = s.made t ∧ ∀ x, (s.doneBy t).getLast? = some x → x.2 = a) ∧
    (∀ t b off src, (s.threads t).prog.action =
      some (.call (I := logger) (.assign (.memcpy b off src))) → off + src.length ≤ logBufSize) ∧
    (∀ t, (s.threads t).prog ≠ abort) ∧
    (∀ S, ¬Deadlocked s.threads S) ∧
    ((∃ t, ∀ a, (s.threads t).prog ≠ ret a) →
      ∃ t q, Advances LogMem.handle s.threads s.world t q) := by
  have hi := Calls.inv ⟨_, LogMem.is_create outs⟩ journalMonitor_keeps hs
  obtain ⟨m₁, hserial, -, hout, hin⟩ := hi.serial
  obtain ⟨hm₁, hrets⟩ := (LogMem.is_create outs).serial hserial
  refine ⟨hrets, fun hno => ?_, fun t a hret => hi.returned hret, ?_,
    hi.ne_abort journalMonitor_keeps, hi.not_deadlocked, hi.exists_advances journalMonitor_keeps⟩
  · rw [hout hno]
    exact hm₁.file
  · intro t b off src hact
    obtain ⟨m₂, c, a, hserial₂, ha, hsafe⟩ := hi.safe_inside (hi.inside_of_call hact)
    obtain ⟨hm₂, -⟩ := (LogMem.is_create outs).serial hserial₂
    exact (hsafe _ _ (hm₂.safe_prog c)).inBounds b off src (Option.some.inj (ha.symm.trans hact))

/-- A thread that is done makes a call and runs to its end, if no thread holds a lock. -/
lemma exists_call {T : Type} [DecidableEq T] {s : Calls journalMonitor T} {j : Journal}
    (hm : s.world.Is j) (hheld : ∀ u, (s.threads u).held = []) {t : T} {c : WriteCall}
    (hprog : (s.threads t).prog = journalMonitor.prog c) :
    ∃ s', Relation.ReflTransGen Calls.Step s s' ∧
      s'.threads = Function.update s.threads t ⟨ret (j.ret c), []⟩ ∧ s'.world.Is (j.call c) ∧
      s'.made = s.made := by
  obtain ⟨m', hexec, hm'⟩ := hm.exec_prog c
  obtain ⟨s', hs', hthreads, hworld, hmade⟩ := Calls.exists_run_alone (t := t)
    (fun u _ => hheld u) (by rw [hprog, hheld]; exact hexec)
  exact ⟨s', hs', hthreads, hworld ▸ hm', hmade⟩

/-- One thread is about to append an item, the other one to flush; they go on one after the other. -/
theorem journal_linearizable_two_threads : ∃ s : Calls journalMonitor Bool,
    Relation.ReflTransGen Calls.Step (Calls.initial (LogMem.create fun _ => completeWrite)) s ∧
    s.made true = [.append Session.sampleItem] ∧ s.made false = [.flush] ∧
    (∀ t, (s.threads t).prog = ret 0) ∧
    s.world.file = ((Journal.create fun _ => completeWrite).run
      (s.done.map fun x => x.2.1)).writer.file ∧ ∀ S, ¬Deadlocked s.threads S := by
  let s₂ : Calls journalMonitor Bool :=
    ((Calls.initial (LogMem.create fun _ => completeWrite)).start true
      (.append Session.sampleItem)).start false .flush
  have h₂ : Relation.ReflTransGen Calls.Step
      (Calls.initial (LogMem.create fun _ => completeWrite)) s₂ :=
    (Relation.ReflTransGen.single (Calls.Step.start _ true _ _ rfl)).tail
      (Calls.Step.start _ false _ _ rfl)
  have hheld : ∀ u, (s₂.threads u).held = [] := by
    intro u
    cases u <;> rfl
  obtain ⟨s₃, h₃, hthreads₃, hm₃, hmade₃⟩ := exists_call (s := s₂) (t := true)
    (c := .append Session.sampleItem) (LogMem.is_create _) hheld rfl
  obtain ⟨s₄, h₄, hthreads₄, hm₄, hmade₄⟩ := exists_call (s := s₃) (t := false) (c := .flush) hm₃
    (fun u => by rw [hthreads₃]; cases u <;> rfl) (by rw [hthreads₃]; rfl)
  have hs := (h₂.trans h₃).trans h₄
  have hdone : ∀ t, s₄.threads t = ⟨ret 0, []⟩ := by
    intro t
    rw [hthreads₄, hthreads₃]
    cases t with
    | true => rfl
    | false =>
      rw [Function.update_self]
      congr 2
  obtain ⟨-, hfile, -, -, -, hlive, -⟩ := journal_linearizable _ hs
  refine ⟨s₄, hs, ?_, ?_, fun t => by rw [hdone], hfile fun t => ?_, hlive⟩
  · rw [hmade₄, hmade₃]
    rfl
  · rw [hmade₄, hmade₃]
    rfl
  · rw [hdone]
    exact List.not_mem_nil

/-! ## Complete writes -/

/-- The kernel takes every block in one `write`. -/
def Journal.Complete (j : Journal) : Prop :=
  ∀ n, ∃ k, j.outs n = some k ∧ logBufSize + logBufHeaderSize ≤ k

/-- The items of some calls, in their order. -/
def itemsOf {T : Type} (xs : List (T × WriteCall × Int)) : List IndexLogItem :=
  xs.flatMap fun x => x.2.1.items

section Complete

variable {j : Journal} {blocks : List (List IndexLogItem)} {pending : List IndexLogItem}

lemma Journal.Complete.completes (hj : j.Complete) (hi : j.writer.Inv blocks pending)
    (c : WriteCall) : j.writer.Completes (j.outs 0) c := by
  intro _
  obtain ⟨k, hk, hle⟩ := hj 0
  refine ⟨k, hk, le_trans ?_ hle⟩
  rw [hi.holds.count_eq]
  exact Nat.add_le_add_right hi.holds.fits _

lemma Journal.Complete.call (hj : j.Complete) (c : WriteCall) : (j.call c).Complete := by
  intro n
  unfold Journal.call
  split
  · exact hj (n + 1)
  · exact hj n

lemma count_append_pos {out : Option ℕ} {il : IndexLogger} {file : List UInt8} {ili : IndexLogItem}
    (hret : (indexLoggerAppend out il file ili).ret = 0) :
    0 < (indexLoggerAppend out il file ili).logger.workingBuffer.count := by
  unfold indexLoggerAppend at hret ⊢
  split
  · rename_i hfull
    simp only [if_pos hfull] at hret
    split at hret
    · rename_i hne
      exact absurd hret hne
    · rename_i hne
      rw [if_neg hne]
      simp [IndexLogger.putItem]
  · simp [IndexLogger.putItem]

/-- A call may write a block of items that were accepted before. -/
lemma Journal.Complete.step (hj : j.Complete) (hi : j.writer.Inv blocks pending) (c : WriteCall) :
    ∃ more pending', (j.call c).writer.Inv (blocks ++ more) pending' ∧
      (j.call c).writer.accepted = j.writer.accepted ++ c.items ∧
      (blocks ++ more).flatten <+: j.writer.accepted ∧ (c = .flush → pending' = []) := by
  obtain ⟨more, pending', hi', hacc, hflush⟩ := hi.step (hj.completes hi c)
  refine ⟨more, pending', hi', hacc, ?_, hflush⟩
  have hflat : (blocks ++ more).flatten ++ pending' = j.writer.accepted ++ c.items :=
    hi'.accepted.symm.trans hacc
  cases c with
  | flush =>
    rw [hflush rfl, List.append_nil] at hflat
    rw [hflat, WriteCall.items, List.append_nil]
  | append ili =>
    -- the item itself is pending
    have hret : (j.writer.call (j.outs 0) (.append ili)).ret = 0 := by
      by_contra hret
      have hlen := congrArg List.length hacc
      simp only [Writer.step, if_neg hret, WriteCall.items, List.length_append,
        List.length_singleton] at hlen
      omega
    have hcount := hi'.holds.count_eq
    have hpos : 0 < pending'.length := hcount ▸ count_append_pos hret
    obtain ⟨rest, y, rfl⟩ := (List.eq_nil_or_concat' pending').resolve_left
      (List.length_pos_iff.1 hpos)
    rw [← List.append_assoc] at hflat
    obtain ⟨heq, -⟩ := List.append_inj' hflat rfl
    exact ⟨rest, heq⟩

/-- Calls add blocks, and all that was accepted before a flush is in them. -/
lemma Journal.Complete.run (hj : j.Complete) (hi : j.writer.Inv blocks pending)
    (cs : List WriteCall) :
    ∃ more pending', (j.run cs).Complete ∧ (j.run cs).writer.Inv (blocks ++ more) pending' ∧
      (j.run cs).writer.accepted = j.writer.accepted ++ cs.flatMap WriteCall.items := by
  induction cs generalizing j blocks pending with
  | nil => exact ⟨[], pending, hj, by simpa [Journal.run] using hi, by simp [Journal.run]⟩
  | cons c cs ih =>
    obtain ⟨more, pending', hi', hacc, -, -⟩ := hj.step hi c
    obtain ⟨more', pending'', hj'', hi'', hacc'⟩ := ih (hj.call c) hi'
    refine ⟨more ++ more', pending'', hj'', ?_, ?_⟩
    · rw [← List.append_assoc]
      exact hi''
    · rw [List.flatMap_cons, ← List.append_assoc, ← hacc, ← hacc']
      rfl

/-- After a flush the file keeps all the items that were accepted before it. -/
lemma Journal.Complete.run_flush (hj : j.Complete) (hi : j.writer.Inv blocks pending)
    (cs ds : List WriteCall) :
    ∃ blocks' pending', (j.run (cs ++ .flush :: ds)).Complete ∧
      (j.run (cs ++ .flush :: ds)).writer.Inv blocks' pending' ∧
      (j.run (cs ++ .flush :: ds)).writer.accepted =
        j.writer.accepted ++ (cs ++ .flush :: ds).flatMap WriteCall.items ∧
      j.writer.accepted ++ cs.flatMap WriteCall.items <+: blocks'.flatten := by
  obtain ⟨more₁, pending₁, hj₁, hi₁, hacc₁⟩ := hj.run hi cs
  obtain ⟨more₂, pending₂, hi₂, hacc₂, -, hnil⟩ := hj₁.step hi₁ .flush
  obtain ⟨more₃, pending₃, hj₃, hi₃, hacc₃⟩ := (hj₁.call .flush).run hi₂ ds
  have hrun : j.run (cs ++ .flush :: ds) = ((j.run cs).call .flush).run ds := by
    simp only [Journal.run, List.foldl_append, List.foldl_cons]
  rw [hrun]
  refine ⟨_, pending₃, hj₃, hi₃, ?_, ?_⟩
  · rw [hacc₃, hacc₂, hacc₁]
    simp [WriteCall.items]
  · rw [← hacc₁, List.flatten_append]
    have hflat := hi₂.accepted
    rw [hnil rfl, List.append_nil, hacc₂] at hflat
    simp only [WriteCall.items, List.append_nil] at hflat
    rw [hflat]
    exact List.prefix_append _ _

end Complete

/-- The items of a part of the calls are among those of all. -/
lemma itemsOf_filter_sublist {T : Type} (p : T × WriteCall × Int → Bool)
    (xs : List (T × WriteCall × Int)) : (itemsOf (xs.filter p)).Sublist (itemsOf xs) := by
  induction xs with
  | nil => exact List.Sublist.refl _
  | cons x xs ih =>
    rw [List.filter_cons]
    split
    · exact (List.Sublist.refl _).append ih
    · exact ih.trans (List.sublist_append_right _ _)

/-- At every moment the file has blocks of items that are done, and it has all of those that were
done before a flush. -/
lemma exists_blocks {T : Type} [DecidableEq T] {outs : ℕ → Option ℕ}
    (hcomplete : (Journal.create outs).Complete) {s : Calls journalMonitor T}
    (hi : Calls.Inv (fun m => ∃ j, LogMem.Is m j) (LogMem.create outs) s)
    {xs ys : List (T × WriteCall × Int)} {t : T} {r : Int}
    (hdone : s.done = xs ++ (t, .flush, r) :: ys) :
    ∃ blocks : List (List IndexLogItem), s.world.file = journalBytes blocks ∧
      (∀ b ∈ blocks, BlockFits b) ∧ itemsOf xs <+: blocks.flatten ∧
      blocks.flatten <+: itemsOf s.done := by
  have hcalls : s.done.map (fun x => x.2.1) =
      (xs.map fun x => x.2.1) ++ .flush :: ys.map fun x => x.2.1 := by
    rw [hdone, List.map_append, List.map_cons]
  obtain ⟨blocks, pending, hj, hw, hacc, hflushed⟩ := hcomplete.run_flush Writer.inv_create
    (xs.map fun x => x.2.1) (ys.map fun x => x.2.1)
  rw [← hcalls] at hj hw hacc
  have hall : ((Journal.create outs).run (s.done.map fun x => x.2.1)).writer.accepted =
      itemsOf s.done := by
    rw [hacc, itemsOf, List.flatMap_map]
    rfl
  have hxs : itemsOf xs <+: blocks.flatten := by
    rw [List.flatMap_map] at hflushed
    exact hflushed
  by_cases hno : ∀ u, (BufName.working, LockMode.ex) ∉ (s.threads u).held
  · obtain ⟨m₁, hserial, -, hout, -⟩ := hi.serial
    obtain ⟨hm₁, -⟩ := (LogMem.is_create outs).serial hserial
    refine ⟨blocks, ?_, hw.fits, hxs, ?_⟩
    · rw [hout hno, hm₁.file, hw.file]
    · rw [← hall, hw.accepted]
      exact List.prefix_append _ _
  · push Not at hno
    obtain ⟨u, hlock⟩ := hno
    obtain ⟨m₂, c, a, hserial, -, hsafe⟩ := hi.safe_inside hlock
    obtain ⟨hm₂, -⟩ := (LogMem.is_create outs).serial hserial
    obtain ⟨more, pending', hw', -, hbefore, -⟩ := hj.step hw c
    rw [hall] at hbefore
    rcases (hsafe _ _ (hm₂.safe_prog c)).file with hfile | hfile
    · refine ⟨blocks, hfile.trans hw.file, hw.fits, hxs, ?_⟩
      rw [← hall, hw.accepted]
      exact List.prefix_append _ _
    · refine ⟨blocks ++ more, hfile.trans hw'.file, hw'.fits, hxs.trans ?_, hbefore⟩
      rw [List.flatten_append]
      exact List.prefix_append _ _

/-- A thread that is done makes a flush, which returns.  While every `write` is complete, and
whatever the other threads do meanwhile, the journal file then reads back as a sequence of items in
the order of `done`: all that was done before the flush was made is there, the items of each thread
in the order in which it has appended them, and nothing that was not appended is. -/
theorem journal_synced {T : Type} [DecidableEq T] {outs : ℕ → Option ℕ}
    (hcomplete : (Journal.create outs).Complete) {s s' : Calls journalMonitor T}
    (hs : Relation.ReflTransGen Calls.Step (Calls.initial (LogMem.create outs)) s)
    (hs' : Relation.ReflTransGen Calls.Step s s') {t : T} {a a' : Int}
    (hret : (s.threads t).prog = ret a) (hret' : (s'.threads t).prog = ret a')
    (hflush : s.made t ++ [.flush] <+: s'.made t) :
    ∃ items, (∀ n, fetchMany s'.world.file n indexLoggerOpen =
        (items.take n).map some ++ List.replicate (n - items.length) none) ∧
      itemsOf s.done <+: items ∧ items <+: itemsOf s'.done ∧
      (∀ u b, (s.threads u).prog = ret b → ((s.made u).flatMap WriteCall.items).Sublist items) ∧
      ∀ u, (s'.doneBy u).map Prod.fst <+: s'.made u := by
  have hi := Calls.inv ⟨_, LogMem.is_create outs⟩ journalMonitor_keeps hs
  have hi' := Calls.inv ⟨_, LogMem.is_create outs⟩ journalMonitor_keeps (hs.trans hs')
  obtain ⟨xs, r, ys, hdone⟩ := hi.done_since hi' (Calls.done_prefix hs') hret hret' hflush
  rw [← List.append_assoc] at hdone
  obtain ⟨blocks, hfile, hfits, hbefore, hall⟩ := exists_blocks hcomplete hi' hdone
  have hprefix : itemsOf s.done <+: blocks.flatten := by
    refine List.IsPrefix.trans ?_ hbefore
    rw [itemsOf, itemsOf, List.flatMap_append]
    exact List.prefix_append _ _
  refine ⟨blocks.flatten, fun n => ?_, hprefix, hall, fun u b hu => ?_, fun u => ?_⟩
  · rw [hfile, fetchMany_of_tailing n (Tailing.opened _) hfits]
    rfl
  · rw [← (hi.returned hu).1, Calls.doneBy, List.map_map, List.flatMap_map]
    exact (itemsOf_filter_sublist _ s.done).trans hprefix.sublist
  · rcases hi'.made_cases u with hmade | ⟨c, hmade⟩
    · rw [hmade]
    · rw [hmade]
      exact List.prefix_append _ _

/-- One thread has appended an item; the other one flushes the journal. -/
theorem journal_synced_one_item : ∃ (s s' : Calls journalMonitor Bool) (items : List IndexLogItem),
    Relation.ReflTransGen Calls.Step (Calls.initial (LogMem.create fun _ => completeWrite)) s ∧
    Relation.ReflTransGen Calls.Step s s' ∧ s.made true = [.append Session.sampleItem] ∧
    s'.made false = [.flush] ∧
    (∀ n, fetchMany s'.world.file n indexLoggerOpen =
      (items.take n).map some ++ List.replicate (n - items.length) none) ∧
    [Session.sampleItem].Sublist items := by
  have hcomplete : (Journal.create fun _ => completeWrite).Complete := fun n => ⟨_, rfl, le_rfl⟩
  let s₁ : Calls journalMonitor Bool :=
    (Calls.initial (LogMem.create fun _ => completeWrite)).start true (.append Session.sampleItem)
  have h₁ : Relation.ReflTransGen Calls.Step
      (Calls.initial (LogMem.create fun _ => completeWrite)) s₁ :=
    Relation.ReflTransGen.single (Calls.Step.start _ true _ _ rfl)
  obtain ⟨s₂, h₂, hthreads₂, hm₂, hmade₂⟩ := exists_call (s := s₁) (t := true)
    (c := .append Session.sampleItem) (LogMem.is_create _) (fun u => by cases u <;> rfl) rfl
  have hfalse : s₂.threads false = ⟨ret default, []⟩ := by
    rw [hthreads₂]
    rfl
  have h₃ : Calls.Step s₂ (s₂.start false .flush) :=
    Calls.Step.start _ false _ default (by rw [hfalse])
  have hthreads₃ : ∀ u, ((s₂.start false .flush).threads u).held = [] := by
    intro u
    cases u with
    | true =>
      rw [Calls.start_threads_of_ne (by decide), hthreads₂]
      rfl
    | false =>
      rw [Calls.start_threads_self, hfalse]
  obtain ⟨s₄, h₄, hthreads₄, hm₄, hmade₄⟩ := exists_call (s := s₂.start false .flush) (t := false)
    (c := .flush) hm₂ hthreads₃ (by rw [Calls.start_threads_self])
  have hmade : s₂.made false = [] := by
    rw [hmade₂]
    rfl
  have hmade' : s₄.made false = [.flush] := by
    rw [hmade₄, Calls.start_made_self, hmade]
    rfl
  have htrue : s₂.made true = [.append Session.sampleItem] := by
    rw [hmade₂]
    rfl
  obtain ⟨items, hfetch, -, -, hthread, -⟩ := journal_synced hcomplete (h₁.trans h₂)
    (Relation.ReflTransGen.head h₃ h₄) (t := false) (by rw [hfalse])
    (by rw [hthreads₄, Function.update_self]) (by rw [hmade, hmade']; exact List.prefix_rfl)
  refine ⟨s₂, s₄, items, h₁.trans h₂, Relation.ReflTransGen.head h₃ h₄, htrue, hmade', hfetch, ?_⟩
  have hitem := hthread true _ (by rw [hthreads₂, Function.update_self])
  rw [htrue] at hitem
  exact hitem

end Linglongta
