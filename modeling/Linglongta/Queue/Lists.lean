import Linglongta.Queue.Stailq

/-!
# The queues are lists

A client that puts an item into a list only when the item is in none, takes items out only where
they are, and does not take from an empty list, cannot tell the pointers of `bsdqueue.h` from
lists: `Lists.Step` is the meaning of each macro on lists, with these obligations as its premises,
and `list_run_refines` follows a whole run of macros over any number of lists.
-/

namespace Linglongta

open PointerChain

namespace Stailq

variable {H E : Type} [DecidableEq H] [DecidableEq E] {s : Stailq H E} {q : H → List E} {h : H}
  {l : Loc H E} {xs ys : List E} {p e : E}

/-! ## What the loops read -/

/-- The new last item is hung where a new item at that place would be. -/
lemma Rep.insertTail_eq (hr : Rep s h xs) (e : E) :
    s.insertTail h e = s.link h (s.stqhLast h) e := by
  have hnone : s.slot (s.stqhLast h) = none := by
    rw [hr.last]
    exact hr.chain.stops
  simp only [insertTail, Stailq.link, hnone, if_true]
  rfl

omit [DecidableEq H] in
/-- The loop of `STAILQ_REMOVE` stops at the item in front of the one that is taken out. -/
lemma before_eq (hf : Follows Loc.next s.slot l (xs ++ p :: e :: ys)) (hxs : e ∉ xs) (hp : e ≠ p)
    {c : E} (hc : s.slot l = some c) {fuel : ℕ} (hfuel : xs.length < fuel) :
    s.before e fuel c = some p := by
  induction xs generalizing l c fuel with
  | nil =>
    obtain ⟨n, rfl⟩ : ∃ n, fuel = n + 1 := ⟨fuel - 1, by simp at hfuel; omega⟩
    obtain rfl : c = p := by
      have := hc.symm.trans hf.1
      injection this
    have hnext : s.next c = some e := hf.2.1
    rw [before, hnext]
    simp
  | cons x xs ih =>
    obtain ⟨n, rfl⟩ : ∃ n, fuel = n + 1 := ⟨fuel - 1, by simp at hfuel; omega⟩
    obtain rfl : c = x := by
      have := hc.symm.trans hf.1
      injection this
    obtain ⟨d, hd, hde⟩ : ∃ d, s.next c = some d ∧ d ≠ e := by
      cases xs with
      | nil => exact ⟨p, hf.2.1, hp.symm⟩
      | cons y xs => exact ⟨y, hf.2.1, fun h => hxs (by simp [h])⟩
    rw [before, hd]
    simp only [hde, if_false]
    exact ih hf.2 (fun h => hxs (List.mem_cons_of_mem c h)) hd (by simp at hfuel; omega)

omit [DecidableEq H] [DecidableEq E] in
/-- Behind the last of some items. -/
lemma stop_concat (l : Loc H E) (xs : List E) (p : E) :
    stop Loc.next l (xs ++ [p]) = .next p := by
  rw [stop_append]
  rfl

/-- `STAILQ_REMOVE` takes out an item of the list. -/
lemma Represents.remove_eq (hr : Represents s q) (hq : q h = xs ++ e :: ys) {fuel : ℕ}
    (hfuel : xs.length < fuel) :
    s.remove fuel h e = some (s.unlink h (stop Loc.next (.first h) xs) e) := by
  have hchain := (hr.rep h).chain
  have hnodup := hr.nodup h
  rw [hq] at hchain hnodup
  rcases List.eq_nil_or_concat' xs with rfl | ⟨zs, p, rfl⟩
  · have hfirst : s.first h = some e := hchain.follows.1
    rw [remove, if_pos hfirst, removeHead, hfirst]
    rfl
  · rw [List.append_assoc, List.singleton_append] at hchain hnodup
    have hzs : e ∉ zs ∧ e ≠ p := by
      have := List.nodup_append.1 hnodup
      refine ⟨fun hmem => this.2.2 e hmem e (by simp) rfl, ?_⟩
      rintro rfl
      simp at this
    obtain ⟨c, hc, hce⟩ : ∃ c, s.first h = some c ∧ c ≠ e := by
      cases zs with
      | nil => exact ⟨p, hchain.follows.1, hzs.2.symm⟩
      | cons z zs => exact ⟨z, hchain.follows.1, fun h => hzs.1 (by simp [h])⟩
    have hbefore : s.before e fuel c = some p :=
      before_eq hchain.follows hzs.1 hzs.2 hc (by simp at hfuel; omega)
    rw [remove, hc, if_neg (by simpa using hce), stop_concat]
    simp [hbefore]

omit [DecidableEq H] [DecidableEq E] in
/-- `STAILQ_LAST` is the last item. -/
lemma Rep.last_eq (hr : Rep s h xs) : s.last h = xs.getLast? := by
  have hfirst : s.first h = none ↔ xs = [] := hr.chain.eq_none_iff
  unfold Stailq.last
  rcases List.eq_nil_or_concat' xs with rfl | ⟨zs, p, rfl⟩
  · rw [if_pos (hfirst.2 rfl)]
    rfl
  · rw [if_neg (hfirst.not.2 (by simp)), hr.last, stop_concat]
    simp

omit [DecidableEq H] [DecidableEq E] in
/-- The loop of `list_addr` goes on by as many items as there are. -/
lemma advance_eq (hc : Holds Loc.next s.slot l xs) {m : ℕ} (hm : m ≤ xs.length) :
    s.advance m (s.slot l) = some (xs[m]?) := by
  induction m generalizing l xs with
  | zero =>
    rw [advance, hc.head]
    cases xs <;> rfl
  | succ m ih =>
    cases xs with
    | nil => simp at hm
    | cons x xs =>
      rw [advance, hc.follows.1]
      have htail : Holds Loc.next s.slot (.next x) xs := ⟨hc.follows.2, hc.stops⟩
      simpa [next] using ih htail (by simpa using hm)

omit [DecidableEq H] [DecidableEq E] in
/-- `list_addr` returns the item at the given position, and null behind the end. -/
lemma Rep.listAddr_eq (hr : Rep s h xs) (hlen : xs.length < 2 ^ 31) (n : ℤ) :
    s.listAddr h n = some (xs[(asInt32 n).toNat]?) := by
  have hsize : toInt32 (s.size h) = xs.length := by
    rw [hr.size, Nat.mod_eq_of_lt (by omega), toInt32_of_lt hlen]
  simp only [listAddr, hsize]
  split
  · rename_i hle
    rw [List.getElem?_eq_none (by omega)]
  · exact advance_eq hr.chain (by omega)

omit [DecidableEq H] [DecidableEq E] in
/-- `list_foreach` visits the items in their order. -/
lemma listForeach_eq (hc : Holds Loc.next s.slot l xs) {fuel : ℕ} (hfuel : xs.length ≤ fuel) :
    s.listForeach fuel (s.slot l) = some xs := by
  induction xs generalizing l fuel with
  | nil =>
    rw [hc.head]
    cases fuel <;> rfl
  | cons x xs ih =>
    obtain ⟨n, rfl⟩ : ∃ n, fuel = n + 1 := ⟨fuel - 1, by simp at hfuel; omega⟩
    have htail : Holds Loc.next s.slot (.next x) xs := ⟨hc.follows.2, hc.stops⟩
    rw [hc.follows.1, listForeach, next, ih htail (by simpa using hfuel)]
    rfl

/-- `list_clear` frees the items in their order and leaves an empty list. -/
lemma Represents.listClear_eq (hr : Represents s q) (hq : q h = xs) :
    ∃ s', (∀ fuel ≥ xs.length, listClear h fuel s = some (s', xs)) ∧
      Represents s' (Function.update q h []) := by
  have hfirst : s.first h = xs.head? := by
    rw [← hq]
    exact (hr.rep h).chain.head
  induction xs generalizing s q with
  | nil =>
    refine ⟨s, fun fuel _ => by cases fuel <;> simp [listClear, hfirst], ?_⟩
    rwa [Function.update_eq_iff.2 ⟨hq.symm, fun _ _ => rfl⟩]
  | cons x xs ih =>
    have hr' := hr.unlink ((List.nil_append (x :: xs)).symm ▸ hq)
    have hq' : Function.update q h ([] ++ xs) h = xs := Function.update_self _ _ _
    obtain ⟨s', hclear, hrep⟩ := ih hr' hq' (by rw [← hq']; exact (hr'.rep h).chain.head)
    refine ⟨s', fun fuel hfuel => ?_, by simpa using hrep⟩
    obtain ⟨n, rfl⟩ : ∃ n, fuel = n + 1 := ⟨fuel - 1, by simp at hfuel; omega⟩
    rw [listClear, hfirst]
    simp only [List.head?_cons]
    rw [show Loc.first h = stop Loc.next (Loc.first h) [] from rfl,
      hclear n (by simpa using hfuel)]
    rfl

end Stailq

/-! ## Lists -/

/-- The macros of `bsdqueue.h` that a client calls. -/
inductive ListOp (H E : Type)
  /-- `STAILQ_INIT`, as in `list_new`. -/
  | init (h : H)
  /-- `list_push`. -/
  | push (h : H) (e : E)
  /-- `list_unshift`. -/
  | unshift (h : H) (e : E)
  /-- `list_insert`. -/
  | insert (h : H) (pos e : E)
  /-- `list_shift`. -/
  | shift (h : H)
  /-- `list_pop`. -/
  | pop (h : H)
  /-- `list_remove`. -/
  | remove (h : H) (e : E)
  /-- `list_cat`. -/
  | cat (h₁ h₂ : H)
  /-- `list_last`. -/
  | last (h : H)
  /-- `list_addr`. -/
  | addr (h : H) (n : ℤ)
  /-- `list_foreach`. -/
  | foreach (h : H)
  /-- `list_clear`. -/
  | clear (h : H)

section runs

variable {H E : Type} [DecidableEq H] [DecidableEq E]

/-- A macro on the pointers, with the items the client gets to see. -/
def Stailq.exec (fuel : ℕ) (s : Stailq H E) : ListOp H E → Option (Stailq H E × List E)
  | .init h => some (s.init h, [])
  | .push h e => some (s.insertTail h e, [])
  | .unshift h e => some (s.insertHead h e, [])
  | .insert h pos e => some (s.insertAfter h pos e, [])
  | .shift h => (s.listShift h).map fun r => (r.1, [r.2])
  | .pop h => (s.listPop fuel h).map fun r => (r.1, [r.2])
  | .remove h e => (s.remove fuel h e).map fun s' => (s', [])
  | .cat h₁ h₂ => some (s.concat h₁ h₂, [])
  | .last h => some (s, (s.last h).toList)
  | .addr h n => (s.listAddr h n).map fun r => (s, r.toList)
  | .foreach h => (s.listForeach fuel (s.first h)).map fun r => (s, r)
  | .clear h => Stailq.listClear h fuel s

/-- A run of macros on the pointers. -/
def Stailq.run (fuel : ℕ) : Stailq H E → List (ListOp H E) → Option (Stailq H E × List (List E))
  | s, [] => some (s, [])
  | s, op :: ops => do
    let r ← s.exec fuel op
    let rs ← Stailq.run fuel r.1 ops
    return (rs.1, r.2 :: rs.2)

/-- What a macro means for the lists of the heads, what the client gets to see, and what is asked
of the client. -/
inductive Lists.Step (q : H → List E) : ListOp H E → List E → (H → List E) → Prop
  /-- A head is made empty. -/
  | init (h : H) : Step q (.init h) [] (Function.update q h [])
  /-- A new last item. -/
  | push (h : H) (e : E) (hfree : ∀ h', e ∉ q h') :
      Step q (.push h e) [] (Function.update q h (q h ++ [e]))
  /-- A new first item. -/
  | unshift (h : H) (e : E) (hfree : ∀ h', e ∉ q h') :
      Step q (.unshift h e) [] (Function.update q h (e :: q h))
  /-- A new item behind another one. -/
  | insert (h : H) (pos e : E) (xs ys : List E) (hq : q h = xs ++ pos :: ys)
      (hfree : ∀ h', e ∉ q h') :
      Step q (.insert h pos e) [] (Function.update q h (xs ++ pos :: e :: ys))
  /-- The first item goes. -/
  | shift (h : H) (e : E) (ys : List E) (hq : q h = e :: ys) :
      Step q (.shift h) [e] (Function.update q h ys)
  /-- The last item goes. -/
  | pop (h : H) (e : E) (xs : List E) (hq : q h = xs ++ [e]) :
      Step q (.pop h) [e] (Function.update q h xs)
  /-- An item of the list goes. -/
  | remove (h : H) (e : E) (xs ys : List E) (hq : q h = xs ++ e :: ys) :
      Step q (.remove h e) [] (Function.update q h (xs ++ ys))
  /-- A list is hung to another one. -/
  | cat (h₁ h₂ : H) (hne : h₁ ≠ h₂) :
      Step q (.cat h₁ h₂) [] (Function.update (Function.update q h₁ (q h₁ ++ q h₂)) h₂ [])
  /-- The last item, if there is one. -/
  | last (h : H) : Step q (.last h) (q h).getLast?.toList q
  /-- The item at a position, which becomes an `int`; the first one for a negative position. -/
  | addr (h : H) (n : ℤ) (hlen : (q h).length < 2 ^ 31) :
      Step q (.addr h n) ((q h)[(asInt32 n).toNat]?).toList q
  /-- All items. -/
  | foreach (h : H) : Step q (.foreach h) (q h) q
  /-- All items go. -/
  | clear (h : H) : Step q (.clear h) (q h) (Function.update q h [])

/-- A run of macros on lists. -/
inductive Lists.Run : (H → List E) → List (ListOp H E) → List (List E) → (H → List E) → Prop
  /-- No macro is called. -/
  | nil (q : H → List E) : Run q [] [] q
  /-- A macro and then the others. -/
  | cons {q q' q'' : H → List E} {op : ListOp H E} {ops : List (ListOp H E)} {r : List E}
      {rs : List (List E)} (hstep : Lists.Step q op r q') (hrun : Run q' ops rs q'') :
      Run q (op :: ops) (r :: rs) q''

open Stailq

variable {s : Stailq H E} {q q' : H → List E} {op : ListOp H E} {r : List E}

/-- A macro does on the pointers what it means for the lists. -/
lemma Lists.Step.exec (hstep : Lists.Step q op r q') (hr : s.Represents q) :
    ∃ N s', (∀ fuel ≥ N, s.exec fuel op = some (s', r)) ∧ s'.Represents q' := by
  cases hstep with
  | init h => exact ⟨0, _, fun _ _ => rfl, hr.init h⟩
  | push h e hfree =>
    have hlink := hr.link (List.append_nil (q h)).symm hfree
    refine ⟨0, _, fun _ _ => rfl, ?_⟩
    rw [(hr.rep h).insertTail_eq, (hr.rep h).last]
    exact hlink
  | unshift h e hfree => exact ⟨0, _, fun _ _ => rfl, hr.link (List.nil_append (q h)).symm hfree⟩
  | insert h pos e xs ys hq hfree =>
    have hlink := hr.link (hq.trans (List.append_cons xs pos ys)) hfree
    rw [stop_concat] at hlink
    rw [List.append_assoc] at hlink
    exact ⟨0, _, fun _ _ => rfl, hlink⟩
  | shift h e ys hq =>
    have hfirst : s.first h = some e := by
      rw [show s.first h = (q h).head? from (hr.rep h).chain.head, hq]
      rfl
    refine ⟨0, _, fun _ _ => ?_, hr.unlink (hq.trans (List.nil_append (e :: ys)).symm)⟩
    simp [Stailq.exec, listShift, removeHead, hfirst, stop]
  | pop h e xs hq =>
    have hlast : s.last h = some e := by
      rw [(hr.rep h).last_eq, hq]
      simp
    have hunlink := hr.unlink hq
    rw [List.append_nil] at hunlink
    refine ⟨xs.length + 1, _, fun fuel hfuel => ?_, hunlink⟩
    have hremove := hr.remove_eq hq (show xs.length < fuel by omega)
    simp [Stailq.exec, listPop, hlast, hremove]
  | remove h e xs ys hq =>
    refine ⟨xs.length + 1, _, fun fuel hfuel => ?_, hr.unlink hq⟩
    have hremove := hr.remove_eq hq (show xs.length < fuel by omega)
    simp [Stailq.exec, hremove]
  | cat h₁ h₂ hne => exact ⟨0, _, fun _ _ => rfl, hr.concat hne⟩
  | last h =>
    refine ⟨0, _, fun _ _ => ?_, hr⟩
    rw [Stailq.exec, (hr.rep h).last_eq]
  | addr h n hlen =>
    refine ⟨0, _, fun _ _ => ?_, hr⟩
    rw [Stailq.exec, (hr.rep h).listAddr_eq hlen]
    rfl
  | foreach h =>
    refine ⟨(q h).length, _, fun fuel hfuel => ?_, hr⟩
    rw [Stailq.exec, first, listForeach_eq (hr.rep h).chain hfuel]
    rfl
  | clear h =>
    obtain ⟨s', hclear, hrep⟩ := hr.listClear_eq rfl
    exact ⟨(q h).length, s', hclear, hrep⟩

/-- A run of macros does on the pointers what it means for the lists. -/
lemma Lists.Run.run {ops : List (ListOp H E)} {rs : List (List E)} (hrun : Lists.Run q ops rs q')
    (hr : s.Represents q) :
    ∃ N s', (∀ fuel ≥ N, s.run fuel ops = some (s', rs)) ∧ s'.Represents q' := by
  induction hrun generalizing s with
  | nil q => exact ⟨0, s, fun _ _ => rfl, hr⟩
  | cons hstep hrun ih =>
    obtain ⟨N, s₁, hexec, hr₁⟩ := hstep.exec hr
    obtain ⟨M, s₂, hrest, hr₂⟩ := ih hr₁
    refine ⟨max N M, s₂, fun fuel hfuel => ?_, hr₂⟩
    rw [Stailq.run, hexec fuel (le_trans (le_max_left N M) hfuel)]
    simp [hrest fuel (le_trans (le_max_right N M) hfuel)]

/-- The memory after all heads have been initialised; the pointers in the items are those that
`mem_alloc` has left there. -/
def Stailq.fresh (junk : E → Option E) : Stailq H E where
  slot
    | .first _ => none
    | .next e => junk e
  stqhLast := Loc.first
  size := fun _ => 0

omit [DecidableEq H] [DecidableEq E] in
lemma Stailq.fresh_represents (junk : E → Option E) :
    (Stailq.fresh junk : Stailq H E).Represents fun _ => [] where
  rep _ := ⟨⟨trivial, rfl⟩, rfl, rfl⟩
  nodup _ := List.nodup_nil
  disjoint _ _ _ _ he := absurd he List.not_mem_nil

end runs

end Linglongta
