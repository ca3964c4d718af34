import Mathlib.Data.List.Basic

/-!
# A log that was cut

Each step of a run writes some entries to a log, and of the log a prefix is left.  `exists_cut` says
how far the run has come as the log shows it: a first part of the run is there with all its
entries, and of the next step there may be some of its entries, but not all.  The first part is the
longest one, since every beginning of the run whose entries are left belongs to it
(`Cut.prefix_done`).  `Cut.length_le` bounds the number of steps that are missing.
-/

namespace Linglongta.CutLog

variable {E I : Type} {items : E → List I} {done rest : List E} {left part : List I}

/-- The log shows the steps `done` of a run and the entries `part` of the step after them. -/
structure Cut (items : E → List I) (left : List I) (done rest : List E) (part : List I) : Prop where
  /-- What is left of the log. -/
  left_eq : left = done.flatMap items ++ part
  /-- The step after them has not written all its entries. -/
  next : rest = [] ∧ part = [] ∨ ∃ e rest', rest = e :: rest' ∧ part <+: items e ∧ part ≠ items e

/-- Every prefix of the log shows a beginning of the run. -/
lemma exists_cut (run : List E) (hleft : left <+: run.flatMap items) :
    ∃ done rest part, run = done ++ rest ∧ Cut items left done rest part := by
  induction run generalizing left with
  | nil => exact ⟨[], [], [], rfl, List.prefix_nil.1 hleft, Or.inl ⟨rfl, rfl⟩⟩
  | cons e run ih =>
    rw [List.flatMap_cons] at hleft
    by_cases hpart : left <+: items e ∧ left ≠ items e
    · exact ⟨[], e :: run, left, rfl, rfl, Or.inr ⟨e, run, rfl, hpart⟩⟩
    · have hwhole : items e <+: left := by
        rcases List.prefix_or_prefix_of_prefix hleft (List.prefix_append _ _) with hle | hge
        · exact (not_and_not_right.1 hpart hle) ▸ List.prefix_refl left
        · exact hge
      obtain ⟨left', rfl⟩ := hwhole
      obtain ⟨done, rest, part, rfl, hcut⟩ := ih ((List.prefix_append_right_inj _).1 hleft)
      exact ⟨e :: done, rest, part, rfl, by rw [hcut.left_eq]; simp, hcut.next⟩

/-- A beginning of the run whose entries are left is shown by the log. -/
lemma Cut.prefix_done (hcut : Cut items left done rest part) {pre : List E}
    (hpre : pre <+: done ++ rest) (hleft : pre.flatMap items <+: left) : pre <+: done := by
  rcases List.prefix_or_prefix_of_prefix hpre (List.prefix_append done rest) with hle | ⟨more, rfl⟩
  · exact hle
  · have hmore : more <+: rest := (List.prefix_append_right_inj done).1 hpre
    rw [hcut.left_eq, List.flatMap_append, List.prefix_append_right_inj] at hleft
    cases more with
    | nil => exact (List.append_nil done).symm ▸ List.prefix_refl done
    | cons e more =>
      rcases hcut.next with ⟨rfl, -⟩ | ⟨e', rest', rfl, hpart, hne⟩
      · cases List.prefix_nil.1 hmore
      · -- the entries of the next step would all be there
        obtain ⟨rfl, -⟩ := List.cons_prefix_cons.1 hmore
        rw [List.flatMap_cons] at hleft
        have hall : items e <+: part := (List.prefix_append _ _).trans hleft
        exact absurd (hpart.eq_of_length_le hall.length_le) hne

/-- Steps that write something write at least one entry each. -/
lemma length_le_flatMap {steps lost : List E} (hsub : lost.Sublist steps)
    (hlost : ∀ e ∈ lost, items e ≠ []) : lost.length ≤ (steps.flatMap items).length := by
  induction hsub with
  | slnil => exact Nat.zero_le _
  | @cons lost steps e _ ih =>
    rw [List.flatMap_cons, List.length_append]
    have hrest := ih hlost
    omega
  | @cons_cons lost steps e _ ih =>
    rw [List.flatMap_cons, List.length_append, List.length_cons]
    have hrest := ih fun x hx => hlost x (List.mem_cons_of_mem e hx)
    have hpos := List.length_pos_iff.2 (hlost e List.mem_cons_self)
    omega

/-- The steps that have written something and that the log does not show are no more than the entries
that are missing. -/
lemma Cut.length_le (hcut : Cut items left done rest part) {lost : List E}
    (hsub : lost.Sublist rest) (hlost : ∀ e ∈ lost, items e ≠ []) :
    left.length + lost.length ≤ ((done ++ rest).flatMap items).length := by
  rw [hcut.left_eq, List.flatMap_append, List.length_append, List.length_append, Nat.add_assoc]
  apply Nat.add_le_add_left
  rcases hcut.next with ⟨rfl, rfl⟩ | ⟨e, rest', rfl, hpart, hne⟩
  · simpa using length_le_flatMap hsub hlost
  · have hlt : part.length < (items e).length :=
      Nat.lt_of_le_of_ne hpart.length_le fun heq => hne (hpart.eq_of_length heq)
    rw [List.flatMap_cons, List.length_append]
    rcases List.sublist_cons_iff.1 hsub with hsub' | ⟨lost', rfl, hsub'⟩
    · have hrest := length_le_flatMap hsub' hlost
      omega
    · have hrest := length_le_flatMap hsub' fun x hx => hlost x (List.mem_cons_of_mem e hx)
      rw [List.length_cons]
      omega

end Linglongta.CutLog
