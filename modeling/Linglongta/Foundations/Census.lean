import Mathlib.Data.Fintype.Card
import Mathlib.Tactic

/-!
# Counting the threads at a place

A system of threads assigns a place to each of finitely many threads.  The census of a property is
the number of threads whose place has it.  A step of one thread changes the place of that thread,
and `census_update` says what this does to the census.
-/

namespace Census

variable {T α : Type} [Fintype T] (p : α → Prop) [DecidablePred p]

/-- The number of threads whose place satisfies `p`. -/
def census (f : T → α) : ℕ :=
  (Finset.univ.filter fun t => p (f t)).card

variable {p}

/-- The census after one thread has moved. -/
lemma census_update [DecidableEq T] (f : T → α) (t : T) (x : α) :
    census p (Function.update f t x) + (if p (f t) then 1 else 0) =
      census p f + (if p x then 1 else 0) := by
  unfold census
  have hsplit : ∀ g : T → α, (Finset.univ.filter fun u => p (g u)).card =
      ((Finset.univ.erase t).filter fun u => p (g u)).card + if p (g t) then 1 else 0 := by
    intro g
    rw [← Finset.insert_erase (Finset.mem_univ t), Finset.filter_insert]
    split
    · rw [Finset.card_insert_of_notMem (by simp)]
      simp
    · simp
  have hrest : ((Finset.univ.erase t).filter fun u => p (Function.update f t x u)) =
      (Finset.univ.erase t).filter fun u => p (f u) := by
    refine Finset.filter_congr fun u hu => ?_
    rw [Function.update_of_ne (Finset.ne_of_mem_erase hu)]
  rw [hsplit (Function.update f t x), hsplit f, hrest, Function.update_self]
  omega

/-- Moving the threads without changing the property does not change the census. -/
lemma census_congr {f g : T → α} (h : ∀ t, p (g t) ↔ p (f t)) : census p g = census p f := by
  unfold census
  congr 1
  exact Finset.filter_congr fun t _ => h t

/-- A thread at the place is counted. -/
lemma census_pos {f : T → α} {t : T} (h : p (f t)) : 0 < census p f :=
  Finset.card_pos.2 ⟨t, Finset.mem_filter.2 ⟨Finset.mem_univ t, h⟩⟩

/-- No thread is at the place. -/
lemma census_eq_zero {f : T → α} (h : ∀ t, ¬p (f t)) : census p f = 0 := by
  refine Finset.card_eq_zero.2 (Finset.filter_eq_empty_iff.2 fun t _ => h t)

/-- The census of two places. -/
lemma census_add [DecidableEq T] {q r : α → Prop} [DecidablePred q] [DecidablePred r]
    (hor : ∀ x, r x ↔ p x ∨ q x) (hnot : ∀ x, p x → ¬q x) (f : T → α) :
    census r f = census p f + census q f := by
  unfold census
  have hdisj : Disjoint (Finset.univ.filter fun t => p (f t))
      (Finset.univ.filter fun t => q (f t)) :=
    Finset.disjoint_filter.2 fun t _ => hnot (f t)
  rw [← Finset.card_union_of_disjoint hdisj, ← Finset.filter_or]
  congr 1
  exact Finset.filter_congr fun t _ => hor (f t)

end Census
