import Linglongta.Foundations.Program

/-!
# Runs come to rest

Whatever answers a program gets, it makes finitely many actions: to be the rest of a program is a
well-founded relation (`Prog.wellFounded_rest`).  A sequence that goes down along such a relation, or
stays, is constant from some time on (`exists_stable`).
-/

/-- What goes down along a well-founded relation, or stays, is constant in the end. -/
lemma exists_stable {A : Type*} {r : A → A → Prop} (hr : WellFounded r) {f : ℕ → A}
    (hf : ∀ n, f (n + 1) = f n ∨ r (f (n + 1)) (f n)) : ∃ N, ∀ n ≥ N, f n = f N := by
  obtain ⟨_, ⟨N, rfl⟩, hmin⟩ := hr.has_min (Set.range f) ⟨f 0, 0, rfl⟩
  refine ⟨N, fun n hn => ?_⟩
  induction n, hn using Nat.le_induction with
  | base => rfl
  | succ n _ ih =>
    rcases hf n with hstay | hdown
    · exact hstay.trans ih
    · rw [ih] at hdown
      exact absurd hdown (hmin _ ⟨n + 1, rfl⟩)

namespace Prog

variable {I : Interface} {α : Type}

/-- What is left of a program after its next action. -/
inductive Rest : Prog I α → Prog I α → Prop
  /-- A request was answered. -/
  | call (r : I.Req) (k : I.Resp r → Prog I α) (x : I.Resp r) : Rest (k x) (call r k)
  /-- A lock was taken. -/
  | lock (l : I.Lock) (m : LockMode) (k : Prog I α) : Rest k (lock l m k)
  /-- A lock was released. -/
  | unlock (l : I.Lock) (m : LockMode) (k : Prog I α) : Rest k (unlock l m k)

/-- No program goes on for ever. -/
lemma wellFounded_rest : WellFounded (Rest : Prog I α → Prog I α → Prop) := by
  refine ⟨fun p => ?_⟩
  induction p with
  | ret a => exact ⟨_, fun q hq => by cases hq⟩
  | abort => exact ⟨_, fun q hq => by cases hq⟩
  | call r k ih =>
    refine ⟨_, fun q hq => ?_⟩
    cases hq with
    | call _ _ x => exact ih x
  | lock l m k ih =>
    refine ⟨_, fun q hq => ?_⟩
    cases hq
    exact ih
  | unlock l m k ih =>
    refine ⟨_, fun q hq => ?_⟩
    cases hq
    exact ih

lemma Rest.ne {p q : Prog I α} (h : Rest p q) : p ≠ q := by
  rintro rfl
  exact wellFounded_rest.irrefl.irrefl p h

end Prog
