import Mathlib.Tactic
import Mathlib.Data.Finset.Card

/-!
# Exclusive ownership

Owners hold resources, and no resource is held by two owners.  A system that hands resources around
(an allocator with a free list, say) keeps this property when an owner hands over what it holds
(`Exclusive.transfer`), when some of what is held is dropped (`Exclusive.mono`), or when a resource
that nobody holds is given to one owner (`Exclusive.adopt`).  `Exclusive.card_le` is the pigeonhole
principle: as many owners need as many resources.
-/

/-- No resource is held by two owners. -/
def Exclusive {X R : Type} (owns : X → R → Prop) : Prop :=
  ∀ x y r, owns x r → owns y r → x = y

namespace Exclusive

variable {X R : Type} {owns owns' : X → R → Prop}

/-- What is held may be dropped. -/
lemma mono (he : Exclusive owns) (hsub : ∀ x r, owns' x r → owns x r) : Exclusive owns' :=
  fun x y r hx hy => he x y r (hsub x r hx) (hsub y r hy)

/-- One owner may hand over what it holds to another, and then holds nothing. -/
lemma transfer [DecidableEq X] (he : Exclusive owns) (a c : X)
    (hnew : ∀ x r, owns' x r → x ≠ a ∧ owns (if x = c then a else x) r) : Exclusive owns' := by
  intro x y r hx hy
  obtain ⟨hxa, hx'⟩ := hnew x r hx
  obtain ⟨hya, hy'⟩ := hnew y r hy
  have hxy := he _ _ r hx' hy'
  by_cases hxc : x = c <;> by_cases hyc : y = c
  · rw [hxc, hyc]
  · rw [if_pos hxc, if_neg hyc] at hxy
    exact absurd hxy.symm hya
  · rw [if_neg hxc, if_pos hyc] at hxy
    exact absurd hxy hxa
  · rwa [if_neg hxc, if_neg hyc] at hxy

/-- A resource that nobody holds may be given to one owner. -/
lemma adopt (he : Exclusive owns) (x₀ : X) (r₀ : R) (hfresh : ∀ x, ¬owns x r₀)
    (hnew : ∀ x r, owns' x r → x = x₀ ∧ r = r₀ ∨ owns x r) : Exclusive owns' := by
  intro x y r hx hy
  rcases hnew x r hx with ⟨rfl, rfl⟩ | hx'
  · rcases hnew y r hy with ⟨rfl, -⟩ | hy'
    · rfl
    · exact absurd hy' (hfresh y)
  · rcases hnew y r hy with ⟨-, rfl⟩ | hy'
    · exact absurd hx' (hfresh x)
    · exact he x y r hx' hy'

/-- Owners that each hold one of a set of resources are not more than the resources. -/
lemma card_le (he : Exclusive owns) (S : Finset X) (T : Finset R)
    (hS : ∀ x ∈ S, ∃ r ∈ T, owns x r) : S.card ≤ T.card := by
  rcases S.eq_empty_or_nonempty with rfl | ⟨x₀, hx₀⟩
  · simp
  obtain ⟨r₀, -, -⟩ := hS x₀ hx₀
  have : Nonempty R := ⟨r₀⟩
  choose! pick hpick howns using hS
  refine Finset.card_le_card_of_injOn pick hpick ?_
  intro x hx y hy hxy
  exact he x y (pick x) (howns x hx) (hxy ▸ howns y hy)

end Exclusive
