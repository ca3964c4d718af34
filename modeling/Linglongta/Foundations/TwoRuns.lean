import Mathlib.SetTheory.Cardinal.Finite
import Mathlib.Tactic

/-!
# Two runs with different hidden inputs

A run of a program has an input that its caller chooses and a hidden one: what an uninitialised
variable holds, what lies in the memory behind a buffer.  For a fixed chosen input the program is a
function of the hidden one, and its result is `Determined` if any two runs give the same result.

A program that never loses information cannot have a determined result while it keeps only a part of
its state, unless the part it drops has room for all hidden inputs (`not_determined_of_injective`).
-/

namespace TwoRuns

variable {α β γ : Type*}

/-- Any two runs give the same result. -/
def Determined (f : α → β) : Prop :=
  ∀ x y, f x = f y

/-- What is determined through an injective presentation is determined. -/
lemma Determined.of_comp {f : α → β} {g : β → γ} (hg : Function.Injective g)
    (h : Determined (g ∘ f)) : Determined f :=
  fun x y => hg (h x y)

/-- A determined result stays determined if fewer runs are looked at. -/
lemma Determined.comp {f : β → γ} (h : Determined f) (g : α → β) : Determined (f ∘ g) :=
  fun x y => h (g x) (g y)

/-- If the dropped part and the kept part of the final state together determine the hidden input,
and there are more hidden inputs than values of the dropped part, then the kept part is not
determined. -/
lemma not_determined_of_injective [Finite β] (dropped : α → β) {kept : α → γ}
    (hinj : Function.Injective fun x => (dropped x, kept x)) (hcard : Nat.card β < Nat.card α) :
    ¬Determined kept := by
  intro hdet
  have hdropped : Function.Injective dropped := fun x y hxy => hinj (Prod.ext hxy (hdet x y))
  exact absurd (Nat.card_le_card_of_injective dropped hdropped) (Nat.not_le.2 hcard)

/-- The 32-bit words are the numbers below `2 ^ 32`. -/
def wordEquiv : UInt32 ≃ Fin (2 ^ 32) where
  toFun := UInt32.toFin
  invFun := UInt32.ofFin
  left_inv _ := rfl
  right_inv _ := rfl

/-- There are finitely many words. -/
instance finiteWord : Finite UInt32 := Finite.of_equiv _ wordEquiv.symm

/-- The number of words. -/
lemma card_word : Nat.card UInt32 = 2 ^ 32 := by
  rw [Nat.card_congr wordEquiv, Nat.card_eq_fintype_card, Fintype.card_fin]

/-- There are more pairs of words than words. -/
lemma card_word_lt_card_pair : Nat.card UInt32 < Nat.card (UInt32 × UInt32) := by
  rw [Nat.card_prod, card_word]
  norm_num

end TwoRuns
