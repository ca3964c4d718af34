import Mathlib.Tactic
import Mathlib.Algebra.Order.BigOperators.Group.List

/-!
# Regions of an address space

What a process has been given by the system is a list of regions, no two of which overlap, below the
end of the address space.  `AddressSpace.grant` adds a region if it is free, and
`AddressSpace.release` gives the regions at a base back; both keep the two properties, which are
fields of the structure.

An address lies in one region at most (`AddressSpace.eq_of_contains`), and regions of one length are
not more than fit below the end (`AddressSpace.length_mul_le`).
-/

/-- The addresses from `base` on, `len` many. -/
structure Region where
  base : ℕ
  len : ℕ
deriving DecidableEq

namespace Region

/-- The address is one of the region. -/
def Contains (r : Region) (a : ℕ) : Prop :=
  r.base ≤ a ∧ a < r.base + r.len

/-- One region ends before the other begins. -/
def Apart (r s : Region) : Prop :=
  r.base + r.len ≤ s.base ∨ s.base + s.len ≤ r.base

instance (r s : Region) : Decidable (r.Apart s) := inferInstanceAs (Decidable (_ ∨ _))

instance : Std.Symm Apart := ⟨fun _ _ => Or.symm⟩

/-- Regions that are apart have no address in common. -/
lemma Apart.not_contains {r s : Region} (h : r.Apart s) {a : ℕ} (ha : r.Contains a) :
    ¬s.Contains a := by
  unfold Apart at h
  unfold Contains at *
  omega

end Region

/-- The regions a process holds below `top`.  No region begins at the null address. -/
structure AddressSpace (top : ℕ) where
  /-- The regions. -/
  regions : List Region
  /-- They lie between the null address and the end. -/
  within : ∀ r ∈ regions, 0 < r.base ∧ r.base + r.len ≤ top
  /-- No two of them overlap. -/
  apart : regions.Pairwise Region.Apart

namespace AddressSpace

variable {top : ℕ}

/-- Nothing has been granted. -/
def empty (top : ℕ) : AddressSpace top where
  regions := []
  within _ h := absurd h List.not_mem_nil
  apart := List.Pairwise.nil

/-- The region is free. -/
def Free (m : AddressSpace top) (r : Region) : Prop :=
  (0 < r.base ∧ r.base + r.len ≤ top) ∧ ∀ s ∈ m.regions, r.Apart s

instance (m : AddressSpace top) (r : Region) : Decidable (m.Free r) :=
  inferInstanceAs (Decidable (_ ∧ _))

/-- The region at a base, if it is free; `none` is the answer of a system that is out of memory. -/
def grant (m : AddressSpace top) (base : Option ℕ) (len : ℕ) : Option (ℕ × AddressSpace top) :=
  match base with
  | none => none
  | some b =>
    if h : m.Free ⟨b, len⟩ then
      some (b, {
        regions := ⟨b, len⟩ :: m.regions
        within := by
          intro r hr
          rcases List.mem_cons.1 hr with rfl | hr
          · exact h.1
          · exact m.within r hr
        apart := List.pairwise_cons.2 ⟨h.2, m.apart⟩ })
    else
      none

/-- The regions at a base are given back. -/
def release (m : AddressSpace top) (base : ℕ) : AddressSpace top where
  regions := m.regions.filter fun r => r.base ≠ base
  within r hr := m.within r (List.mem_of_mem_filter hr)
  apart := m.apart.sublist List.filter_sublist

/-- A region that has been granted was free, and is now held with the others. -/
lemma grant_spec {m m' : AddressSpace top} {base : Option ℕ} {len b : ℕ}
    (h : m.grant base len = some (b, m')) :
    base = some b ∧ m.Free ⟨b, len⟩ ∧ m'.regions = ⟨b, len⟩ :: m.regions := by
  unfold grant at h
  cases base with
  | none => cases h
  | some b' =>
    simp only at h
    split at h
    · next hfree =>
      cases h
      exact ⟨rfl, hfree, rfl⟩
    · cases h

/-- A free region is granted. -/
lemma grant_of_free {m : AddressSpace top} {len b : ℕ} (h : m.Free ⟨b, len⟩) :
    ∃ m', m.grant (some b) len = some (b, m') := by
  unfold grant
  simp only [dif_pos h]
  exact ⟨_, rfl⟩

lemma mem_release {m : AddressSpace top} {base : ℕ} {r : Region} :
    r ∈ (m.release base).regions ↔ r ∈ m.regions ∧ r.base ≠ base := by
  simp [release]

/-- An address lies in one region at most. -/
lemma eq_of_contains (m : AddressSpace top) {r s : Region} (hr : r ∈ m.regions) (hs : s ∈ m.regions)
    {a : ℕ} (ha : r.Contains a) (ha' : s.Contains a) : r = s := by
  by_contra hne
  exact (m.apart.forall hr hs hne).not_contains ha ha'

/-- The addresses of regions that are apart can be counted region by region. -/
lemma exists_cells (l : List Region) (h : l.Pairwise Region.Apart) :
    ∃ F : Finset ℕ, F.card = (l.map Region.len).sum ∧ ∀ a ∈ F, ∃ r ∈ l, r.Contains a := by
  induction l with
  | nil => exact ⟨∅, rfl, by simp⟩
  | cons r l ih =>
    obtain ⟨hr, hl⟩ := List.pairwise_cons.1 h
    obtain ⟨F, hcard, hF⟩ := ih hl
    have hdisj : Disjoint (Finset.Ico r.base (r.base + r.len)) F := by
      refine Finset.disjoint_left.2 fun a ha haF => ?_
      obtain ⟨s, hs, has⟩ := hF a haF
      exact (hr s hs).not_contains (Finset.mem_Ico.1 ha) has
    refine ⟨Finset.Ico r.base (r.base + r.len) ∪ F, ?_, ?_⟩
    · rw [Finset.card_union_of_disjoint hdisj, hcard, Nat.card_Ico, List.map_cons, List.sum_cons]
      omega
    · intro a ha
      rcases Finset.mem_union.1 ha with ha | ha
      · exact ⟨r, List.mem_cons_self, Finset.mem_Ico.1 ha⟩
      · obtain ⟨s, hs, has⟩ := hF a ha
        exact ⟨s, List.mem_cons_of_mem r hs, has⟩

/-- The regions fit below the end. -/
lemma sum_len_le (m : AddressSpace top) : (m.regions.map Region.len).sum ≤ top := by
  obtain ⟨F, hcard, hF⟩ := exists_cells m.regions m.apart
  rw [← hcard]
  refine (Finset.card_le_card (t := Finset.range top) fun a ha => ?_).trans_eq
    (Finset.card_range top)
  obtain ⟨r, hr, hra⟩ := hF a ha
  exact Finset.mem_range.2 (hra.2.trans_le (m.within r hr).2)

/-- Regions of one length are not more than fit below the end. -/
lemma length_mul_le (m : AddressSpace top) {bases : List ℕ} {len : ℕ} (hnodup : bases.Nodup)
    (hmem : ∀ b ∈ bases, (⟨b, len⟩ : Region) ∈ m.regions) : bases.length * len ≤ top := by
  have hnodup' : (bases.map fun b => (⟨b, len⟩ : Region)).Nodup :=
    hnodup.map fun b b' h => congrArg Region.base h
  have hsub : (bases.map fun b => (⟨b, len⟩ : Region)) ⊆ m.regions := by
    intro r hr
    obtain ⟨b, hb, rfl⟩ := List.mem_map.1 hr
    exact hmem b hb
  obtain ⟨l, hperm, hl⟩ := hnodup'.subperm hsub
  calc bases.length * len = ((bases.map fun b => (⟨b, len⟩ : Region)).map Region.len).sum := by
        simp [Function.comp_def]
    _ = (l.map Region.len).sum := ((hperm.map Region.len).sum_eq).symm
    _ ≤ (m.regions.map Region.len).sum := (hl.map Region.len).sum_le_sum fun _ _ => Nat.zero_le _
    _ ≤ top := m.sum_len_le

end AddressSpace
