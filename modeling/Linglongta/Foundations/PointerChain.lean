import Mathlib.Data.List.Nodup
import Mathlib.Tactic

/-!
# Chains of pointers

A memory holds at each location a pointer to an item or nothing, and each item has a location of
its own, where the pointer to its successor stands.  `Holds next m l xs` says that the pointers
that begin at the location `l` lead through the items `xs` and end there.

Three updates change such a chain: a new item is put in at a location of the chain
(`Holds.insert`), an item is taken out (`Holds.erase`), and the chain of another location is hung
to the end (`Holds.append`).  The location at which a chain stops is followed through all three.
-/

namespace PointerChain

variable {L E : Type} (next : E → L)

/-- The pointers that begin at a location lead through the given items. -/
def Follows (m : L → Option E) : L → List E → Prop
  | _, [] => True
  | l, x :: xs => m l = some x ∧ Follows m (next x) xs

/-- The location reached behind the given items. -/
def stop : L → List E → L
  | l, [] => l
  | _, x :: xs => stop (next x) xs

/-- The locations of a chain. -/
def cells (l : L) (xs : List E) : List L := l :: xs.map next

/-- The pointers that begin at a location lead through the given items and end behind them. -/
structure Holds (m : L → Option E) (l : L) (xs : List E) : Prop where
  /-- They lead through the items. -/
  follows : Follows next m l xs
  /-- They end behind them. -/
  stops : m (stop next l xs) = none

variable {next} {m m' : L → Option E} {l a b : L} {xs ys : List E} {e : E}

lemma stop_append (l : L) (xs ys : List E) :
    stop next l (xs ++ ys) = stop next (stop next l xs) ys := by
  induction xs generalizing l with
  | nil => rfl
  | cons x xs ih => exact ih (next x)

/-- Where a chain that is not empty stops does not depend on where it begins. -/
lemma stop_of_ne_nil (h : ys ≠ []) (a b : L) : stop next a ys = stop next b ys := by
  cases ys with
  | nil => exact absurd rfl h
  | cons y ys => rfl

lemma stop_mem_cells (l : L) (xs : List E) : stop next l xs ∈ cells next l xs := by
  induction xs generalizing l with
  | nil => exact List.mem_cons_self
  | cons x xs ih =>
    have htail : stop next (next x) xs ∈ next x :: xs.map next := ih (next x)
    exact List.mem_cons_of_mem l htail

lemma follows_append (l : L) (xs ys : List E) :
    Follows next m l (xs ++ ys) ↔ Follows next m l xs ∧ Follows next m (stop next l xs) ys := by
  induction xs generalizing l with
  | nil => simp [Follows, stop]
  | cons x xs ih => simp [Follows, stop, ih, and_assoc]

lemma holds_append (l : L) (xs ys : List E) :
    Holds next m l (xs ++ ys) ↔ Follows next m l xs ∧ Holds next m (stop next l xs) ys := by
  constructor
  · rintro ⟨hf, hs⟩
    rw [follows_append] at hf
    rw [stop_append] at hs
    exact ⟨hf.1, hf.2, hs⟩
  · rintro ⟨hx, hf, hs⟩
    exact ⟨(follows_append l xs ys).2 ⟨hx, hf⟩, by rwa [stop_append]⟩

/-- Only the cells of a chain matter. -/
lemma Follows.congr (h : ∀ a ∈ cells next l xs, m' a = m a) (hf : Follows next m l xs) :
    Follows next m' l xs := by
  induction xs generalizing l with
  | nil => trivial
  | cons x xs ih =>
    refine ⟨(h l List.mem_cons_self).trans hf.1, ih (fun a ha => ?_) hf.2⟩
    exact h a (List.mem_cons_of_mem l ha)

lemma Holds.congr (h : ∀ a ∈ cells next l xs, m' a = m a) (hc : Holds next m l xs) :
    Holds next m' l xs :=
  ⟨hc.follows.congr h, (h _ (stop_mem_cells l xs)).trans hc.stops⟩

/-- The location where a chain stops is not read on the way. -/
lemma Follows.update_stop [DecidableEq L] (hnodup : (cells next l xs).Nodup)
    (hf : Follows next m l xs) (v : Option E) :
    Follows next (Function.update m (stop next l xs) v) l xs := by
  induction xs generalizing l with
  | nil => trivial
  | cons x xs ih =>
    obtain ⟨hl, htail⟩ := List.nodup_cons.1 hnodup
    have hne : l ≠ stop next (next x) xs := fun h => hl (h ▸ stop_mem_cells (next x) xs)
    exact ⟨(Function.update_of_ne hne _ _).trans hf.1, ih htail hf.2⟩

/-- The chain of a location is the chain of any other location with the same pointer. -/
lemma Holds.move (hab : m' b = m a) (h : ∀ y ∈ ys, m' (next y) = m (next y))
    (hc : Holds next m a ys) : Holds next m' b ys := by
  cases ys with
  | nil => exact ⟨trivial, hab.trans hc.stops⟩
  | cons y ys =>
    have hcells : ∀ c ∈ cells next (next y) ys, m' c = m c := by
      intro c hc
      rcases List.mem_cons.1 hc with rfl | hc
      · exact h y List.mem_cons_self
      · obtain ⟨z, hz, rfl⟩ := List.mem_map.1 hc
        exact h z (List.mem_cons_of_mem y hz)
    exact ⟨⟨hab.trans hc.follows.1, hc.follows.2.congr hcells⟩,
      (hcells _ (stop_mem_cells (next y) ys)).trans hc.stops⟩

/-- The pointer with which a chain begins is empty only if the chain is. -/
lemma Holds.eq_none_iff (hc : Holds next m a ys) : m a = none ↔ ys = [] := by
  cases ys with
  | nil => exact ⟨fun _ => rfl, fun _ => hc.stops⟩
  | cons y ys => simp [hc.follows.1]

/-- The pointer with which a chain begins. -/
lemma Holds.head (hc : Holds next m a ys) : m a = ys.head? := by
  cases ys with
  | nil => exact hc.stops
  | cons y ys => exact hc.follows.1

/-! ## Updates -/

/-- The locations of the items behind a location of the chain are not that location. -/
lemma next_ne_stop (hnodup : (cells next l (xs ++ ys)).Nodup) {y : E} (hy : y ∈ ys) :
    next y ≠ stop next l xs := by
  intro h
  have hsplit : (cells next l xs ++ ys.map next).Nodup := by
    simpa [cells] using hnodup
  exact (List.nodup_append.1 hsplit).2.2 _ (stop_mem_cells l xs) _ (List.mem_map_of_mem hy) h.symm

lemma cells_left_nodup (hnodup : (cells next l (xs ++ ys)).Nodup) : (cells next l xs).Nodup := by
  have hsplit : (cells next l xs ++ ys.map next).Nodup := by
    simpa [cells] using hnodup
  exact (List.nodup_append.1 hsplit).1

section update

variable [DecidableEq L]

/-- A new item is put in behind the items `xs`. -/
lemma Holds.insert (hnodup : (cells next l (xs ++ ys)).Nodup)
    (he : next e ∉ cells next l (xs ++ ys)) (hc : Holds next m l (xs ++ ys)) :
    Holds next (Function.update (Function.update m (next e) (m (stop next l xs)))
      (stop next l xs) (some e)) l (xs ++ e :: ys) := by
  obtain ⟨hx, hy⟩ := (holds_append l xs ys).1 hc
  have hxs : ∀ c ∈ cells next l xs, c ∈ cells next l (xs ++ ys) := by
    intro c hc
    simp only [cells, List.map_append, List.mem_cons, List.mem_append] at hc ⊢
    tauto
  have hne : next e ≠ stop next l xs := fun h => he (h ▸ hxs _ (stop_mem_cells l xs))
  refine (holds_append l xs (e :: ys)).2 ⟨?_, ?_⟩
  · refine Follows.update_stop (cells_left_nodup hnodup) (hx.congr fun c hc => ?_) _
    exact Function.update_of_ne (fun h : c = next e => he (h ▸ hxs c hc)) _ _
  · have htail : Holds next (Function.update (Function.update m (next e) (m (stop next l xs)))
        (stop next l xs) (some e)) (next e) ys := by
      refine hy.move ?_ fun y hmem => ?_
      · rw [Function.update_of_ne hne, Function.update_self]
      · rw [Function.update_of_ne (next_ne_stop hnodup hmem), Function.update_of_ne]
        intro h
        exact he (h ▸ List.mem_cons_of_mem l (List.mem_map_of_mem (List.mem_append_right xs hmem)))
    exact ⟨⟨Function.update_self _ _ _, htail.follows⟩, htail.stops⟩

/-- The item behind the items `xs` is taken out. -/
lemma Holds.erase (hnodup : (cells next l (xs ++ e :: ys)).Nodup)
    (hc : Holds next m l (xs ++ e :: ys)) :
    Holds next (Function.update m (stop next l xs) (m (next e))) l (xs ++ ys) := by
  obtain ⟨hx, hy⟩ := (holds_append l xs (e :: ys)).1 hc
  have htail : Holds next m (next e) ys := ⟨hy.follows.2, hy.stops⟩
  refine (holds_append l xs ys).2 ⟨hx.update_stop (cells_left_nodup hnodup) _, ?_⟩
  refine htail.move (Function.update_self _ _ _) fun y hmem => ?_
  exact Function.update_of_ne (next_ne_stop hnodup (List.mem_cons_of_mem e hmem)) _ _

/-- The chain of the location `a` is hung to the end of the chain of `l`. -/
lemma Holds.append (hnodup : (cells next l (xs ++ ys)).Nodup) (hx : Holds next m l xs)
    (hy : Holds next m a ys) :
    Holds next (Function.update m (stop next l xs) (m a)) l (xs ++ ys) := by
  refine (holds_append l xs ys).2 ⟨hx.follows.update_stop (cells_left_nodup hnodup) _, ?_⟩
  refine hy.move (Function.update_self _ _ _) fun y hmem => ?_
  exact Function.update_of_ne (next_ne_stop hnodup hmem) _ _

end update

/-! ## Where the chain stops afterwards -/

lemma stop_insert (l : L) (xs ys : List E) (e : E) :
    stop next l (xs ++ e :: ys) = if ys = [] then next e else stop next l (xs ++ ys) := by
  rw [stop_append, stop_append]
  split
  · rename_i h
    rw [h]
    rfl
  · rename_i h
    exact stop_of_ne_nil h _ _

lemma stop_erase (l : L) (xs ys : List E) (e : E) :
    stop next l (xs ++ ys) =
      if ys = [] then stop next l xs else stop next l (xs ++ e :: ys) := by
  rw [stop_insert]
  split
  · rename_i h
    rw [h, List.append_nil]
  · rfl

end PointerChain
