import Linglongta.Foundations.PointerChain
import Linglongta.Foundations.Integers

/-!
# The tail queues of `bsdqueue.h`

The macros of `bsdqueue.h` keep singly linked lists with a head that points to the first item, to
the place where the next item is to be hung, and counts the items.  The place is the address of a
pointer: that of `stqh_first` of the head, or that of `stqe_next` of an item.  `Stailq` is the
memory they work on, for any number of heads and items; a macro that follows a null pointer has the
value `none`.

The loops of `STAILQ_REMOVE`, `list_foreach` and `list_clear` are bounded by an argument.
-/

namespace Linglongta

/-- The addresses of the pointers to items. -/
inductive Loc (H E : Type)
  /-- `&head->stqh_first`. -/
  | first (h : H)
  /-- `&elm->field.stqe_next`. -/
  | next (e : E)
deriving DecidableEq

/-- The memory of the heads `H` and the items `E`. -/
structure Stailq (H E : Type) where
  /-- The pointers to items. -/
  slot : Loc H E → Option E
  /-- `stqh_last` of each head. -/
  stqhLast : H → Loc H E
  /-- `size` of each head, an `unsigned int`. -/
  size : H → ℕ

namespace Stailq

variable {H E : Type} [DecidableEq H] [DecidableEq E]

/-- `STAILQ_FIRST`. -/
def first (s : Stailq H E) (h : H) : Option E := s.slot (.first h)

/-- `STAILQ_NEXT`. -/
def next (s : Stailq H E) (e : E) : Option E := s.slot (.next e)

/-- The assignment of a pointer to an item. -/
def assign (s : Stailq H E) (l : Loc H E) (v : Option E) : Stailq H E :=
  { s with slot := Function.update s.slot l v }

/-- The assignment of `stqh_last`. -/
def assignLast (s : Stailq H E) (h : H) (l : Loc H E) : Stailq H E :=
  { s with stqhLast := Function.update s.stqhLast h l }

/-- The assignment of `size`. -/
def assignSize (s : Stailq H E) (h : H) (n : ℕ) : Stailq H E :=
  { s with size := Function.update s.size h (n % 2 ^ 32) }

/-- `STAILQ_INIT`. -/
def init (s : Stailq H E) (h : H) : Stailq H E :=
  ((s.assign (.first h) none).assignLast h (.first h)).assignSize h 0

/-- The assignments that put in the item `elm` at the location `l`, with the repair of `stqh_last`
and the count. -/
def link (s : Stailq H E) (h : H) (l : Loc H E) (elm : E) : Stailq H E :=
  let s₁ := s.assign (.next elm) (s.slot l)
  let s₂ := if s.slot l = none then s₁.assignLast h (.next elm) else s₁
  (s₂.assign l (some elm)).assignSize h (s.size h + 1)

/-- `STAILQ_INSERT_HEAD`, which is `list_unshift`. -/
def insertHead (s : Stailq H E) (h : H) (elm : E) : Stailq H E := s.link h (.first h) elm

/-- `STAILQ_INSERT_AFTER`, which is `list_insert`. -/
def insertAfter (s : Stailq H E) (h : H) (tqelm elm : E) : Stailq H E :=
  s.link h (.next tqelm) elm

/-- `STAILQ_INSERT_TAIL`, which is `list_push`. -/
def insertTail (s : Stailq H E) (h : H) (elm : E) : Stailq H E :=
  let s₁ := s.assign (.next elm) none
  ((s₁.assign (s₁.stqhLast h) (some elm)).assignLast h (.next elm)).assignSize h (s.size h + 1)

/-- The assignment that takes out the item `elm`, to which the pointer at `l` leads, with the
repair of `stqh_last` and the count. -/
def unlink (s : Stailq H E) (h : H) (l : Loc H E) (elm : E) : Stailq H E :=
  let s₁ := s.assign l (s.next elm)
  let s₂ := if s.next elm = none then s₁.assignLast h l else s₁
  s₂.assignSize h (s.size h + (2 ^ 32 - 1))

/-- `STAILQ_REMOVE_HEAD`. -/
def removeHead (s : Stailq H E) (h : H) : Option (Stailq H E) :=
  (s.first h).map (s.unlink h (.first h))

/-- The loop of `STAILQ_REMOVE`: the item in front of `elm`. -/
def before (s : Stailq H E) (elm : E) : ℕ → E → Option E
  | 0, _ => none
  | fuel + 1, curelm =>
    match s.next curelm with
    | none => none
    | some e => if e = elm then some curelm else s.before elm fuel e

/-- `STAILQ_REMOVE`, which is `list_remove`. -/
def remove (fuel : ℕ) (s : Stailq H E) (h : H) (elm : E) : Option (Stailq H E) :=
  if s.first h = some elm then s.removeHead h
  else do
    let curelm ← s.first h
    let curelm ← s.before elm fuel curelm
    return s.unlink h (.next curelm) elm

/-- `STAILQ_CONCAT`, which is `list_cat`. -/
def concat (s : Stailq H E) (h₁ h₂ : H) : Stailq H E :=
  if s.first h₂ = none then s
  else
    let s₁ := s.assign (s.stqhLast h₁) (s.first h₂)
    let s₂ := s₁.assignLast h₁ (s₁.stqhLast h₂)
    (s₂.assignSize h₁ (s.size h₁ + s.size h₂)).init h₂

/-- `STAILQ_LAST`: the item whose `stqe_next` is at `stqh_last`. -/
def last (s : Stailq H E) (h : H) : Option E :=
  if s.first h = none then none
  else match s.stqhLast h with
    | .first _ => none
    | .next e => some e

/-- `list_shift`. -/
def listShift (s : Stailq H E) (h : H) : Option (Stailq H E × E) := do
  let e ← s.first h
  let s' ← s.removeHead h
  return (s', e)

/-- `list_pop`.  The last item of an empty list is null, and so is the first one: the macro then
takes the successor of a null pointer. -/
def listPop (fuel : ℕ) (s : Stailq H E) (h : H) : Option (Stailq H E × E) := do
  let e ← s.last h
  let s' ← s.remove fuel h e
  return (s', e)

/-- The loop of `list_addr`. -/
def advance (s : Stailq H E) : ℕ → Option E → Option (Option E)
  | 0, item => some item
  | m + 1, item => do
    let e ← item
    s.advance m (s.next e)

/-- `list_addr`, which converts the position to `int`: the outer `none` is a null pointer that is
followed, the inner one the null pointer that is returned. -/
def listAddr (s : Stailq H E) (h : H) (n : ℤ) : Option (Option E) :=
  let m := asInt32 n
  if toInt32 (s.size h) ≤ m then some none else s.advance m.toNat (s.first h)

/-- `list_foreach`: the items the loop visits from `item` on. -/
def listForeach (s : Stailq H E) : ℕ → Option E → Option (List E)
  | _, none => some []
  | 0, some _ => none
  | fuel + 1, some e => (s.listForeach fuel (s.next e)).map (e :: ·)

/-- `list_clear`, with the items that are freed. -/
def listClear (h : H) : ℕ → Stailq H E → Option (Stailq H E × List E)
  | 0, s => if s.first h = none then some (s, []) else none
  | fuel + 1, s =>
    match s.first h with
    | none => some (s, [])
    | some e => (listClear h fuel (s.unlink h (.first h) e)).map fun r => (r.1, e :: r.2)

/-! ## The lists that the memory stands for -/

open PointerChain

/-- The head `h` stands for the list `xs`. -/
structure Rep (s : Stailq H E) (h : H) (xs : List E) : Prop where
  /-- The pointers lead through the items. -/
  chain : Holds Loc.next s.slot (.first h) xs
  /-- `stqh_last` is where they stop. -/
  last : s.stqhLast h = stop Loc.next (.first h) xs
  /-- `size` counts the items. -/
  size : s.size h = xs.length % 2 ^ 32

/-- The heads stand for the lists `q`, and no item is in a list twice or in two lists. -/
structure Represents (s : Stailq H E) (q : H → List E) : Prop where
  /-- Each head stands for its list. -/
  rep : ∀ h, Rep s h (q h)
  /-- No item is in a list twice. -/
  nodup : ∀ h, (q h).Nodup
  /-- No item is in two lists. -/
  disjoint : ∀ h h', h ≠ h' → ∀ e ∈ q h, e ∉ q h'

variable {s s' : Stailq H E} {q : H → List E} {h h' : H} {xs ys : List E} {e : E}

omit [DecidableEq H] [DecidableEq E] in
lemma cells_nodup (hxs : xs.Nodup) : (cells Loc.next (Loc.first h) xs).Nodup := by
  refine List.nodup_cons.2 ⟨by simp, ?_⟩
  exact hxs.map fun a b hab => by injection hab

omit [DecidableEq H] [DecidableEq E] in
/-- Nothing that a list stands on is changed. -/
lemma Rep.congr (hr : Rep s h xs) (hslot : ∀ l ∈ cells Loc.next (.first h) xs, s'.slot l = s.slot l)
    (hlast : s'.stqhLast h = s.stqhLast h) (hsize : s'.size h = s.size h) : Rep s' h xs where
  chain := hr.chain.congr hslot
  last := hlast.trans hr.last
  size := hsize.trans hr.size

omit [DecidableEq E] in
/-- One list changes and the cells of the others do not. -/
lemma Represents.update (hr : Represents s q) (hrep : Rep s' h xs) (hnodup : xs.Nodup)
    (hdisj : ∀ h', h' ≠ h → ∀ e ∈ xs, e ∉ q h')
    (hother : ∀ h', h' ≠ h → Rep s' h' (q h')) : Represents s' (Function.update q h xs) where
  rep h' := by
    by_cases hh : h' = h
    · rw [hh, Function.update_self]
      exact hrep
    · rw [Function.update_of_ne hh]
      exact hother h' hh
  nodup h' := by
    by_cases hh : h' = h
    · rwa [hh, Function.update_self]
    · rw [Function.update_of_ne hh]
      exact hr.nodup h'
  disjoint h₁ h₂ hne e he := by
    by_cases h1 : h₁ = h
    · subst h1
      rw [Function.update_self] at he
      rw [Function.update_of_ne hne.symm]
      exact hdisj h₂ hne.symm e he
    · rw [Function.update_of_ne h1] at he
      by_cases h2 : h₂ = h
      · subst h2
        rw [Function.update_self]
        exact fun hmem => hdisj h₁ h1 e hmem he
      · rw [Function.update_of_ne h2]
        exact hr.disjoint h₁ h₂ hne e he

/-! ## One item comes in, one item goes out -/

lemma link_slot (s : Stailq H E) (h : H) (l : Loc H E) (e : E) :
    (s.link h l e).slot =
      Function.update (Function.update s.slot (.next e) (s.slot l)) l (some e) := by
  unfold link
  split <;> rfl

lemma link_last (s : Stailq H E) (h : H) (l : Loc H E) (e : E) :
    (s.link h l e).stqhLast =
      Function.update s.stqhLast h (if s.slot l = none then .next e else s.stqhLast h) := by
  unfold link
  split
  · rfl
  · exact (Function.update_eq_self h s.stqhLast).symm

lemma link_size (s : Stailq H E) (h : H) (l : Loc H E) (e : E) :
    (s.link h l e).size = Function.update s.size h ((s.size h + 1) % 2 ^ 32) := by
  unfold link
  split <;> rfl

lemma unlink_slot (s : Stailq H E) (h : H) (l : Loc H E) (e : E) :
    (s.unlink h l e).slot = Function.update s.slot l (s.slot (.next e)) := by
  unfold unlink
  split <;> rfl

lemma unlink_last (s : Stailq H E) (h : H) (l : Loc H E) (e : E) :
    (s.unlink h l e).stqhLast =
      Function.update s.stqhLast h (if s.next e = none then l else s.stqhLast h) := by
  unfold unlink
  split
  · rfl
  · exact (Function.update_eq_self h s.stqhLast).symm

lemma unlink_size (s : Stailq H E) (h : H) (l : Loc H E) (e : E) :
    (s.unlink h l e).size = Function.update s.size h ((s.size h + (2 ^ 32 - 1)) % 2 ^ 32) := by
  unfold unlink
  split <;> rfl

omit [DecidableEq H] [DecidableEq E] in
/-- The place behind the first items of a list is no cell of another list. -/
lemma Represents.stop_notMem (hr : Represents s q) (hq : q h = xs ++ ys) (hne : h' ≠ h) :
    stop Loc.next (Loc.first h) xs ∉ cells Loc.next (.first h') (q h') := by
  have hstop : stop Loc.next (Loc.first h) xs ∈ cells Loc.next (Loc.first h) xs :=
    stop_mem_cells (Loc.first h) xs
  intro hmem
  rcases List.mem_cons.1 hstop with hfirst | hnext
  · rw [hfirst] at hmem
    simp [cells, hne.symm] at hmem
  · obtain ⟨e, he, hloc⟩ := List.mem_map.1 hnext
    rw [← hloc] at hmem
    have he' : e ∈ q h' := by simpa [cells] using hmem
    exact hr.disjoint h h' hne.symm e (by rw [hq]; exact List.mem_append_left ys he) he'

/-- An item that is in no list is put in behind the items `xs`. -/
lemma Represents.link (hr : Represents s q) (hq : q h = xs ++ ys) (hfree : ∀ h, e ∉ q h) :
    Represents (s.link h (stop Loc.next (.first h) xs) e)
      (Function.update q h (xs ++ e :: ys)) := by
  have hrep := hr.rep h
  have hnodup := hr.nodup h
  have hfree' := hfree h
  rw [hq] at hrep hnodup hfree'
  have hcell : ∀ (h' : H) (zs : List E), e ∉ zs → Loc.next e ∉ cells Loc.next (.first h') zs := by
    intro h' zs he
    simpa [cells] using he
  have htail := ((holds_append _ xs ys).1 hrep.chain).2
  refine hr.update ⟨?_, ?_, ?_⟩ ?_ ?_ fun h' hne => ?_
  · rw [link_slot]
    exact hrep.chain.insert (cells_nodup hnodup) (hcell h _ hfree')
  · rw [link_last, Function.update_self, stop_insert, hrep.last]
    exact if_congr htail.eq_none_iff rfl rfl
  · rw [link_size, Function.update_self, hrep.size]
    simp only [List.length_append, List.length_cons]
    omega
  · rw [List.nodup_middle]
    exact List.nodup_cons.2 ⟨hfree', hnodup⟩
  · intro h' hne x hx
    rw [List.mem_append, List.mem_cons] at hx
    have hother : x = e ∨ x ∈ q h := by
      rw [hq, List.mem_append]
      tauto
    rcases hother with rfl | hx
    · exact hfree h'
    · exact hr.disjoint h h' hne.symm x hx
  · refine (hr.rep h').congr (fun l hl => ?_) ?_ ?_
    · rw [link_slot, Function.update_of_ne, Function.update_of_ne]
      · rintro rfl
        exact hcell h' _ (hfree h') hl
      · rintro rfl
        exact hr.stop_notMem hq hne hl
    · rw [link_last, Function.update_of_ne hne]
    · rw [link_size, Function.update_of_ne hne]

/-- The item behind the items `xs` is taken out. -/
lemma Represents.unlink (hr : Represents s q) (hq : q h = xs ++ e :: ys) :
    Represents (s.unlink h (stop Loc.next (.first h) xs) e)
      (Function.update q h (xs ++ ys)) := by
  have hrep := hr.rep h
  have hnodup := hr.nodup h
  rw [hq] at hrep hnodup
  have htail := ((holds_append _ xs (e :: ys)).1 hrep.chain).2
  have hrest : Holds Loc.next s.slot (.next e) ys := ⟨htail.follows.2, htail.stops⟩
  have hsub : ∀ x ∈ xs ++ ys, x ∈ q h := by
    intro x hx
    rw [hq]
    rw [List.mem_append] at hx ⊢
    exact hx.imp id (List.mem_cons_of_mem e)
  refine hr.update ⟨?_, ?_, ?_⟩ ?_ ?_ fun h' hne => ?_
  · rw [unlink_slot]
    exact hrep.chain.erase (cells_nodup hnodup)
  · rw [unlink_last, Function.update_self, stop_erase _ xs ys e, hrep.last]
    exact if_congr hrest.eq_none_iff rfl rfl
  · rw [unlink_size, Function.update_self, hrep.size]
    simp only [List.length_append, List.length_cons]
    omega
  · rw [List.nodup_middle] at hnodup
    exact (List.nodup_cons.1 hnodup).2
  · exact fun h' hne x hx => hr.disjoint h h' hne.symm x (hsub x hx)
  · refine (hr.rep h').congr (fun l hl => ?_) ?_ ?_
    · rw [unlink_slot, Function.update_of_ne]
      rintro rfl
      exact hr.stop_notMem hq hne hl
    · rw [unlink_last, Function.update_of_ne hne]
    · rw [unlink_size, Function.update_of_ne hne]

/-! ## Two lists become one -/

/-- A head is initialised anew. -/
lemma Represents.init (hr : Represents s q) (h : H) :
    Represents (s.init h) (Function.update q h []) := by
  refine hr.update ⟨⟨trivial, ?_⟩, ?_, ?_⟩ List.nodup_nil (by simp) fun h' hne => ?_
  · exact Function.update_self _ _ _
  · exact Function.update_self _ _ _
  · exact Function.update_self _ _ _
  · refine (hr.rep h').congr (fun l hl => ?_) ?_ ?_
    · refine Function.update_of_ne ?_ _ _
      rintro rfl
      simp [cells, hne.symm] at hl
    · exact Function.update_of_ne hne _ _
    · exact Function.update_of_ne hne _ _

/-- The list of `h₂` is hung to the list of `h₁`. -/
lemma Represents.concat (hr : Represents s q) {h₁ h₂ : H} (hne : h₁ ≠ h₂) :
    Represents (s.concat h₁ h₂) (Function.update (Function.update q h₁ (q h₁ ++ q h₂)) h₂ []) := by
  have hr₁ := hr.rep h₁
  have hr₂ := hr.rep h₂
  have hfirst : s.first h₂ = none ↔ q h₂ = [] := hr₂.chain.eq_none_iff
  unfold Stailq.concat
  by_cases hnil : q h₂ = []
  · rw [if_pos (hfirst.2 hnil), hnil, List.append_nil, Function.update_eq_self,
      Function.update_eq_iff.2 ⟨hnil.symm, fun _ _ => rfl⟩]
    exact hr
  · rw [if_neg (hfirst.not.2 hnil), Function.update_comm hne]
    have hcells : (cells Loc.next (Loc.first h₁) (q h₁ ++ q h₂)).Nodup := by
      refine cells_nodup (List.nodup_append.2 ⟨hr.nodup h₁, hr.nodup h₂, ?_⟩)
      rintro x hx y hy rfl
      exact hr.disjoint h₁ h₂ hne x hx hy
    -- the list of `h₂` has been given up, its items are those of no other list
    refine (hr.init h₂).update ⟨?_, ?_, ?_⟩ ?_ ?_ fun h' hne' => ?_
    · refine ((hr₁.chain.append hcells hr₂.chain).congr fun l hl => ?_)
      rw [← hr₁.last]
      refine Function.update_of_ne ?_ _ _
      rintro rfl
      simp [cells, hne.symm] at hl
    · have hlast : s.stqhLast h₂ = stop Loc.next (Loc.first h₁) (q h₁ ++ q h₂) := by
        rw [hr₂.last, stop_append]
        exact stop_of_ne_nil hnil _ _
      rw [← hlast]
      exact (Function.update_of_ne hne _ _).trans (Function.update_self _ _ _)
    · refine (Function.update_of_ne hne _ _).trans ((Function.update_self _ _ _).trans ?_)
      rw [hr₁.size, hr₂.size, List.length_append]
      exact (Nat.add_mod _ _ _).symm
    · exact ((List.nodup_cons.1 hcells).2).of_map _
    · intro h' hne' x hx hmem
      by_cases hh : h' = h₂
      · rw [hh, Function.update_self] at hmem
        simp at hmem
      · rw [Function.update_of_ne hh] at hmem
        rcases List.mem_append.1 hx with hx | hx
        · exact hr.disjoint h₁ h' hne'.symm x hx hmem
        · exact hr.disjoint h₂ h' (Ne.symm hh) x hx hmem
    · by_cases hh : h' = h₂
      · rw [hh, Function.update_self]
        refine ⟨⟨trivial, Function.update_self _ _ _⟩, Function.update_self _ _ _,
          Function.update_self _ _ _⟩
      · rw [Function.update_of_ne hh]
        refine (hr.rep h').congr (fun l hl => ?_) ?_ ?_
        · refine (Function.update_of_ne ?_ _ _).trans (Function.update_of_ne ?_ _ _)
          · rintro rfl
            simp [cells, Ne.symm hh] at hl
          · rintro rfl
            rw [hr₁.last] at hl
            exact hr.stop_notMem (List.append_nil _).symm hne' hl
        · exact (Function.update_of_ne hh _ _).trans (Function.update_of_ne hne' _ _)
        · exact (Function.update_of_ne hh _ _).trans (Function.update_of_ne hne' _ _)

end Stailq

end Linglongta
