import AmountWalk.Table.Draft
import Mathlib.Data.List.NodupEquivFin

/-!
# Overlapping pairs

Where in a list of transitions two labels overlap. `OverlapAt` names the places of a pair, and
`FirstOverlapAt` the pair that comes first: the one whose first transition stands earliest, and of
these the one whose second transition does.

`Draft.firstOverlap_eq_some_iff` says that the check of a draft finds this pair.
-/

namespace AmountWalk

variable {σ : Type} {ts : List (Transition σ)} {t a b : Transition σ} {i j : Nat}

/-- Two transitions of a list whose labels overlap, with their places, the first in front of the
second. -/
structure OverlapAt (ts : List (Transition σ)) (i j : Nat) (a b : Transition σ) : Prop where
  lt : i < j
  first : ts[i]? = some a
  second : ts[j]? = some b
  overlaps : a.label.overlaps b.label = true

/-- The first of all pairs whose labels overlap. -/
structure FirstOverlapAt (ts : List (Transition σ)) (i j : Nat) (a b : Transition σ) : Prop
    extends OverlapAt ts i j a b where
  /-- Any other pair has a later first transition, or the same one and a later second one. -/
  least : ∀ i' j' a' b', OverlapAt ts i' j' a' b' → i < i' ∨ i = i' ∧ j ≤ j'

/-! ## Pairs of a list -/

/-- No two labels overlap exactly when no place holds such a pair. -/
theorem pairwise_iff_not_overlapAt :
    ts.Pairwise (fun a b => b.label.overlaps a.label = false)
      ↔ ∀ i j a b, ¬ OverlapAt ts i j a b := by
  rw [List.pairwise_iff_getElem]
  constructor
  · intro h i j a b hover
    obtain ⟨hi, ha⟩ := List.getElem?_eq_some_iff.mp hover.first
    obtain ⟨hj, hb⟩ := List.getElem?_eq_some_iff.mp hover.second
    have hnone := h i j hi hj hover.lt
    rw [ha, hb, Label.overlaps_comm, hover.overlaps] at hnone
    cases hnone
  · intro h i j hi hj hij
    by_contra hover
    rw [Bool.not_eq_false, Label.overlaps_comm] at hover
    exact h i j _ _ ⟨hij, List.getElem?_eq_getElem hi, List.getElem?_eq_getElem hj, hover⟩

/-- The pairs of a longer list are those of its head and those of its tail. -/
theorem overlapAt_cons_iff :
    OverlapAt (t :: ts) i j a b
      ↔ (i = 0 ∧ a = t ∧ ∃ k, j = k + 1 ∧ ts[k]? = some b ∧ t.label.overlaps b.label = true) ∨
        ∃ i' j', i = i' + 1 ∧ j = j' + 1 ∧ OverlapAt ts i' j' a b := by
  constructor
  · rintro ⟨hlt, hfirst, hsecond, hover⟩
    obtain ⟨k, rfl⟩ : ∃ k, j = k + 1 := ⟨j - 1, by omega⟩
    rw [List.getElem?_cons_succ] at hsecond
    cases i with
    | zero =>
      cases hfirst
      exact Or.inl ⟨rfl, rfl, k, rfl, hsecond, hover⟩
    | succ i' =>
      rw [List.getElem?_cons_succ] at hfirst
      exact Or.inr ⟨i', k, rfl, rfl, Nat.lt_of_succ_lt_succ hlt, hfirst, hsecond, hover⟩
  · rintro (⟨rfl, rfl, k, rfl, hsecond, hover⟩ | ⟨i', j', rfl, rfl, hlt, hfirst, hsecond, hover⟩)
    · exact ⟨Nat.zero_lt_succ k, rfl, by rw [List.getElem?_cons_succ]; exact hsecond, hover⟩
    · exact ⟨Nat.succ_lt_succ hlt, by rw [List.getElem?_cons_succ]; exact hfirst,
        by rw [List.getElem?_cons_succ]; exact hsecond, hover⟩

/-- A pair of a selection from a list is a pair of the list. -/
theorem OverlapAt.of_filter {select : Transition σ → Bool}
    (h : OverlapAt (ts.filter select) i j a b) :
    (∃ i' j', OverlapAt ts i' j' a b) ∧ select a = true ∧ select b = true := by
  have hsub : (ts.filter select).Sublist ts := List.filter_sublist
  obtain ⟨place, hplace⟩ := List.sublist_iff_exists_orderEmbedding_getElem?_eq.mp hsub
  refine ⟨⟨place i, place j, place.strictMono h.lt, ?_, ?_, h.overlaps⟩, ?_, ?_⟩
  · rw [← hplace]
    exact h.first
  · rw [← hplace]
    exact h.second
  · exact (List.mem_filter.mp (List.mem_of_getElem? h.first)).2
  · exact (List.mem_filter.mp (List.mem_of_getElem? h.second)).2

/-! ## The first pair -/

/-- There is only one first pair. -/
theorem FirstOverlapAt.unique {i' j' : Nat} {a' b' : Transition σ}
    (h : FirstOverlapAt ts i j a b) (h' : FirstOverlapAt ts i' j' a' b') : a = a' ∧ b = b' := by
  have hle := h.least _ _ _ _ h'.toOverlapAt
  have hge := h'.least _ _ _ _ h.toOverlapAt
  obtain ⟨rfl, rfl⟩ : i = i' ∧ j = j' := by omega
  exact ⟨Option.some.inj (h.first.symm.trans h'.first),
    Option.some.inj (h.second.symm.trans h'.second)⟩

/-- A list whose head has no overlap has the first pair of its tail, one place later. -/
theorem FirstOverlapAt.cons (h : FirstOverlapAt ts i j a b)
    (hhead : ∀ u ∈ ts, t.label.overlaps u.label = false) :
    FirstOverlapAt (t :: ts) (i + 1) (j + 1) a b where
  toOverlapAt := overlapAt_cons_iff.mpr (Or.inr ⟨i, j, rfl, rfl, h.toOverlapAt⟩)
  least := by
    intro i' j' a' b' hover
    rcases overlapAt_cons_iff.mp hover with ⟨-, -, k, -, hk, hlabels⟩ | ⟨i', j', rfl, rfl, htail⟩
    · rw [hhead b' (List.mem_of_getElem? hk)] at hlabels
      cases hlabels
    · have hle := h.least i' j' a' b' htail
      omega

/-- A head that has an overlap makes the first pair with the first transition that it overlaps. -/
theorem firstOverlapAt_head {k : Nat} (hk : ts[k]? = some b)
    (hover : t.label.overlaps b.label = true)
    (hbefore : ∀ k' u, k' < k → ts[k']? = some u → t.label.overlaps u.label = false) :
    FirstOverlapAt (t :: ts) 0 (k + 1) t b where
  toOverlapAt := overlapAt_cons_iff.mpr (Or.inl ⟨rfl, rfl, k, rfl, hk, hover⟩)
  least := by
    intro i' j' a' b' h
    rcases overlapAt_cons_iff.mp h with ⟨rfl, -, k', rfl, hk', hlabels⟩ | ⟨i', j', rfl, rfl, -⟩
    · refine Or.inr ⟨rfl, Nat.succ_le_succ (Nat.not_lt.mp fun hlt => ?_)⟩
      rw [hbefore k' b' hlt hk'] at hlabels
      cases hlabels
    · exact Or.inl (Nat.zero_lt_succ i')

namespace Draft

variable {x y : Label}

theorem exists_firstOverlapAt (h : firstOverlap ts = some (x, y)) :
    ∃ i j a b, FirstOverlapAt ts i j a b ∧ a.label = x ∧ b.label = y := by
  induction ts with
  | nil => cases h
  | cons first rest ih =>
    rw [firstOverlap] at h
    split at h
    · next second hfound =>
      cases h
      obtain ⟨hover, k, hk, rfl, hbefore⟩ := List.find?_eq_some_iff_getElem.mp hfound
      refine ⟨0, k + 1, first, rest[k], firstOverlapAt_head (List.getElem?_eq_getElem hk) ?_ ?_,
        rfl, rfl⟩
      · rw [Label.overlaps_comm]
        exact hover
      · intro k' u hlt hu
        obtain ⟨hk', rfl⟩ := List.getElem?_eq_some_iff.mp hu
        rw [Label.overlaps_comm]
        simpa using hbefore k' hlt
    · next hnone =>
      obtain ⟨i, j, a, b, hfirst, hx, hy⟩ := ih h
      refine ⟨i + 1, j + 1, a, b, hfirst.cons fun u hu => ?_, hx, hy⟩
      rw [Label.overlaps_comm]
      simpa using List.find?_eq_none.mp hnone u hu

theorem firstOverlap_eq_none_iff_not_overlapAt :
    firstOverlap ts = none ↔ ∀ i j a b, ¬ OverlapAt ts i j a b :=
  firstOverlap_eq_none_iff.trans pairwise_iff_not_overlapAt

/-- **The check finds the first overlapping pair,** and it finds one whenever there is one. -/
theorem firstOverlap_eq_some_iff :
    firstOverlap ts = some (x, y)
      ↔ ∃ i j a b, FirstOverlapAt ts i j a b ∧ a.label = x ∧ b.label = y := by
  refine ⟨exists_firstOverlapAt, ?_⟩
  rintro ⟨i, j, a, b, hfirst, rfl, rfl⟩
  cases h : firstOverlap ts with
  | none => exact absurd hfirst.toOverlapAt (firstOverlap_eq_none_iff_not_overlapAt.mp h i j a b)
  | some found =>
    obtain ⟨x, y⟩ := found
    obtain ⟨i', j', a', b', hfirst', rfl, rfl⟩ := exists_firstOverlapAt h
    obtain ⟨rfl, rfl⟩ := hfirst.unique hfirst'
    rfl

end Draft

end AmountWalk
