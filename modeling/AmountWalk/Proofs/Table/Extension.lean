import AmountWalk.Amount
import AmountWalk.Proofs.Table.Verdict

/-!
# Steps that are added to a draft

More steps add transitions behind those that are there, and may give another start. So they can
mend some faults and not others. A state that has a way out keeps it: what was no dead end does not
become one. Labels that overlap go on overlapping: a draft that is refused for an overlap is
refused for one ever after, though perhaps for that of a state that is declared earlier, which
masks the old one.

A table that was built may be lost to an overlap, and to nothing else. If it is not lost, then every
look-up that found a transition finds the same one (`Table.Extends`), because a look-up goes through
the transitions from the front.
-/

namespace AmountWalk

variable {σ : Type} {ts us : List (Transition σ)}

/-! ## Faults that stay -/

/-- A pair of a list stays where it is when the list goes on. -/
theorem OverlapAt.of_prefix {i j : Nat} {a b : Transition σ} (hpre : ts <+: us)
    (h : OverlapAt ts i j a b) : OverlapAt us i j a b := by
  obtain ⟨more, rfl⟩ := hpre
  obtain ⟨hi, -⟩ := List.getElem?_eq_some_iff.mp h.first
  obtain ⟨hj, -⟩ := List.getElem?_eq_some_iff.mp h.second
  exact ⟨h.lt, (List.getElem?_append_left hi).trans h.first,
    (List.getElem?_append_left hj).trans h.second, h.overlaps⟩

variable [DecidableEq σ] {s t : σ}

theorem prefix_leaving (hpre : ts <+: us) (s : σ) : leaving ts s <+: leaving us s :=
  hpre.filter _

/-- Labels that leave the state overlap. -/
def Clashes (ts : List (Transition σ)) (s : σ) : Prop :=
  ∃ i j a b, OverlapAt (leaving ts s) i j a b

/-- **Overlaps stay.** -/
theorem Clashes.of_prefix (hpre : ts <+: us) (h : Clashes ts s) : Clashes us s := by
  obtain ⟨i, j, a, b, hover⟩ := h
  exact ⟨i, j, a, b, hover.of_prefix (prefix_leaving hpre s)⟩

theorem Clashes.leaving_ne_nil (h : Clashes ts s) : leaving ts s ≠ [] := by
  obtain ⟨i, j, a, b, hover⟩ := h
  exact hover.leaving_ne_nil

/-! ## Look-ups that stay -/

/-- The table goes on where the earlier one ends, and looks up what that one looked up. -/
structure Table.Extends (table earlier : Table σ) : Prop where
  transitions : earlier.transitions <+: table.transitions
  lookup : ∀ s ch t, earlier.transitionOn s ch = some t → table.transitionOn s ch = some t

/-- **Transitions behind do not hide those in front.** -/
theorem Table.extends_of_prefix {table earlier : Table σ}
    (hpre : earlier.transitions <+: table.transitions) : table.Extends earlier where
  transitions := hpre
  lookup := by
    intro s ch t ht
    obtain ⟨more, hmore⟩ := hpre
    unfold transitionOn at ht ⊢
    rw [← hmore, List.find?_append, ht]
    rfl

/-! ## Faulty states -/

variable [StateSet σ]

theorem Clashes.faulty (h : Clashes ts s) : Faulty ts s := Or.inr h

/-- **Dead ends are not made.** What is one now has been one before. -/
theorem faulty_of_deadEnd (hpre : ts <+: us) (hnil : leaving us s = []) (h : Faulty us s) :
    Faulty ts s := by
  have hnil' : leaving ts s = [] := List.prefix_nil.mp (hnil ▸ prefix_leaving hpre s)
  rcases h with ⟨haccepting, -⟩ | ⟨i, j, a, b, hover⟩
  · exact Or.inl ⟨haccepting, hnil'⟩
  · exact absurd hnil hover.leaving_ne_nil

/-- The first faulty state is declared no later than any other. -/
theorem FirstFaulty.idxOf_le (h : FirstFaulty ts s) (ht : Faulty ts t) :
    (StateSet.all : List σ).idxOf s ≤ (StateSet.all : List σ).idxOf t := by
  obtain ⟨hs, front, back, hall, hfront⟩ := h
  have hs' : s ∉ front := fun hmem => hfront s hmem hs
  have ht' : t ∉ front := fun hmem => hfront t hmem ht
  rw [hall, List.idxOf_append_of_notMem hs', List.idxOf_append_of_notMem ht', List.idxOf_cons_self]
  exact Nat.add_le_add_left (Nat.zero_le _) _

/-! ## The verdict after more steps -/

namespace Draft

/-- What more steps make of an earlier draft. -/
structure Extends (draft earlier : Draft σ) : Prop where
  start : earlier.start ≠ none → draft.start ≠ none
  transitions : earlier.transitions <+: draft.transitions

omit [DecidableEq σ] [StateSet σ] in
theorem extends_ofSteps (steps more : List (DraftStep σ)) :
    (ofSteps (steps ++ more)).Extends (ofSteps steps) := by
  rw [ofSteps_eq, ofSteps_eq, lastStart?_append, addedBy_append]
  refine ⟨fun hstart => ?_, List.prefix_append _ _⟩
  intro hnone
  exact hstart (Option.or_eq_none_iff.mp hnone).2

variable {draft earlier : Draft σ} {table : Table σ} {x y : Label}

omit [DecidableEq σ] [StateSet σ] in
theorem Extends.transitions_ne_nil (h : draft.Extends earlier) (hne : earlier.transitions ≠ []) :
    draft.transitions ≠ [] := by
  intro hnil
  have hpre := h.transitions
  rw [hnil] at hpre
  exact hne (List.prefix_nil.mp hpre)

/-- **An overlap cannot be mended.** More steps may only put that of an earlier state in front. -/
theorem Extends.build_of_overlap (h : draft.Extends earlier)
    (hbuild : earlier.build = .error (.overlap s x y)) :
    ∃ s' x' y', draft.build = .error (.overlap s' x' y') ∧
      (StateSet.all : List σ).idxOf s' ≤ (StateSet.all : List σ).idxOf s := by
  rw [build_eq_iff] at hbuild
  cases hbuild with
  | @overlap _ i j a b hstart hne hfirst hover =>
    have hclash : Clashes draft.transitions s :=
      Clashes.of_prefix h.transitions ⟨i, j, a, b, hover.toOverlapAt⟩
    generalize hresult : draft.build = result
    cases build_eq_iff.mp hresult with
    | missingStart hnone => exact absurd hnone (h.start hstart)
    | noTransitions _ hnil => exact absurd hnil (h.transitions_ne_nil hne)
    | @deadEnd s' _ _ hfirst' hnil =>
      -- a dead end has been one before, so the state with the overlap is declared no later
      have hfaulty : Faulty earlier.transitions s' :=
        faulty_of_deadEnd h.transitions hnil hfirst'.1
      obtain rfl : s' = s := (List.idxOf_inj (StateSet.mem_all s')).mp
        (Nat.le_antisymm (hfirst'.idxOf_le hclash.faulty) (hfirst.idxOf_le hfaulty))
      exact absurd hnil hclash.leaving_ne_nil
    | @overlap s' i' j' a' b' _ _ hfirst' _ =>
      exact ⟨s', _, _, rfl, hfirst'.idxOf_le hclash.faulty⟩
    | table _ _ hsound => exact absurd hclash.faulty (hsound s)

/-- **A table can only be lost to an overlap.** -/
theorem Extends.build_of_table (h : draft.Extends earlier) (hbuild : earlier.build = .ok table) :
    (∃ longer, draft.build = .ok longer ∧ longer.Extends table) ∨
      ∃ s x y, draft.build = .error (.overlap s x y) := by
  rw [build_eq_iff] at hbuild
  cases hbuild with
  | @table start hstart hne hsound =>
    generalize hresult : draft.build = result
    cases build_eq_iff.mp hresult with
    | missingStart hnone => exact absurd hnone (h.start (by simp [hstart]))
    | noTransitions _ hnil => exact absurd hnil (h.transitions_ne_nil hne)
    | @deadEnd s' _ _ hfirst' hnil =>
      exact absurd (faulty_of_deadEnd h.transitions hnil hfirst'.1) (hsound s')
    | overlap _ _ _ _ => exact Or.inr ⟨_, _, _, rfl⟩
    | table _ _ _ => exact Or.inl ⟨_, rfl, Table.extends_of_prefix h.transitions⟩

/-- **More steps keep what fewer steps have settled.** Steps that are refused for an overlap are
refused for one however they go on, that of the same state or of one that is declared earlier.
Steps that make a table go on to make a table or are refused for an overlap; and if they make one,
it looks up the same transition wherever the earlier table looked one up. -/
theorem build_extension (steps more : List (DraftStep σ)) :
    (∀ s x y, (ofSteps steps).build = .error (.overlap s x y) →
      ∃ s' x' y', (ofSteps (steps ++ more)).build = .error (.overlap s' x' y') ∧
        (StateSet.all : List σ).idxOf s' ≤ (StateSet.all : List σ).idxOf s) ∧
    ∀ table, (ofSteps steps).build = .ok table →
      ((∃ longer, (ofSteps (steps ++ more)).build = .ok longer) ∨
        ∃ s x y, (ofSteps (steps ++ more)).build = .error (.overlap s x y)) ∧
      ∀ longer, (ofSteps (steps ++ more)).build = .ok longer →
        ∀ s ch t, table.transitionOn s ch = some t → longer.transitionOn s ch = some t := by
  have hextends := extends_ofSteps steps more
  refine ⟨fun s x y => hextends.build_of_overlap, fun table hbuild => ⟨?verdict, ?lookup⟩⟩
  case verdict =>
    rcases hextends.build_of_table hbuild with ⟨longer, hlonger, -⟩ | hrefused
    · exact Or.inl ⟨longer, hlonger⟩
    · exact Or.inr hrefused
  case lookup =>
    intro longer hlonger
    rcases hextends.build_of_table hbuild with ⟨longer', hlonger', h⟩ | ⟨s, x, y, hrefused⟩
    · rw [hlonger] at hlonger'
      cases hlonger'
      exact h.lookup
    · rw [hlonger] at hrefused
      cases hrefused

/-- An overlap in `q1`, and the same masked by one in `q0` when another edge is added. -/
example :
    let steps : List (DraftStep Amount.State) :=
      [.start .q0, .edge .q0 .q1 (.literal '$'), .edge .q1 .q3 (.literal '5'),
        .edge .q1 .q3 (.digits .any)]
    (ofSteps steps).build = .error (.overlap .q1 (.literal '5') (.digits .any)) ∧
      (ofSteps (steps ++ [.edge .q0 .q7 (.literal '$')])).build
        = .error (.overlap .q0 (.literal '$') (.literal '$')) := by
  decide

end Draft

end AmountWalk
