import AmountWalk.Amount
import AmountWalk.Proofs.Table.Determinism
import AmountWalk.Proofs.Walk.Lookup

/-!
# The order of the transitions

The check of a draft and the look-up in a table both search lists from the front, so both could
depend on the order in which transitions were added. They hardly do. Whether a state is a dead end,
and whether labels that leave it overlap, is the same in every order, because overlap is symmetric;
only the pair of labels that the error names may be another one. And a table that was built has at
most one transition to find, so a look-up finds it wherever it stands
(`Draft.transitionOn_eq_some_iff`).

`Draft.build_perm` puts this together for steps that add the same transitions in two orders.
-/

namespace AmountWalk

variable {σ : Type} {ts us : List (Transition σ)}

/-! ## Overlaps in every order -/

theorem eq_nil_iff_of_perm (h : ts.Perm us) : ts = [] ↔ us = [] := by
  rw [← List.length_eq_zero_iff, h.length_eq, List.length_eq_zero_iff]

theorem exists_overlapAt_iff_of_perm (h : ts.Perm us) :
    (∃ i j a b, OverlapAt ts i j a b) ↔ ∃ i j a b, OverlapAt us i j a b := by
  have hpairs : ts.Pairwise (fun a b => b.label.overlaps a.label = false)
      ↔ us.Pairwise fun a b => b.label.overlaps a.label = false :=
    h.pairwise_iff fun hab => by rw [Label.overlaps_comm]; exact hab
  rw [pairwise_iff_not_overlapAt, pairwise_iff_not_overlapAt] at hpairs
  simpa only [not_forall, not_not] using not_congr hpairs

/-- Where there is an overlapping pair, there is a first one. -/
theorem OverlapAt.exists_first {i j : Nat} {a b : Transition σ} (h : OverlapAt ts i j a b) :
    ∃ i j a b, FirstOverlapAt ts i j a b := by
  cases hfound : Draft.firstOverlap ts with
  | none => exact absurd h (Draft.firstOverlap_eq_none_iff_not_overlapAt.mp hfound i j a b)
  | some labels =>
    obtain ⟨i, j, a, b, hfirst, -⟩ := Draft.exists_firstOverlapAt hfound
    exact ⟨i, j, a, b, hfirst⟩

section Faults

variable [DecidableEq σ] {s : σ}

theorem leaving_perm (h : ts.Perm us) (s : σ) : (leaving ts s).Perm (leaving us s) :=
  h.filter _

variable [StateSet σ]

theorem faulty_iff_of_perm (h : ts.Perm us) : Faulty ts s ↔ Faulty us s := by
  rw [Faulty, Faulty, eq_nil_iff_of_perm (leaving_perm h s),
    exists_overlapAt_iff_of_perm (leaving_perm h s)]

/-- **The first faulty state is the same** in every order of the transitions. -/
theorem firstFaulty_iff_of_perm (h : ts.Perm us) : FirstFaulty ts s ↔ FirstFaulty us s := by
  simp only [FirstFaulty, faulty_iff_of_perm h]

end Faults

/-! ## Verdicts that are alike -/

/-- Errors of one kind that name the same state. The labels of an overlap may differ. -/
inductive BuildError.Alike : BuildError σ → BuildError σ → Prop where
  | missingStart : Alike .missingStart .missingStart
  | noTransitions : Alike .noTransitions .noTransitions
  | deadEnd (s : σ) : Alike (.deadEnd s) (.deadEnd s)
  | overlap (s : σ) (x y x' y' : Label) : Alike (.overlap s x y) (.overlap s x' y')

variable [DecidableEq σ] [StateSet σ]

/-- Two tables that differ in nothing but the order of their transitions, as far as look-ups, walks
and samplings can tell. -/
structure Table.Interchangeable (table other : Table σ) : Prop where
  start : table.start = other.start
  lookup : ∀ s ch, table.transitionOn s ch = other.transitionOn s ch
  outgoing : ∀ s, (table.outgoing s).Perm (other.outgoing s)
  walk : ∀ (γ : Type) [ChoiceSource γ] (policy : Policy σ) (moves : Nat) (source : γ),
    table.walk policy moves source = other.walk policy moves source
  walkBounded : ∀ (γ : Type) [ChoiceSource γ] (policy : Policy σ) (maxSteps : Nat) (source : γ),
    table.walkBounded policy maxSteps source = other.walkBounded policy maxSteps source
  collect : ∀ (γ : Type) [ChoiceSource γ] (policy : Policy σ) (config : SampleConfig) (source : γ),
    table.collect policy config source = other.collect policy config source

/-- Two drafts come out alike: both make tables, which are interchangeable, or both are refused for
the same reason. -/
inductive SameVerdict : Except (BuildError σ) (Table σ) → Except (BuildError σ) (Table σ) → Prop where
  | tables {table other : Table σ} (h : table.Interchangeable other) :
      SameVerdict (.ok table) (.ok other)
  | errors {fault other : BuildError σ} (h : fault.Alike other) :
      SameVerdict (.error fault) (.error other)

namespace Draft

variable {start : Option σ} {table other : Table σ}

/-- Tables that were built from the same transitions in two orders are interchangeable. -/
theorem interchangeable_of_build {draft second : Draft σ} (h : draft.build = .ok table)
    (h' : second.build = .ok other) (hstart : table.start = other.start)
    (hperm : table.transitions.Perm other.transitions) : table.Interchangeable other := by
  have hlookup (s : σ) (ch : Char) : table.transitionOn s ch = other.transitionOn s ch := by
    ext t
    rw [transitionOn_eq_some_iff h, transitionOn_eq_some_iff h', hperm.mem_iff]
  have hsame : table.SameLookups other := ⟨hstart, hlookup⟩
  exact
    { start := hstart
      lookup := hlookup
      outgoing := fun s => hperm.filter _
      walk := fun γ _ => hsame.walk_eq
      walkBounded := fun γ _ => hsame.walkBounded_eq
      collect := fun γ _ => hsame.collect_eq }

/-- The same start with the same transitions in two orders. -/
theorem sameVerdict_of_perm (h : ts.Perm us) :
    SameVerdict (Draft.mk start ts).build (Draft.mk start us).build := by
  have hne : ts ≠ [] → us ≠ [] := mt (eq_nil_iff_of_perm h).mpr
  generalize hbuild : (Draft.mk start ts).build = result
  cases build_eq_iff.mp hbuild with
  | missingStart hstart =>
    have hother : Checked ⟨start, us⟩ (.error .missingStart) := .missingStart hstart
    rw [hother.build_eq]
    exact .errors .missingStart
  | noTransitions hstart hnil =>
    have hother : Checked ⟨start, us⟩ (.error .noTransitions) :=
      .noTransitions hstart ((eq_nil_iff_of_perm h).mp hnil)
    rw [hother.build_eq]
    exact .errors .noTransitions
  | @deadEnd s hstart hts hfirst hnil =>
    have hother : Checked ⟨start, us⟩ (.error (.deadEnd s)) :=
      .deadEnd hstart (hne hts) ((firstFaulty_iff_of_perm h).mp hfirst)
        ((eq_nil_iff_of_perm (leaving_perm h s)).mp hnil)
    rw [hother.build_eq]
    exact .errors (.deadEnd s)
  | @overlap s i j a b hstart hts hfirst hover =>
    -- the other order has an overlapping pair too, perhaps with another first one
    obtain ⟨i', j', a', b', hpair⟩ := (exists_overlapAt_iff_of_perm (leaving_perm h s)).mp
      ⟨i, j, a, b, hover.toOverlapAt⟩
    obtain ⟨i', j', a', b', hover'⟩ := hpair.exists_first
    have hother : Checked ⟨start, us⟩ (.error (.overlap s a'.label b'.label)) :=
      .overlap hstart (hne hts) ((firstFaulty_iff_of_perm h).mp hfirst) hover'
    rw [hother.build_eq]
    exact .errors (.overlap s _ _ _ _)
  | @table start hstart hts hsound =>
    have hother : Checked ⟨_, us⟩ (.ok ⟨start, us⟩) :=
      .table hstart (hne hts) fun s hfaulty => hsound s ((faulty_iff_of_perm h).mpr hfaulty)
    rw [hother.build_eq]
    exact .tables (interchangeable_of_build hbuild hother.build_eq rfl h)

/-- **The order in which transitions are added does not matter.** Steps that give the same start last
and add the same transitions, in any two orders, are both refused, with the same kind of error for
the same state, or both make a table; and then the tables look up the same transition for every
character in every state, list the same transitions for every state up to their order, and come to
the same walks and samplings for every policy on every source, faults and what is left of the source
included. -/
theorem build_perm (steps others : List (DraftStep σ))
    (hstart : lastStart? steps = lastStart? others) (hperm : (addedBy steps).Perm (addedBy others)) :
    SameVerdict (ofSteps steps).build (ofSteps others).build := by
  rw [ofSteps_eq, ofSteps_eq, hstart]
  exact sameVerdict_of_perm hperm

/-- Steps for the automaton of amounts, with the start given first, and with the start given last
behind the transitions in the opposite order. -/
theorem build_perm_reverse :
    let steps : List (DraftStep Amount.State) := [.start .q0, .transitions Amount.transitions]
    let others : List (DraftStep Amount.State) :=
      [.transitions Amount.transitions.reverse, .start .q0]
    lastStart? steps = lastStart? others ∧ (addedBy steps).Perm (addedBy others) ∧
    ∃ other, (ofSteps steps).build = .ok Amount.table ∧ (ofSteps others).build = .ok other ∧
      other ≠ Amount.table ∧ Amount.table.Interchangeable other := by
  intro steps others
  have hstart : lastStart? steps = lastStart? others := rfl
  have hperm : (addedBy steps).Perm (addedBy others) := by
    show (Amount.transitions ++ []).Perm (Amount.transitions.reverse ++ [])
    rw [List.append_nil, List.append_nil]
    exact (List.reverse_perm Amount.transitions).symm
  have hbuild : (ofSteps steps).build = .ok Amount.table := rfl
  have hverdict := build_perm steps others hstart hperm
  rw [hbuild] at hverdict
  generalize hother : (ofSteps others).build = result at hverdict
  cases hverdict with
  | @tables _ other h =>
    refine ⟨hstart, hperm, other, hbuild, rfl, ?_, h⟩
    rintro rfl
    revert hother
    decide +kernel

end Draft

end AmountWalk
