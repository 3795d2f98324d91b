import AmountWalk.Proofs.Table.Overlap
import Mathlib.Data.List.Induction

/-!
# The verdict on a draft

A sequence of steps makes a table exactly when it gives a start, adds a transition, and leaves no
state *faulty*: a dead end, or a state with an overlapping pair among the transitions that leave it.
When the draft is refused, the error names the first thing missing or the first faulty state, and
for a faulty state its first overlapping pair.

`Draft.build_verdict` says this for each possible outcome, as an equivalence.
-/

namespace AmountWalk

variable {σ : Type}

/-! ## What steps make -/

/-- The start state that a step gives. -/
def DraftStep.start? : DraftStep σ → Option σ
  | .start s => some s
  | .edge .. => none
  | .transition _ => none
  | .transitions _ => none

/-- The transitions that a step adds. -/
def DraftStep.added : DraftStep σ → List (Transition σ)
  | .start _ => []
  | .edge src dst label => [⟨src, dst, label⟩]
  | .transition t => [t]
  | .transitions ts => ts

/-- The start state that is given last. -/
def lastStart? (steps : List (DraftStep σ)) : Option σ :=
  (steps.filterMap DraftStep.start?).getLast?

/-- The transitions that are added, in order. -/
def addedBy (steps : List (DraftStep σ)) : List (Transition σ) :=
  steps.flatMap DraftStep.added

/-- A start that is given later counts. -/
theorem lastStart?_append (front back : List (DraftStep σ)) :
    lastStart? (front ++ back) = (lastStart? back).or (lastStart? front) := by
  unfold lastStart?
  rw [List.filterMap_append, List.getLast?_append]

theorem addedBy_append (front back : List (DraftStep σ)) :
    addedBy (front ++ back) = addedBy front ++ addedBy back :=
  List.flatMap_append

theorem Draft.ofSteps_concat (steps : List (DraftStep σ)) (step : DraftStep σ) :
    ofSteps (steps ++ [step]) = (ofSteps steps).apply step :=
  List.foldl_concat apply empty step steps

/-- **Steps make a draft of the start given last and of all transitions added.** -/
theorem Draft.ofSteps_eq (steps : List (DraftStep σ)) :
    ofSteps steps = ⟨lastStart? steps, addedBy steps⟩ := by
  induction steps using List.reverseRecOn with
  | nil => rfl
  | append_singleton steps step ih =>
    rw [ofSteps_concat, ih, lastStart?_append, addedBy_append]
    cases step <;> simp [apply, lastStart?, addedBy, DraftStep.start?, DraftStep.added]

/-! ## Faulty states -/

/-- The transitions that leave a state, in order. -/
def leaving [DecidableEq σ] (ts : List (Transition σ)) (s : σ) : List (Transition σ) :=
  ts.filter (·.src == s)

variable [DecidableEq σ] {ts : List (Transition σ)} {s u : σ}

/-- A state that nothing leaves has no overlapping pair. -/
theorem OverlapAt.leaving_ne_nil {i j : Nat} {a b : Transition σ}
    (h : OverlapAt (leaving ts s) i j a b) : leaving ts s ≠ [] :=
  List.ne_nil_of_mem (List.mem_of_getElem? h.first)

/-- The overlapping pairs among the transitions that leave a state. -/
theorem exists_overlapAt_leaving_iff :
    (∃ i j a b, OverlapAt (leaving ts s) i j a b)
      ↔ ∃ i j a b, OverlapAt ts i j a b ∧ a.src = s ∧ b.src = s := by
  constructor
  · rintro ⟨i, j, a, b, hover⟩
    obtain ⟨⟨i', j', hover'⟩, ha, hb⟩ := hover.of_filter
    exact ⟨i', j', a, b, hover', by simpa using ha, by simpa using hb⟩
  · rintro ⟨i, j, a, b, hover, ha, hb⟩
    by_contra hnone
    have hpair := pairwise_iff_not_overlapAt.mpr fun i j a b h => hnone ⟨i, j, a, b, h⟩
    rw [leaving, List.pairwise_filter, List.pairwise_iff_getElem] at hpair
    obtain ⟨hi, rfl⟩ := List.getElem?_eq_some_iff.mp hover.first
    obtain ⟨hj, rfl⟩ := List.getElem?_eq_some_iff.mp hover.second
    have hlabels := hpair i j hi hj hover.lt (by simpa using ha) (by simpa using hb)
    rw [Label.overlaps_comm, hover.overlaps] at hlabels
    cases hlabels

variable [StateSet σ]

/-- The state is a dead end, or labels that leave it overlap. -/
def Faulty (ts : List (Transition σ)) (s : σ) : Prop :=
  StateSet.accepting s = false ∧ leaving ts s = [] ∨
    ∃ i j a b, OverlapAt (leaving ts s) i j a b

/-- The state is faulty, and none that is declared earlier is. -/
def FirstFaulty (ts : List (Transition σ)) (s : σ) : Prop :=
  Faulty ts s ∧
    ∃ front back, (StateSet.all : List σ) = front ++ s :: back ∧ ∀ t ∈ front, ¬ Faulty ts t

namespace Draft

variable {x y : Label} {fault : BuildError σ} {draft : Draft σ} {table : Table σ}

theorem faultAt_eq (ts : List (Transition σ)) (s : σ) :
    faultAt ts s
      = if leaving ts s = [] ∧ StateSet.accepting s = false then some (.deadEnd s)
        else (firstOverlap (leaving ts s)).map fun (first, second) => .overlap s first second := by
  unfold faultAt leaving
  simp

theorem faultAt_eq_none_iff : faultAt ts s = none ↔ ¬ Faulty ts s := by
  rw [faultAt_eq, Faulty]
  split
  · next h => simp [h]
  · next h =>
    rw [Option.map_eq_none_iff, firstOverlap_eq_none_iff_not_overlapAt]
    grind

theorem faultAt_eq_deadEnd_iff :
    faultAt ts s = some (.deadEnd u)
      ↔ u = s ∧ StateSet.accepting s = false ∧ leaving ts s = [] := by
  rw [faultAt_eq]
  split
  · next h => simp [h, eq_comm]
  · next h =>
    constructor
    · intro heq
      obtain ⟨_, _, hcases⟩ := Option.map_eq_some_iff.mp heq
      cases hcases
    · rintro ⟨-, haccepting, hnil⟩
      exact absurd ⟨hnil, haccepting⟩ h

theorem faultAt_eq_overlap_iff :
    faultAt ts s = some (.overlap u x y)
      ↔ u = s ∧ ∃ i j a b, FirstOverlapAt (leaving ts s) i j a b ∧ a.label = x ∧ b.label = y := by
  rw [faultAt_eq]
  split
  · next h =>
    constructor
    · intro heq
      cases heq
    · rintro ⟨-, i, j, a, b, hfirst, -⟩
      exact absurd h.1 hfirst.leaving_ne_nil
  · rw [← firstOverlap_eq_some_iff, Option.map_eq_some_iff]
    constructor
    · rintro ⟨⟨x', y'⟩, hfound, heq⟩
      cases heq
      exact ⟨rfl, hfound⟩
    · rintro ⟨rfl, hfound⟩
      exact ⟨(x, y), hfound, rfl⟩

/-- The search for a fault ends at the first faulty state. -/
theorem findSome?_faultAt_eq_some_iff :
    (StateSet.all : List σ).findSome? (faultAt ts) = some fault
      ↔ ∃ s, FirstFaulty ts s ∧ faultAt ts s = some fault := by
  rw [List.findSome?_eq_some_iff]
  constructor
  · rintro ⟨front, s, back, hall, hfault, hfront⟩
    have hfaulty : Faulty ts s := by
      by_contra hsound
      rw [faultAt_eq_none_iff.mpr hsound] at hfault
      cases hfault
    exact ⟨s, ⟨hfaulty, front, back, hall,
      fun t ht => faultAt_eq_none_iff.mp (hfront t ht)⟩, hfault⟩
  · rintro ⟨s, ⟨-, front, back, hall, hfront⟩, hfault⟩
    exact ⟨front, s, back, hall, hfault, fun t ht => faultAt_eq_none_iff.mpr (hfront t ht)⟩

/-- A fault that is found is one of the state itself. -/
theorem faultAt_cases (h : faultAt ts s = some fault) :
    fault = .deadEnd s ∨ ∃ x y, fault = .overlap s x y := by
  rw [faultAt_eq] at h
  split at h
  · exact Or.inl (Option.some.inj h).symm
  · obtain ⟨⟨x, y⟩, _, hfault⟩ := Option.map_eq_some_iff.mp h
    exact Or.inr ⟨x, y, hfault.symm⟩

/-! ## The check as a relation -/

/-- How the check of a draft comes out. -/
inductive Checked (draft : Draft σ) : Except (BuildError σ) (Table σ) → Prop where
  /-- There is no start. -/
  | missingStart (hstart : draft.start = none) : Checked draft (.error .missingStart)
  /-- There is no transition. -/
  | noTransitions (hstart : draft.start ≠ none) (hnil : draft.transitions = []) :
      Checked draft (.error .noTransitions)
  /-- Nothing leaves the first faulty state. -/
  | deadEnd {s : σ} (hstart : draft.start ≠ none) (hne : draft.transitions ≠ [])
      (hfirst : FirstFaulty draft.transitions s) (hnil : leaving draft.transitions s = []) :
      Checked draft (.error (.deadEnd s))
  /-- Labels that leave the first faulty state overlap. -/
  | overlap {s : σ} {i j : Nat} {a b : Transition σ} (hstart : draft.start ≠ none)
      (hne : draft.transitions ≠ []) (hfirst : FirstFaulty draft.transitions s)
      (hover : FirstOverlapAt (leaving draft.transitions s) i j a b) :
      Checked draft (.error (.overlap s a.label b.label))
  /-- Nothing is wrong. -/
  | table {start : σ} (hstart : draft.start = some start) (hne : draft.transitions ≠ [])
      (hsound : ∀ s, ¬ Faulty draft.transitions s) :
      Checked draft (.ok ⟨start, draft.transitions⟩)

theorem build_of_fault (hstart : draft.start ≠ none) (hne : draft.transitions ≠ [])
    (h : (StateSet.all : List σ).findSome? (faultAt draft.transitions) = some fault) :
    draft.build = .error fault := by
  obtain ⟨start, hstart⟩ := Option.ne_none_iff_exists'.mp hstart
  unfold build
  simp [hstart, hne, h]

theorem build_of_sound {start : σ} (hstart : draft.start = some start)
    (hne : draft.transitions ≠ [])
    (h : (StateSet.all : List σ).findSome? (faultAt draft.transitions) = none) :
    draft.build = .ok ⟨start, draft.transitions⟩ := by
  unfold build
  simp [hstart, hne, h]

theorem Checked.build_eq {result : Except (BuildError σ) (Table σ)} (h : Checked draft result) :
    draft.build = result := by
  cases h with
  | missingStart hstart =>
    unfold build
    simp [hstart]
  | noTransitions hstart hnil =>
    obtain ⟨start, hstart⟩ := Option.ne_none_iff_exists'.mp hstart
    unfold build
    simp [hstart, hnil]
  | @deadEnd s hstart hne hfirst hnil =>
    -- a faulty state without transitions has no overlapping pair, so it does not accept
    have haccepting : StateSet.accepting s = false := by
      rcases hfirst.1 with ⟨haccepting, _⟩ | ⟨i, j, a, b, hover⟩
      · exact haccepting
      · exact absurd hnil hover.leaving_ne_nil
    exact build_of_fault hstart hne (findSome?_faultAt_eq_some_iff.mpr
      ⟨s, hfirst, faultAt_eq_deadEnd_iff.mpr ⟨rfl, haccepting, hnil⟩⟩)
  | @overlap s i j a b hstart hne hfirst hover =>
    exact build_of_fault hstart hne (findSome?_faultAt_eq_some_iff.mpr
      ⟨s, hfirst, faultAt_eq_overlap_iff.mpr ⟨rfl, i, j, a, b, hover, rfl, rfl⟩⟩)
  | table hstart hne hsound =>
    exact build_of_sound hstart hne
      (List.findSome?_eq_none_iff.mpr fun s _ => faultAt_eq_none_iff.mpr (hsound s))

theorem checked_build (draft : Draft σ) : Checked draft draft.build := by
  cases hstart : draft.start with
  | none =>
    have h := Checked.missingStart hstart
    rwa [← h.build_eq] at h
  | some start =>
    have hsome : draft.start ≠ none := by simp [hstart]
    by_cases hnil : draft.transitions = []
    · have h := Checked.noTransitions hsome hnil
      rwa [← h.build_eq] at h
    · cases hfind : (StateSet.all : List σ).findSome? (faultAt draft.transitions) with
      | none =>
        rw [build_of_sound hstart hnil hfind]
        exact .table hstart hnil fun s => faultAt_eq_none_iff.mp
          (List.findSome?_eq_none_iff.mp hfind s (StateSet.mem_all s))
      | some fault =>
        obtain ⟨s, hfirst, hfault⟩ := findSome?_faultAt_eq_some_iff.mp hfind
        rw [build_of_fault hsome hnil hfind]
        rcases faultAt_cases hfault with rfl | ⟨x, y, rfl⟩
        · exact .deadEnd hsome hnil hfirst (faultAt_eq_deadEnd_iff.mp hfault).2.2
        · obtain ⟨-, i, j, a, b, hover, rfl, rfl⟩ := faultAt_eq_overlap_iff.mp hfault
          exact .overlap hsome hnil hfirst hover

/-- **The check comes out in exactly one way.** -/
theorem build_eq_iff {result : Except (BuildError σ) (Table σ)} :
    draft.build = result ↔ Checked draft result :=
  ⟨fun h => h ▸ checked_build draft, Checked.build_eq⟩

/-- A table that was built passed the check. -/
theorem not_faulty_of_build (h : draft.build = .ok table) (s : σ) :
    ¬ Faulty table.transitions s := by
  rw [build_eq_iff] at h
  cases h with
  | table hstart hne hsound => exact hsound s

/-! ## The verdict on steps -/

/-- **No state is faulty** exactly when every state that does not accept has a way out and no two
transitions that leave one state overlap. -/
theorem forall_not_faulty_iff :
    (∀ s, ¬ Faulty ts s)
      ↔ (∀ s, StateSet.accepting s = false → ∃ t ∈ ts, t.src = s) ∧
        ∀ (i j : Nat) (a b : Transition σ), i ≠ j → ts[i]? = some a → ts[j]? = some b →
          a.src = b.src → a.label.overlaps b.label = false := by
  constructor
  · intro h
    refine ⟨fun s haccepting => ?_, fun i j a b hij hi hj hsrc => ?_⟩
    · by_contra hnone
      refine h s (Or.inl ⟨haccepting, List.filter_eq_nil_iff.mpr fun t ht hsrc => hnone ⟨t, ht, ?_⟩⟩)
      simpa using hsrc
    · by_contra hover
      rw [Bool.not_eq_false] at hover
      -- the pair in the order of its places
      have hpair : ∃ i j c d, OverlapAt ts i j c d ∧ c.src = a.src ∧ d.src = a.src := by
        rcases Nat.lt_or_gt_of_ne hij with hlt | hgt
        · exact ⟨i, j, a, b, ⟨hlt, hi, hj, hover⟩, rfl, hsrc.symm⟩
        · rw [Label.overlaps_comm] at hover
          exact ⟨j, i, b, a, ⟨hgt, hj, hi, hover⟩, hsrc.symm, rfl⟩
      exact h a.src (Or.inr (exists_overlapAt_leaving_iff.mpr hpair))
  · rintro ⟨hexit, hlabels⟩ s (⟨haccepting, hnil⟩ | hpair)
    · obtain ⟨t, ht, rfl⟩ := hexit s haccepting
      have hmem : t ∈ leaving ts t.src := List.mem_filter.mpr ⟨ht, by simp⟩
      rw [hnil] at hmem
      cases hmem
    · obtain ⟨i, j, a, b, hover, ha, hb⟩ := exists_overlapAt_leaving_iff.mp hpair
      have hnone := hlabels i j a b (Nat.ne_of_lt hover.lt) hover.first hover.second
        (ha.trans hb.symm)
      rw [hover.overlaps] at hnone
      cases hnone

/-- **The verdict on a sequence of steps.** It makes a table, of the start given last and of all
transitions in the order in which they were added, exactly when both are there, every state that
does not accept has a way out, and no two transitions that leave one state overlap. Otherwise the
error is the first of these:

* no start was given;
* no transition was added;
* the first faulty state is a dead end, if nothing leaves it;
* two labels that leave the first faulty state overlap, those of its first such pair. -/
theorem build_verdict (steps : List (DraftStep σ)) :
    (∀ table, (ofSteps steps).build = .ok table ↔
      lastStart? steps = some table.start ∧ table.transitions = addedBy steps ∧
      addedBy steps ≠ [] ∧
      (∀ s, StateSet.accepting s = false → ∃ t ∈ addedBy steps, t.src = s) ∧
      ∀ (i j : Nat) (a b : Transition σ), i ≠ j → (addedBy steps)[i]? = some a →
        (addedBy steps)[j]? = some b → a.src = b.src → a.label.overlaps b.label = false) ∧
    ((ofSteps steps).build = .error .missingStart ↔ lastStart? steps = none) ∧
    ((ofSteps steps).build = .error .noTransitions ↔
      lastStart? steps ≠ none ∧ addedBy steps = []) ∧
    (∀ s, (ofSteps steps).build = .error (.deadEnd s) ↔
      lastStart? steps ≠ none ∧ addedBy steps ≠ [] ∧ FirstFaulty (addedBy steps) s ∧
      leaving (addedBy steps) s = []) ∧
    ∀ s x y, (ofSteps steps).build = .error (.overlap s x y) ↔
      lastStart? steps ≠ none ∧ addedBy steps ≠ [] ∧ FirstFaulty (addedBy steps) s ∧
      ∃ i j a b, FirstOverlapAt (leaving (addedBy steps) s) i j a b ∧ a.label = x ∧ b.label = y := by
  rw [ofSteps_eq]
  refine ⟨fun table => ?table, ?missingStart, ?noTransitions, fun s => ?deadEnd,
    fun s x y => ?overlap⟩
  case table =>
    rw [build_eq_iff, ← forall_not_faulty_iff]
    constructor
    · intro h
      cases h with
      | table hstart hne hsound => exact ⟨hstart, rfl, hne, hsound⟩
    · obtain ⟨start, transitions⟩ := table
      rintro ⟨hstart, rfl, hne, hsound⟩
      exact .table hstart hne hsound
  case missingStart =>
    rw [build_eq_iff]
    constructor
    · intro h
      cases h with
      | missingStart hstart => exact hstart
    · intro hstart
      exact .missingStart hstart
  case noTransitions =>
    rw [build_eq_iff]
    constructor
    · intro h
      cases h with
      | noTransitions hstart hnil => exact ⟨hstart, hnil⟩
    · rintro ⟨hstart, hnil⟩
      exact .noTransitions hstart hnil
  case deadEnd =>
    rw [build_eq_iff]
    constructor
    · intro h
      cases h with
      | deadEnd hstart hne hfirst hnil => exact ⟨hstart, hne, hfirst, hnil⟩
    · rintro ⟨hstart, hne, hfirst, hnil⟩
      exact .deadEnd hstart hne hfirst hnil
  case overlap =>
    rw [build_eq_iff]
    constructor
    · intro h
      cases h with
      | overlap hstart hne hfirst hover =>
        exact ⟨hstart, hne, hfirst, _, _, _, _, hover, rfl, rfl⟩
    · rintro ⟨hstart, hne, hfirst, i, j, a, b, hover, rfl, rfl⟩
      exact .overlap hstart hne hfirst hover

end Draft

end AmountWalk
