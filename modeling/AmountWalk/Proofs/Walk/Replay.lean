import AmountWalk.Proofs.Walk.Legal

/-!
# What a returned path is worth

A path can be looked at in four ways: as its steps, as the states met along the way, as the state in
which it ends, and as the text that it emits. Along a legal path that ends in an accepting state the
four agree (`AcceptingRun`).

In particular, if every step of such a path emits a character, then reading its text with the table
meets the same states again, so the text is one that the table accepts. A silent step has no such
counterpart in a reading.
-/

namespace AmountWalk

variable {σ : Type}

/-! ## Views of a path -/

namespace Path

variable {path : Path σ} {start : σ}

theorem final?_eq (path : Path σ) :
    path.final? = path.steps.toList.getLast?.map Step.dst := by
  unfold final?
  rw [Array.getLast?_toList]

/-- Behind the first state, the states met are those that the steps enter. -/
theorem tail_states (path : Path σ) : path.states.tail = path.steps.toList.map Step.dst := by
  unfold states
  cases path.steps.toList <;> rfl

/-- The last of the states met is the one in which the path ends. -/
theorem getLast?_states (path : Path σ) : path.states.getLast? = path.final? := by
  rw [final?_eq, states]
  cases path.steps.toList with
  | nil => rfl
  | cons first rest =>
    show (first.src :: List.map Step.dst (first :: rest)).getLast? = _
    rw [← List.getLast?_map, List.map_cons, List.getLast?_cons_cons]

/-- A step appends a character, or it is silent. -/
theorem length_output_add (path : Path σ) :
    path.output.length + path.steps.toList.countP Step.isSilent = path.length := by
  have hlength : path.length = path.steps.toList.length := rfl
  rw [output, List.length_filterMap_eq_countP, hlength,
    List.length_eq_countP_add_countP Step.isSilent, Nat.add_comm]
  congr 2
  funext step
  cases h : step.emitted <;> simp [Step.isSilent, h]

theorem states_eq_cons {s : σ} (h : Leads start path.steps.toList s)
    (hne : path.isEmpty = false) : path.states = start :: path.steps.toList.map Step.dst := by
  unfold states
  cases hsteps : path.steps.toList with
  | nil =>
    rw [isEmpty, Array.toList_eq_nil_iff.mp hsteps] at hne
    cases hne
  | cons first rest =>
    rw [hsteps] at h
    rw [← h.1]
    rfl

end Path

/-- The state that steps lead to is the one that the last of them enters. -/
theorem Leads.eq_final {s t : σ} {path : Path σ} (h : Leads s path.steps.toList t) :
    t = path.final?.getD s := by
  rw [Path.final?_eq]
  rcases List.eq_nil_or_concat path.steps.toList with hnil | ⟨front, last, hconcat⟩
  · rw [hnil] at h ⊢
    exact h.symm
  · rw [List.concat_eq_append] at hconcat
    rw [hconcat] at h ⊢
    simpa using h.dst_last.symm

variable [DecidableEq σ]

/-! ## Reading the text of a path again -/

namespace Table

variable {table : Table σ}

/-- **Steps that all emit are met again when their text is read.** -/
theorem visitFrom_of_leads : ∀ {s t : σ} {steps : List (Step σ)}, Leads s steps t →
    (∀ step ∈ steps, table.Carries step) → (∀ step ∈ steps, step.isSilent = false) →
    table.visitFrom s (steps.filterMap Step.emitted)
        = (steps.map fun step => some step.dst, t) ∧
      table.runFrom s (steps.filterMap Step.emitted) = some t
  | _, _, [], h, _, _ => by
    cases h
    exact ⟨rfl, rfl⟩
  | _, t, step :: rest, h, hcarried, hloud => by
    obtain ⟨rfl, hrest⟩ := h
    obtain ⟨ch, hch⟩ : ∃ ch, step.emitted = some ch :=
      Option.isSome_iff_exists.mp (by simpa [Step.isSilent] using hloud step List.mem_cons_self)
    obtain ⟨edge, hedge, hdst⟩ := hcarried step List.mem_cons_self ch hch
    obtain ⟨hvisit, hrun⟩ := visitFrom_of_leads hrest
      (fun other hother => hcarried other (List.mem_cons_of_mem _ hother))
      (fun other hother => hloud other (List.mem_cons_of_mem _ hother))
    rw [List.filterMap_cons_some hch]
    refine ⟨?_, ?_⟩
    · rw [visitFrom, hedge]
      simp only [hdst, hvisit, List.map_cons]
    · rw [runFrom_cons, hedge, Option.bind_some, hdst, hrun]

end Table

/-! ## Accepting runs -/

variable [StateSet σ]

/-- What holds of a path that leads from the start of a table to an accepting state. -/
structure AcceptingRun (table : Table σ) (path : Path σ) : Prop where
  /-- The first step leaves the start, each other one the state that the step before it entered. -/
  leads : Leads table.start path.steps.toList (path.final?.getD table.start)
  /-- A character is emitted along the first transition that reads it. -/
  carried : ∀ step ∈ path.steps.toList, ∀ ch, step.emitted = some ch →
    ∃ t, table.transitionOn step.src ch = some t ∧ t.dst = step.dst
  /-- The last state accepts. It is the start, if there are no steps. -/
  accepting : StateSet.accepting (path.final?.getD table.start) = true
  /-- With any step, one more state than steps is met, from the start to the last state. -/
  states : path.isEmpty = false →
    path.states.length = path.length + 1 ∧ path.states.head? = some table.start ∧
      path.states.getLast? = path.final?
  /-- Every step that is not silent emits one character. -/
  output : path.output.length + path.steps.toList.countP Step.isSilent = path.length
  /-- Without silent steps, reading the text enters the states of the path and the text is
  accepted. -/
  reading : (∀ step ∈ path.steps.toList, step.isSilent = false) →
    table.visitFrom table.start path.output
        = (path.states.tail.map some, path.final?.getD table.start) ∧
      table.accepts path.output = true

theorem Legal.acceptingRun {table : Table σ} {path : Path σ} {s : σ}
    (h : Legal table path.steps.toList s) (haccepting : StateSet.accepting s = true) :
    AcceptingRun table path := by
  obtain rfl := h.leads.eq_final
  refine ⟨h.leads, h.carried, haccepting, fun hne => ?_, path.length_output_add, fun hloud => ?_⟩
  · have hstates := Path.states_eq_cons h.leads hne
    refine ⟨?_, ?_, ?_⟩
    · rw [hstates, List.length_cons, List.length_map]
      rfl
    · rw [hstates, List.head?_cons]
    · exact path.getLast?_states
  · obtain ⟨hvisit, hrun⟩ := Table.visitFrom_of_leads h.leads h.carried hloud
    refine ⟨?_, ?_⟩
    · rw [Path.output, hvisit, Path.tail_states, List.map_map]
      rfl
    · rw [Table.accepts, Path.output, hrun]
      exact haccepting

end AmountWalk
