import AmountWalk.Proofs.Amount.Moves

/-!
# Walks through the automaton of amounts are safe

For every source of choices and after any number of moves: no rule is broken, the steps hang
together from `q0` on, each character stands on exactly one transition, the point after whole
dollars is never written, and a silent step is the one from `q3` to `q6` with which the steps end. A
walk that halts does so in `q6` or `q8`, after two steps at least.

The parts that hold of every table come from `Legal` and from the determinism of a checked table.
What is special about amounts is `Orderly`, which the steps of `Takes` preserve: nothing leaves
`q6`, so nothing follows a silent step.
-/

namespace AmountWalk.Amount

open State

variable {γ : Type} [ChoiceSource γ]

/-! ## Single steps -/

theorem Takes.src_ne_q6 {step : Step State} (h : Takes step) : step.src ≠ q6 := by
  cases h <;> exact State.noConfusion

theorem Takes.silent {step : Step State} (h : Takes step) (hnone : step.emitted = none) :
    step.src = q3 ∧ step.dst = q6 := by
  cases h with
  | whole => exact ⟨rfl, rfl⟩
  | _ => cases hnone

theorem Takes.emitted_ne_point {step : Step State} (h : Takes step) (hsrc : step.src = q3) :
    step.emitted ≠ some '.' := by
  cases h with
  | nextDollar hdigit => exact fun heq => hdigit.ne (by decide) (Option.some.inj heq)
  | whole => exact Option.some_ne_none _ |>.symm
  | _ => cases hsrc

/-- How many steps it takes to get to a state, at least; two is enough to tell. -/
def depth : State → Nat
  | q0 => 0
  | q1 | q7 => 1
  | _ => 2

theorem Takes.depth_le {step : Step State} (h : Takes step) :
    depth step.dst ≤ depth step.src + 1 := by
  cases h <;> simp [depth]

/-! ## The invariant -/

/-- What the steps of a walk through the automaton of amounts keep to. -/
structure Orderly (steps : List (Step State)) (s : State) : Prop where
  taken : ∀ step ∈ steps, Takes step
  /-- Nothing follows a silent step. -/
  silentLast : ∀ front step back, steps = front ++ step :: back → step.emitted = none → back = []
  depth_le : depth s ≤ steps.length

theorem Orderly.concat {steps : List (Step State)} {step : Step State}
    (h : Orderly steps step.src) (hleads : Leads q0 steps step.src) (htakes : Takes step) :
    Orderly (steps ++ [step]) step.dst where
  taken := by
    intro other hmem
    rcases List.mem_append.mp hmem with hmem | hmem
    · exact h.taken other hmem
    · rw [List.mem_singleton.mp hmem]
      exact htakes
  silentLast := by
    intro front silent back heq hnone
    rcases List.eq_nil_or_concat back with hback | ⟨init, last, hback⟩
    · exact hback
    · -- the silent step is one of the earlier ones, hence the last of these, and leads to `q6`
      exfalso
      rw [hback, List.concat_eq_append, ← List.cons_append, ← List.append_assoc] at heq
      obtain ⟨hsteps, _⟩ := List.append_inj' heq rfl
      have hinit := h.silentLast front silent init hsteps hnone
      rw [hsteps, hinit] at hleads
      have hmem : silent ∈ steps := by rw [hsteps]; simp
      have hq6 := ((h.taken silent hmem).silent hnone).2
      rw [hleads.dst_last] at hq6
      exact htakes.src_ne_q6 hq6
  depth_le := by
    have hdepth := htakes.depth_le
    have hbefore := h.depth_le
    rw [List.length_append, List.length_singleton]
    omega

/-- What is orderly about a walk under way, and about one that has ended. -/
def OrderlyProgress : Progress State γ → Prop
  | .going s path _ => Orderly path.steps.toList s
  | .halted s path _ => Orderly path.steps.toList s ∧ (s = q6 ∨ s = q8)
  | .faulted .. => False

theorem orderlyProgress_of_proceeds {before after : Progress State γ}
    (hmove : Table.Proceeds table policy before after) (hlegal : table.LegalProgress before)
    (h : OrderlyProgress before) : OrderlyProgress after := by
  cases hmove with
  | step ha =>
    obtain ⟨rfl, _⟩ := Table.judge_eq_step (congrArg Prod.fst ha)
    show Orderly (Path.record _ _).steps.toList _
    rw [Path.toList_steps_record]
    exact Orderly.concat h hlegal.leads (takes_of_advance ha)
  | halt ha => exact ⟨h, end_of_advance ha⟩
  | fault ha => exact absurd ha advance_ne_fault
  | halted => exact h
  | faulted => exact h

theorem orderlyProgress_progress (moves : Nat) (source : γ) :
    OrderlyProgress (table.progress policy moves source) := by
  -- not by `progress_invariant`: a move is orderly only because the path before it is legal
  induction moves with
  | zero =>
    refine ⟨by simp, ?_, Nat.le_refl 0⟩
    intro front step back heq
    simp at heq
  | succ moves ih =>
    exact orderlyProgress_of_proceeds (Table.proceeds_progress table policy moves source)
      (Table.legalProgress_progress moves source) ih

/-! ## Safety -/

/-- What is safe about the steps of a walk that stands in a state. -/
structure SafeSteps (steps : List (Step State)) (s : State) : Prop where
  /-- They hang together from the start on. -/
  chain : Leads q0 steps s
  /-- One transition, and no other, reads the character of a step where the step begins; it leads to
  where the step ends. -/
  oneEdge : ∀ step ∈ steps, ∀ ch, step.emitted = some ch →
    ∃ t, table.transitions.filter (·.accepts step.src ch) = [t] ∧ t.dst = step.dst
  /-- The point after whole dollars is never written. -/
  noPoint : ∀ step ∈ steps, step.src = q3 → step.emitted ≠ some '.'
  /-- A silent step is the one that leaves whole dollars as they are. -/
  silentExit : ∀ step ∈ steps, step.emitted = none → step.src = q3 ∧ step.dst = q6
  /-- Nothing follows a silent step. -/
  silentLast : ∀ front step back, steps = front ++ step :: back → step.emitted = none → back = []
  /-- There are not two silent steps. -/
  silentOnce : (steps.filter Step.isSilent).length ≤ 1

/-- A step that nothing may follow occurs once at most. -/
theorem length_filter_isSilent_le_one {steps : List (Step State)}
    (h : ∀ front step back, steps = front ++ step :: back → step.emitted = none → back = []) :
    (steps.filter Step.isSilent).length ≤ 1 := by
  rcases List.eq_nil_or_concat steps with hnil | ⟨init, last, hconcat⟩
  · rw [hnil]
    exact Nat.zero_le 1
  · have hinit : init.filter Step.isSilent = [] := by
      rw [List.filter_eq_nil_iff]
      intro step hmem hsilent
      obtain ⟨front, back, hsplit⟩ := List.append_of_mem hmem
      have hlast := h front step (back ++ [last]) (by simp [hconcat, hsplit])
        (Option.isNone_iff_eq_none.mp hsilent)
      simp at hlast
    rw [hconcat, List.concat_eq_append, List.filter_append, hinit, List.nil_append]
    exact List.length_filter_le _ [last]

theorem safeSteps_of_orderly {steps : List (Step State)} {s : State}
    (hlegal : Legal table steps s) (horderly : Orderly steps s) : SafeSteps steps s where
  chain := hlegal.leads
  oneEdge := by
    intro step hmem ch hch
    obtain ⟨t, hon, hdst⟩ := hlegal.carried step hmem ch hch
    exact ⟨t, Draft.filter_accepts_eq_singleton build_transitions hon, hdst⟩
  noPoint := fun step hmem => (horderly.taken step hmem).emitted_ne_point
  silentExit := fun step hmem => (horderly.taken step hmem).silent
  silentLast := horderly.silentLast
  silentOnce := length_filter_isSilent_le_one horderly.silentLast

/-- A walk that is safe so far: no rule is broken, and if it halted, then at a complete amount. -/
def SafeProgress : Progress State γ → Prop
  | .going s path _ => SafeSteps path.steps.toList s
  | .halted s path _ => SafeSteps path.steps.toList s ∧ (s = q6 ∨ s = q8) ∧ 2 ≤ path.length
  | .faulted .. => False

/-- A bounded walk that is safe to its end. One that is abandoned has recorded as many steps as it
may have, and they are safe. -/
def SafeEnding (maxSteps : Nat) (source : γ) : Ending State → Prop
  | .finished path =>
    ∃ s, SafeSteps path.steps.toList s ∧ (s = q6 ∨ s = q8) ∧ 2 ≤ path.length
  | .abandoned s =>
    ∃ path left, table.progress policy maxSteps source = .going s path left ∧
      SafeSteps path.steps.toList s ∧ path.length = maxSteps
  | .fault _ => False

theorem safeProgress_progress (moves : Nat) (source : γ) :
    SafeProgress (table.progress policy moves source) := by
  have hlegal : table.LegalProgress (table.progress policy moves source) :=
    Table.legalProgress_progress moves source
  have horderly := orderlyProgress_progress moves source
  cases hp : table.progress policy moves source with
  | going s path rest =>
    rw [hp] at hlegal horderly
    exact safeSteps_of_orderly hlegal horderly
  | halted s path rest =>
    rw [hp] at hlegal horderly
    obtain ⟨horderly, hend⟩ := horderly
    refine ⟨safeSteps_of_orderly hlegal.1 horderly, hend, ?_⟩
    rcases hend with rfl | rfl
    · exact horderly.depth_le
    · exact horderly.depth_le
  | faulted =>
    rw [hp] at horderly
    exact horderly.elim

theorem safeEnding_walkBounded (maxSteps : Nat) (source : γ) :
    SafeEnding maxSteps source (table.walkBounded policy maxSteps source).outcome := by
  -- one move more than the bound decides the ending, see `walkBounded_of_going` and its kin
  have h := safeProgress_progress (maxSteps + 1) source
  cases hp : table.progress policy (maxSteps + 1) source with
  | going s path rest =>
    obtain ⟨t, behind, left, hbefore, hbounded⟩ := Table.walkBounded_of_going hp
    have hsafe := safeProgress_progress maxSteps source
    rw [hbefore] at hsafe
    rw [hbounded]
    exact ⟨behind, left, hbefore, hsafe, Table.length_of_going hbefore⟩
  | halted s path rest =>
    rw [hp] at h
    rw [Table.walkBounded_of_halted hp]
    exact ⟨s, h⟩
  | faulted =>
    rw [hp] at h
    exact h.elim

/-- The sum that makes the character of a digit fits into an octet, whatever the source answers. -/
theorem exists_octet_emitDrawn (dst : State) (cls : DigitClass) (source : γ) :
    ∃ octet : UInt8,
      octet.toNat = '0'.toNat + (cls.clamp (ChoiceSource.digit cls source).1).toNat ∧
      ((Draws.emitDrawn dst cls).run source).1 = .emit dst (Char.ofNat octet.toNat) := by
  have hle := DigitClass.le_nine_of_contains (cls.contains_clamp (ChoiceSource.digit cls source).1)
  rw [UInt8.le_iff_toNat_le] at hle
  have hlt : '0'.toNat + (cls.clamp (ChoiceSource.digit cls source).1).toNat < UInt8.size := by
    have hnine : (9 : UInt8).toNat = 9 := rfl
    have hzero : '0'.toNat = 48 := rfl
    have hsize : UInt8.size = 256 := rfl
    omega
  refine ⟨UInt8.ofNat _, UInt8.toNat_ofNat_of_lt' hlt, ?_⟩
  rw [Draws.run_emitDrawn, UInt8.toNat_ofNat_of_lt' hlt]
  rfl

/-- **Every walk through the automaton of amounts is safe,** bounded or not, at every moment and for
every source of choices. -/
theorem walk_safe (source : γ) :
    (∀ moves, SafeProgress (table.progress policy moves source)) ∧
    (∀ moves run, table.walk policy moves source = some run →
      ∃ s path, run.outcome = .ok path ∧
        SafeSteps path.steps.toList s ∧ (s = q6 ∨ s = q8) ∧ 2 ≤ path.length) ∧
    (∀ maxSteps,
      SafeEnding maxSteps source (table.walkBounded policy maxSteps source).outcome) ∧
    (∀ (left : γ) (dst : State) (cls : DigitClass), ∃ octet : UInt8,
      octet.toNat = '0'.toNat + (cls.clamp (ChoiceSource.digit cls left).1).toNat ∧
      ((Draws.emitDrawn dst cls).run left).1 = .emit dst (Char.ofNat octet.toNat)) := by
  refine ⟨fun moves => safeProgress_progress moves source, ?_,
    fun maxSteps => safeEnding_walkBounded maxSteps source,
    fun left dst cls => exists_octet_emitDrawn dst cls left⟩
  intro moves run hrun
  obtain ⟨s, path, hp, hok⟩ := halted_of_walk hrun
  have h := safeProgress_progress moves source
  rw [hp] at h
  exact ⟨s, path, hok, h⟩

end AmountWalk.Amount
