import AmountWalk.Proofs.Walk.Bounded
import AmountWalk.Proofs.Walk.Replay

/-!
# The first move that breaks a rule

A policy makes its moves without looking at a table: `Policy.standsAfter` is where it stands after so
many of them when nothing is checked. Two kinds of moves break a rule of walks (`Table.Breaks`):
to emit a character whose first transition is absent or leads elsewhere, and to halt in a state that
does not accept.

A walk goes along with the policy as long as no rule is broken, and it ends with a fault in the first
move that breaks one (`faultsAt_iff_firstBreach`). So the checks of a walk find every breach, and
nothing else.
-/

namespace AmountWalk

variable {σ γ : Type}

/-! ## Policies by themselves -/

/-- The state that a move enters. -/
def Move.dst? : Move σ → Option σ
  | .emit dst _ => some dst
  | .silent dst => some dst
  | .halt => none

section Alone

variable [ChoiceSource γ] (policy : Policy σ) (start : σ) (source : γ)

/-- Where a policy stands after so many moves, and what is left of the source then, unless it halted
before. -/
def Policy.standsAfter : Nat → Option (σ × γ)
  | 0 => some (start, source)
  | n + 1 =>
    (standsAfter n).bind fun (s, left) =>
      let (move, rest) := (policy s).run left
      move.dst?.map fun dst => (dst, rest)

/-- The policy makes its move of this number, the first being number zero, out of this state and
leaves this source. -/
def Policy.Makes (number : Nat) (s : σ) (move : Move σ) (rest : γ) : Prop :=
  ∃ left, Policy.standsAfter policy start source number = some (s, left) ∧
    (policy s).run left = (move, rest)

variable {policy start source} {n : Nat} {s s' : σ} {move move' : Move σ} {rest rest' : γ}

/-- A policy makes one move at a time. -/
theorem Policy.Makes.unique (h : Policy.Makes policy start source n s move rest)
    (h' : Policy.Makes policy start source n s' move' rest') :
    s = s' ∧ move = move' ∧ rest = rest' := by
  obtain ⟨left, hstands, hrun⟩ := h
  obtain ⟨left', hstands', hrun'⟩ := h'
  rw [hstands] at hstands'
  cases hstands'
  rw [hrun] at hrun'
  cases hrun'
  exact ⟨rfl, rfl, rfl⟩

/-- After a move the policy stands where the move enters. -/
theorem Policy.Makes.standsAfter_succ (h : Policy.Makes policy start source n s move rest) :
    Policy.standsAfter policy start source (n + 1) = move.dst?.map fun dst => (dst, rest) := by
  obtain ⟨left, hstands, hrun⟩ := h
  rw [Policy.standsAfter, hstands, Option.bind_some]
  simp only [hrun]

/-- A policy that stands somewhere has made a move to get there. -/
theorem Policy.exists_makes_of_standsAfter_succ
    (h : Policy.standsAfter policy start source (n + 1) = some (s', rest)) :
    ∃ s move, Policy.Makes policy start source n s move rest ∧ move.dst? = some s' := by
  rw [Policy.standsAfter, Option.bind_eq_some_iff] at h
  obtain ⟨⟨s, left⟩, hstands, hmove⟩ := h
  obtain ⟨dst, hdst, heq⟩ := Option.map_eq_some_iff.mp hmove
  cases heq
  exact ⟨s, _, ⟨left, hstands, rfl⟩, hdst⟩

end Alone

variable [DecidableEq σ] [StateSet σ]

namespace Table

/-! ## Breaking a rule -/

/-- What it means for a move out of a state to break a rule, and with which fault it does. -/
inductive Breaks (table : Table σ) (s : σ) : Move σ → Fault σ → Prop where
  /-- The first transition that reads the character, if there is any, leads elsewhere. -/
  | emit {dst : σ} {ch : Char} (h : ∀ t, table.transitionOn s ch = some t → t.dst ≠ dst) :
      Breaks table s (.emit dst ch) (.noEdge s ch dst)
  /-- The state does not accept. -/
  | halt (h : StateSet.accepting s = false) : Breaks table s .halt (.haltedIn s)

theorem judge_eq_fault_iff {table : Table σ} {s : σ} {move : Move σ} {fault : Fault σ} :
    table.judge s move = .fault fault ↔ table.Breaks s move fault := by
  cases move with
  | emit dst ch =>
    rw [judge]
    split
    · next hedge =>
      obtain ⟨t, hon, hdst⟩ := Option.any_eq_true _ _ |>.mp hedge
      refine ⟨fun h => (by cases h), fun h => ?_⟩
      cases h with
      | emit hnone => exact absurd (by simpa using hdst) (hnone t hon)
    · next hedge =>
      constructor
      · intro h
        cases h
        refine .emit fun t hon hdst => hedge ?_
        simp [hon, hdst]
      · intro h
        cases h
        rfl
  | silent dst => exact ⟨fun h => (by cases h), fun h => (by cases h)⟩
  | halt =>
    rw [judge]
    split
    · next haccepting =>
      refine ⟨fun h => (by cases h), fun h => ?_⟩
      cases h with
      | halt hrefuses =>
        rw [haccepting] at hrefuses
        cases hrefuses
    · next haccepting =>
      constructor
      · intro h
        cases h
        exact .halt (by simpa using haccepting)
      · intro h
        cases h
        rfl

/-- A step that is allowed enters the state that its move enters. -/
theorem dst?_of_judge_eq_step {table : Table σ} {s : σ} {move : Move σ} {step : Step σ}
    (h : table.judge s move = .step step) : move.dst? = some step.dst := by
  cases move with
  | emit dst ch =>
    rw [judge] at h
    split at h
    · cases h
      rfl
    · cases h
  | silent dst =>
    cases h
    rfl
  | halt =>
    rw [judge] at h
    split at h <;> cases h

/-- A move that breaks no rule and enters a state is a step. -/
theorem exists_step_of_dst? {table : Table σ} {s dst : σ} {move : Move σ}
    (hdst : move.dst? = some dst) (hkeeps : ∀ fault, ¬ table.Breaks s move fault) :
    ∃ step, table.judge s move = .step step ∧ step.dst = dst := by
  cases hjudge : table.judge s move with
  | step step =>
    rw [dst?_of_judge_eq_step hjudge] at hdst
    exact ⟨step, rfl, Option.some.inj hdst⟩
  | halt =>
    cases move with
    | emit =>
      rw [judge] at hjudge
      split at hjudge <;> cases hjudge
    | silent => cases hjudge
    | halt => cases hdst
  | fault fault => exact absurd (judge_eq_fault_iff.mp hjudge) (hkeeps fault)

variable [ChoiceSource γ] {table : Table σ} {policy : Policy σ} {s : σ} {path : Path σ}
  {source left rest : γ} {move : Move σ} {fault : Fault σ} {n : Nat}

/-- None of the policy's first so many moves breaks a rule. -/
def KeepsFor (table : Table σ) (policy : Policy σ) (source : γ) (n : Nat) : Prop :=
  ∀ number < n, ∀ s move rest fault,
    Policy.Makes policy table.start source number s move rest → ¬ table.Breaks s move fault

/-- The policy's move of this number, counted from one, is its first that breaks a rule. It does so
with this fault and leaves this source. -/
def FirstBreach (table : Table σ) (policy : Policy σ) (source : γ) (number : Nat)
    (fault : Fault σ) (rest : γ) : Prop :=
  ∃ n s move, number = n + 1 ∧ Policy.Makes policy table.start source n s move rest ∧
    table.Breaks s move fault ∧ table.KeepsFor policy source n

theorem KeepsFor.succ (h : table.KeepsFor policy source n)
    (hmakes : Policy.Makes policy table.start source n s move rest)
    (hkeeps : ∀ fault, ¬ table.Breaks s move fault) : table.KeepsFor policy source (n + 1) := by
  intro number hlt s' move' rest' fault hmakes'
  rcases Nat.lt_succ_iff_lt_or_eq.mp hlt with hlt | rfl
  · exact h number hlt s' move' rest' fault hmakes'
  · obtain ⟨rfl, rfl, rfl⟩ := hmakes.unique hmakes'
    exact hkeeps fault

theorem KeepsFor.mono {m : Nat} (h : table.KeepsFor policy source n) (hle : m ≤ n) :
    table.KeepsFor policy source m :=
  fun number hlt => h number (Nat.lt_of_lt_of_le hlt hle)

/-! ## Walking along with a policy -/

theorem advance_eq (h : (policy s).run left = (move, rest)) :
    table.advance policy s left = (table.judge s move, rest) := by
  rw [advance, h]

/-- The move behind what a walk does next. -/
theorem exists_makes_of_advance {advance : Advance σ}
    (hstands : Policy.standsAfter policy table.start source n = some (s, left))
    (h : table.advance policy s left = (advance, rest)) :
    ∃ move, Policy.Makes policy table.start source n s move rest ∧
      table.judge s move = advance := by
  cases hrun : (policy s).run left with
  | mk move rest' =>
    rw [advance_eq hrun] at h
    cases h
    exact ⟨move, ⟨left, hstands, hrun⟩, rfl⟩

/-- A walk under way has gone along with the policy, which broke no rule. -/
theorem standsAfter_of_going (h : table.progress policy n source = .going s path rest) :
    Policy.standsAfter policy table.start source n = some (s, rest) ∧
      table.KeepsFor policy source n := by
  induction n generalizing s path rest with
  | zero =>
    rw [progress_zero] at h
    cases h
    exact ⟨rfl, fun number hlt => absurd hlt (Nat.not_lt_zero number)⟩
  | succ n ih =>
    have hmove := proceeds_progress table policy n source
    rw [h] at hmove
    generalize hbefore : table.progress policy n source = before at hmove
    cases hmove with
    | step ha =>
      obtain ⟨hstands, hkeeps⟩ := ih hbefore
      obtain ⟨move, hmakes, hjudge⟩ := exists_makes_of_advance hstands ha
      refine ⟨?_, hkeeps.succ hmakes fun fault hbreaks => ?_⟩
      · rw [hmakes.standsAfter_succ, dst?_of_judge_eq_step hjudge]
        rfl
      · rw [judge_eq_fault_iff.mpr hbreaks] at hjudge
        cases hjudge

/-- As long as the policy breaks no rule, a walk goes along with it. -/
theorem going_of_standsAfter
    (h : Policy.standsAfter policy table.start source n = some (s, rest))
    (hkeeps : table.KeepsFor policy source n) :
    ∃ path, table.progress policy n source = .going s path rest := by
  induction n generalizing s rest with
  | zero =>
    cases h
    exact ⟨.empty, rfl⟩
  | succ n ih =>
    obtain ⟨u, move, hmakes, hdst⟩ := Policy.exists_makes_of_standsAfter_succ h
    obtain ⟨left, hstands, hrun⟩ := hmakes
    obtain ⟨path, hgoing⟩ := ih hstands (hkeeps.mono (Nat.le_succ n))
    obtain ⟨step, hjudge, rfl⟩ := exists_step_of_dst? hdst
      (hkeeps n (Nat.lt_succ_self n) u move rest · ⟨left, hstands, hrun⟩)
    refine ⟨path.record step, ?_⟩
    rw [progress_succ, hgoing]
    exact proceed_of_step (by rw [advance_eq hrun, hjudge])

/-! ## Faults and breaches -/

/-- A walk that is under way has not ended before. -/
theorem walk_eq_none_of_going (h : table.progress policy n source = .going s path rest)
    {moves : Nat} (hle : moves ≤ n) : table.walk policy moves source = none := by
  cases hp : table.progress policy moves source with
  | going => exact walk_of_going hp
  | halted =>
    rw [progress_halted_mono hp hle] at h
    cases h
  | faulted =>
    rw [progress_faulted_mono hp hle] at h
    cases h

theorem faultsAt_succ_of_proceeds (h : table.progress policy n source = .going s path left)
    (ha : table.advance policy s left = (.fault fault, rest)) :
    table.FaultsAt policy source (n + 1) fault rest := by
  have hfaulted : table.progress policy (n + 1) source = .faulted fault path rest := by
    rw [progress_succ, h]
    exact proceed_of_fault ha
  exact ⟨walk_of_faulted hfaulted, fun moves hlt =>
    walk_eq_none_of_going h (Nat.le_of_lt_succ hlt)⟩

/-- A walk that has broken a rule did so in some move. -/
theorem exists_faultsAt_of_faulted (h : table.progress policy n source = .faulted fault path rest) :
    ∃ number ≤ n, table.FaultsAt policy source number fault rest := by
  induction n with
  | zero => cases h
  | succ n ih =>
    have hmove := proceeds_progress table policy n source
    rw [h] at hmove
    generalize hbefore : table.progress policy n source = before at hmove
    cases hmove with
    | fault ha => exact ⟨n + 1, Nat.le_refl _, faultsAt_succ_of_proceeds hbefore ha⟩
    | faulted =>
      obtain ⟨number, hle, hfaults⟩ := ih hbefore
      exact ⟨number, Nat.le_succ_of_le hle, hfaults⟩

/-- **A walk ends with a fault exactly in the policy's first move that breaks a rule.** -/
theorem faultsAt_iff_firstBreach {number : Nat} :
    table.FaultsAt policy source number fault rest
      ↔ table.FirstBreach policy source number fault rest := by
  constructor
  · rintro ⟨hfault, hbefore⟩
    obtain ⟨n, rfl⟩ : ∃ n, number = n + 1 := by
      cases number with
      | zero => cases hfault
      | succ n => exact ⟨n, rfl⟩
    obtain ⟨s, path, left, hgoing⟩ := going_of_walk_eq_none (hbefore n (Nat.lt_succ_self n))
    obtain ⟨hstands, hkeeps⟩ := standsAfter_of_going hgoing
    obtain ⟨path', hfaulted⟩ := faulted_of_walk_eq_error hfault
    have hmove := proceeds_progress table policy n source
    rw [hgoing, hfaulted] at hmove
    cases hmove with
    | fault ha =>
      obtain ⟨move, hmakes, hjudge⟩ := exists_makes_of_advance hstands ha
      exact ⟨n, s, move, rfl, hmakes, judge_eq_fault_iff.mp hjudge, hkeeps⟩
  · rintro ⟨n, s, move, rfl, ⟨left, hstands, hrun⟩, hbreaks, hkeeps⟩
    obtain ⟨path, hgoing⟩ := going_of_standsAfter hstands hkeeps
    exact faultsAt_succ_of_proceeds hgoing
      (by rw [advance_eq hrun, judge_eq_fault_iff.mpr hbreaks])

/-- A walk that was cut short by a fault met the first breach. -/
theorem exists_firstBreach_of_walk {moves : Nat} {log : List Event}
    (h : table.walk policy moves source = some ⟨.error fault, rest, log⟩) :
    ∃ number ≤ moves, table.FirstBreach policy source number fault rest := by
  obtain ⟨path, hfaulted⟩ := faulted_of_walk_eq_error h
  obtain ⟨number, hle, hfaults⟩ := exists_faultsAt_of_faulted hfaulted
  exact ⟨number, hle, faultsAt_iff_firstBreach.mp hfaults⟩

/-- **A bounded walk ends with a fault exactly if the first breach comes in time,** no later than in
the move after the last step that the bound allows. -/
theorem walkBounded_fault_iff {maxSteps : Nat} :
    (table.walkBounded policy maxSteps source).outcome = .fault fault ∧
        (table.walkBounded policy maxSteps source).source = rest
      ↔ ∃ number ≤ maxSteps + 1, table.FirstBreach policy source number fault rest := by
  constructor
  · rintro ⟨houtcome, hsource⟩
    cases hp : table.progress policy (maxSteps + 1) source with
    | going =>
      obtain ⟨s, habandons⟩ := abandons_of_going hp
      rw [habandons] at houtcome
      cases houtcome
    | halted =>
      rw [walkBounded_of_halted hp] at houtcome
      cases houtcome
    | faulted =>
      rw [walkBounded_of_faulted hp] at houtcome hsource
      cases houtcome
      cases hsource
      obtain ⟨number, hle, hfaults⟩ := exists_faultsAt_of_faulted hp
      exact ⟨number, hle, faultsAt_iff_firstBreach.mp hfaults⟩
  · rintro ⟨number, hle, hbreach⟩
    rw [walkBounded_of_faultsAt (faultsAt_iff_firstBreach.mpr hbreach) hle]
    exact ⟨rfl, rfl⟩

/-! ## Walks and their paths -/

theorem acceptingRun_of_haltsWith (h : table.HaltsWith policy source path rest) :
    AcceptingRun table path := by
  obtain ⟨s, hs⟩ := haltsWith_iff.mp h
  have hlegal : table.LegalProgress (table.progress policy (path.length + 1) source) :=
    legalProgress_progress _ source
  rw [hs] at hlegal
  exact hlegal.1.acceptingRun hlegal.2

/-- **A walk returns accepting runs and nothing else,** for every table, checked or not, every policy
and every source: a path that it returns, bounded or not, leads legally from the start to an
accepting state. It ends with a fault exactly in the policy's first move that breaks a rule, and a
bounded walk does if it makes that move. -/
theorem walk_returns_accepting_runs (table : Table σ) (policy : Policy σ) (source : γ) :
    (∀ moves path rest log, table.walk policy moves source = some ⟨.ok path, rest, log⟩ →
      AcceptingRun table path) ∧
    (∀ maxSteps path rest log,
      table.walkBounded policy maxSteps source = ⟨.finished path, rest, log⟩ →
      AcceptingRun table path) ∧
    (∀ number fault rest, table.FaultsAt policy source number fault rest ↔
      table.FirstBreach policy source number fault rest) ∧
    (∀ moves fault rest log,
      table.walk policy moves source = some ⟨.error fault, rest, log⟩ →
      ∃ number ≤ moves, table.FirstBreach policy source number fault rest) ∧
    ∀ maxSteps fault rest,
      ((table.walkBounded policy maxSteps source).outcome = .fault fault ∧
        (table.walkBounded policy maxSteps source).source = rest) ↔
      ∃ number ≤ maxSteps + 1, table.FirstBreach policy source number fault rest := by
  refine ⟨?walk, ?bounded, ?faults, ?never, ?boundedFaults⟩
  case walk =>
    intro moves path rest log h
    obtain ⟨s, hs⟩ := halted_of_walk_eq_ok h
    exact acceptingRun_of_haltsWith ⟨moves, walk_of_halted hs⟩
  case bounded =>
    intro maxSteps path rest log h
    exact acceptingRun_of_haltsWith (haltsWith_of_walkBounded h).2
  case faults =>
    intro number fault rest
    exact faultsAt_iff_firstBreach
  case never =>
    intro moves fault rest log h
    exact exists_firstBreach_of_walk h
  case boundedFaults =>
    intro maxSteps fault rest
    exact walkBounded_fault_iff

end Table

end AmountWalk
