import AmountWalk.Proofs.Choice.Answers
import AmountWalk.Proofs.Digit
import AmountWalk.Proofs.Walk.Breach
import Mathlib.Data.Nat.Find

/-!
# The contract of a policy

When what to do in each state is given by a plan, it can be told without walking whether a walk can
ever break the rules. A plan ends in leaves, and each leaf makes certain moves: one, or one for each
digit of a class. The contract (`Contract`) asks of every leaf of every state within reach that the
table allows all its moves.

The contract is sufficient for every source, since a policy only ever stands in states within reach
(`reachable_of_standsAfter`). It is necessary already for scripts: for every state within reach there
is a script that leads there, and for every move of a leaf there are answers that lead to it
(`exists_script_of_reachable`, `Plan.exists_answeredBy`), so a leaf that breaks a rule is met by a walk
on some script, unless that walk breaks a rule before.
-/

namespace AmountWalk

variable {σ γ : Type}

/-! ## Leaves of a plan -/

/-- What stands at the end of a branch of a plan. -/
inductive Leaf (σ : Type) where
  | halt
  | emit (dst : σ) (ch : Char)
  | silent (dst : σ)
  | draw (dst : σ) (cls : DigitClass)

/-- The leaves of a plan. -/
def Plan.leaves : Plan σ → List (Leaf σ)
  | halt => [.halt]
  | emit dst ch => [.emit dst ch]
  | silent dst => [.silent dst]
  | draw dst cls => [.draw dst cls]
  | coin onHeads onTails => onHeads.leaves ++ onTails.leaves

namespace Leaf

/-- The state that a leaf enters. -/
def dst? : Leaf σ → Option σ
  | halt => none
  | emit dst _ => some dst
  | silent dst => some dst
  | draw dst _ => some dst

/-- The moves that a leaf can make. -/
inductive Makes : Leaf σ → Move σ → Prop where
  | halt : Makes .halt .halt
  | emit {dst : σ} {ch : Char} : Makes (.emit dst ch) (.emit dst ch)
  | silent {dst : σ} : Makes (.silent dst) (.silent dst)
  | draw {dst : σ} {cls : DigitClass} {digit : UInt8} (h : cls.contains digit = true) :
      Makes (.draw dst cls) (.emit dst (digitChar digit))

theorem Makes.dst?_eq {leaf : Leaf σ} {move : Move σ} (h : leaf.Makes move) :
    move.dst? = leaf.dst? := by
  cases h <;> rfl

theorem exists_makes (leaf : Leaf σ) : ∃ move, leaf.Makes move := by
  cases leaf with
  | halt => exact ⟨_, .halt⟩
  | emit dst ch => exact ⟨_, .emit⟩
  | silent dst => exact ⟨_, .silent⟩
  | draw dst cls => exact ⟨_, .draw (cls.contains_clamp 0)⟩

end Leaf

/-! ## Running a plan -/

namespace Plan

/-- **A plan makes a move of one of its leaves,** whatever the source answers. -/
theorem exists_leaf_makes [ChoiceSource γ] (plan : Plan σ) (source : γ) :
    ∃ leaf ∈ plan.leaves, leaf.Makes (plan.draws.run source).1 := by
  induction plan generalizing source with
  | halt => exact ⟨_, List.mem_singleton_self _, .halt⟩
  | emit dst ch => exact ⟨_, List.mem_singleton_self _, .emit⟩
  | silent dst => exact ⟨_, List.mem_singleton_self _, .silent⟩
  | draw dst cls =>
    refine ⟨_, List.mem_singleton_self _, ?_⟩
    rw [draws, Draws.run_emitDrawn]
    exact .draw (cls.contains_clamp _)
  | coin onHeads onTails ihHeads ihTails =>
    rw [draws, Draws.run_coin]
    cases (ChoiceSource.coin source).1 with
    | true =>
      obtain ⟨leaf, hmem, hmakes⟩ := ihHeads (ChoiceSource.coin source).2
      exact ⟨leaf, List.mem_append_left _ hmem, hmakes⟩
    | false =>
      obtain ⟨leaf, hmem, hmakes⟩ := ihTails (ChoiceSource.coin source).2
      exact ⟨leaf, List.mem_append_right _ hmem, hmakes⟩

/-- **Some answers lead to any move of any leaf.** -/
theorem exists_answeredBy {plan : Plan σ} {leaf : Leaf σ} {move : Move σ}
    (hleaf : leaf ∈ plan.leaves) (hmakes : leaf.Makes move) :
    ∃ answers, plan.draws.AnsweredBy answers move := by
  induction plan with
  | halt =>
    cases List.mem_singleton.mp hleaf
    cases hmakes
    exact ⟨_, .done _⟩
  | emit dst ch =>
    cases List.mem_singleton.mp hleaf
    cases hmakes
    exact ⟨_, .done _⟩
  | silent dst =>
    cases List.mem_singleton.mp hleaf
    cases hmakes
    exact ⟨_, .done _⟩
  | draw dst cls =>
    cases List.mem_singleton.mp hleaf
    cases hmakes with
    | draw hdigit => exact ⟨_, Draws.answeredBy_emitDrawn_iff.mpr ⟨_, hdigit, rfl, rfl⟩⟩
  | coin onHeads onTails ihHeads ihTails =>
    rcases List.mem_append.mp hleaf with hleaf | hleaf
    · obtain ⟨answers, h⟩ := ihHeads hleaf
      exact ⟨_, .coin true h⟩
    · obtain ⟨answers, h⟩ := ihTails hleaf
      exact ⟨_, .coin false h⟩

end Plan

/-! ## States within reach -/

/-- The policy that follows a plan in each state. -/
def Policy.ofPlans (plans : σ → Plan σ) : Policy σ := fun s => (plans s).draws

/-- The states to which moves of the plans lead from a start. -/
inductive Reachable (plans : σ → Plan σ) (start : σ) : σ → Prop where
  | start : Reachable plans start start
  | leaf {s t : σ} {leaf : Leaf σ} (h : Reachable plans start s)
      (hleaf : leaf ∈ (plans s).leaves) (hdst : leaf.dst? = some t) : Reachable plans start t

section Reach

variable {plans : σ → Plan σ} {start s : σ} {n : Nat}

/-- A policy only ever stands in states within reach. -/
theorem reachable_of_standsAfter [ChoiceSource γ] {source left : γ}
    (h : Policy.standsAfter (.ofPlans plans) start source n = some (s, left)) :
    Reachable plans start s := by
  induction n generalizing s left with
  | zero =>
    cases h
    exact .start
  | succ n ih =>
    obtain ⟨u, move, ⟨before, hstands, hrun⟩, hdst⟩ :=
      Policy.exists_makes_of_standsAfter_succ h
    obtain ⟨leaf, hleaf, hmakes⟩ := (plans u).exists_leaf_makes before
    have hmove : ((plans u).draws.run before).1 = move := congrArg Prod.fst hrun
    rw [hmove] at hmakes
    exact .leaf (ih hstands) hleaf (hmakes.dst?_eq ▸ hdst)

/-- **For every state within reach some script leads there,** and leaves what stands behind it. -/
theorem exists_script_of_reachable (h : Reachable plans start s) :
    ∃ (script : Script) (n : Nat), ∀ later : Script,
      Policy.standsAfter (.ofPlans plans) start (script ++ later) n = some (s, later) := by
  induction h with
  | start => exact ⟨.empty, 0, fun _ => rfl⟩
  | @leaf u t leaf _ hleaf hdst ih =>
    obtain ⟨script, n, hstands⟩ := ih
    obtain ⟨move, hmakes⟩ := leaf.exists_makes
    obtain ⟨answers, hanswers⟩ := Plan.exists_answeredBy hleaf hmakes
    refine ⟨script ++ answers, n + 1, fun later => ?_⟩
    have hmake : Policy.Makes (.ofPlans plans) start (script ++ answers ++ later) n u move later := by
      rw [Script.append_assoc]
      exact ⟨_, hstands _, hanswers.run later⟩
    rw [hmake.standsAfter_succ, hmakes.dst?_eq, hdst]
    rfl

end Reach

variable [DecidableEq σ] [StateSet σ]

/-! ## The contract -/

namespace Table

/-- What the contract asks of a leaf in a state. -/
def Allows (table : Table σ) (s : σ) : Leaf σ → Prop
  | .halt => StateSet.accepting s = true
  | .emit dst ch => ∃ t, table.transitionOn s ch = some t ∧ t.dst = dst
  | .silent _ => True
  | .draw dst cls => ∀ digit, cls.contains digit = true →
      ∃ t, table.transitionOn s (digitChar digit) = some t ∧ t.dst = dst

/-- The contract that plans keep with a table. -/
def Contract (table : Table σ) (plans : σ → Plan σ) : Prop :=
  ∀ s, Reachable plans table.start s → ∀ leaf ∈ (plans s).leaves, table.Allows s leaf

/-- No walk on the source breaks a rule. -/
def NeverFaults [ChoiceSource γ] (table : Table σ) (policy : Policy σ) (source : γ) : Prop :=
  ∀ moves fault rest log, table.walk policy moves source ≠ some ⟨.error fault, rest, log⟩

variable {table : Table σ} {s : σ}

theorem exists_breaks_emit_iff {dst : σ} {ch : Char} :
    (∃ fault, table.Breaks s (.emit dst ch) fault)
      ↔ ¬ ∃ t, table.transitionOn s ch = some t ∧ t.dst = dst := by
  constructor
  · rintro ⟨fault, hbreaks⟩ ⟨t, hon, hdst⟩
    cases hbreaks with
    | emit hnone => exact hnone t hon hdst
  · intro hnone
    exact ⟨_, .emit fun t hon hdst => hnone ⟨t, hon, hdst⟩⟩

/-- The contract asks of a leaf that none of its moves breaks a rule. -/
theorem allows_iff {leaf : Leaf σ} :
    table.Allows s leaf ↔ ∀ move, leaf.Makes move → ¬ ∃ fault, table.Breaks s move fault := by
  cases leaf with
  | halt =>
    constructor
    · rintro haccepting move hmakes ⟨fault, hbreaks⟩
      cases hmakes
      cases hbreaks with
      | halt hrefuses =>
        rw [show StateSet.accepting s = true from haccepting] at hrefuses
        cases hrefuses
    · intro h
      by_contra hrefuses
      exact h .halt .halt ⟨_, .halt (Bool.not_eq_true _ ▸ hrefuses)⟩
  | emit dst ch =>
    constructor
    · intro hedge move hmakes
      cases hmakes
      rw [exists_breaks_emit_iff, not_not]
      exact hedge
    · intro h
      have hkeeps := h _ .emit
      rwa [exists_breaks_emit_iff, not_not] at hkeeps
  | silent dst =>
    refine ⟨fun _ move hmakes => ?_, fun _ => trivial⟩
    cases hmakes
    rintro ⟨fault, hbreaks⟩
    cases hbreaks
  | draw dst cls =>
    constructor
    · intro hedges move hmakes
      cases hmakes with
      | draw hdigit =>
        rw [exists_breaks_emit_iff, not_not]
        exact hedges _ hdigit
    · intro h digit hdigit
      have hkeeps := h _ (.draw hdigit)
      rwa [exists_breaks_emit_iff, not_not] at hkeeps

variable {policy : Policy σ} {plans : σ → Plan σ}

/-! ## Sufficient for every source -/

/-- **Plans that keep the contract never break a rule,** on any source. -/
theorem Contract.neverFaults [ChoiceSource γ] (h : table.Contract plans) (source : γ) :
    table.NeverFaults (.ofPlans plans) source := by
  intro moves fault rest log hwalk
  obtain ⟨number, -, n, s, move, -, ⟨left, hstands, hrun⟩, hbreaks, -⟩ :=
    exists_firstBreach_of_walk hwalk
  obtain ⟨leaf, hleaf, hmakes⟩ := (plans s).exists_leaf_makes left
  have hmove : ((plans s).draws.run left).1 = move := congrArg Prod.fst hrun
  rw [hmove] at hmakes
  exact allows_iff.mp (h s (reachable_of_standsAfter hstands) leaf hleaf) move hmakes
    ⟨fault, hbreaks⟩

/-! ## Necessary for scripts -/

/-- If any move of a policy breaks a rule, then one is the first to do so. -/
theorem exists_firstBreach_of_breaks [ChoiceSource γ] {source rest : γ} {n : Nat} {move : Move σ}
    {fault : Fault σ} (hmakes : Policy.Makes policy table.start source n s move rest)
    (hbreaks : table.Breaks s move fault) :
    ∃ number fault rest, table.FirstBreach policy source number fault rest := by
  classical
  have hex : ∃ n s move rest fault,
      Policy.Makes policy table.start source n s move rest ∧ table.Breaks s move fault :=
    ⟨n, s, move, rest, fault, hmakes, hbreaks⟩
  obtain ⟨t, first, left, firstFault, hfirst, hfault⟩ := Nat.find_spec hex
  refine ⟨_, firstFault, left, Nat.find hex, t, first, rfl, hfirst, hfault, ?_⟩
  intro number hlt u other after otherFault hother hbreaks'
  exact Nat.find_min hex hlt ⟨u, other, after, otherFault, hother, hbreaks'⟩

/-- A leaf within reach that the table does not allow makes a walk on some script break a rule. -/
theorem exists_fault_of_not_allows {leaf : Leaf σ} (hreach : Reachable plans table.start s)
    (hleaf : leaf ∈ (plans s).leaves) (hnot : ¬ table.Allows s leaf) :
    ∃ script : Script, ¬ table.NeverFaults (.ofPlans plans) script := by
  rw [allows_iff] at hnot
  push Not at hnot
  obtain ⟨move, hmakes, fault, hbreaks⟩ := hnot
  obtain ⟨script, n, hstands⟩ := exists_script_of_reachable hreach
  obtain ⟨answers, hanswers⟩ := Plan.exists_answeredBy hleaf hmakes
  have hmake : Policy.Makes (.ofPlans plans) table.start (script ++ (answers ++ .empty)) n s move
      .empty :=
    ⟨_, hstands _, hanswers.run .empty⟩
  obtain ⟨number, firstFault, rest, hbreach⟩ := exists_firstBreach_of_breaks hmake hbreaks
  exact ⟨_, fun hnever =>
    hnever number firstFault rest [] (faultsAt_iff_firstBreach.mpr hbreach).1⟩

/-- **The contract is exactly what keeps walks from breaking a rule.** Plans keep it with a table if
and only if no script makes a walk break a rule; and then no source does, not even one that answers
with digits outside the class that it was asked for. -/
theorem contract_iff_neverFaults (table : Table σ) (plans : σ → Plan σ) :
    (table.Contract plans ↔ ∀ script : Script, table.NeverFaults (.ofPlans plans) script) ∧
    (table.Contract plans → ∀ (γ : Type) [ChoiceSource γ] (source : γ),
      table.NeverFaults (.ofPlans plans) source) := by
  refine ⟨⟨fun h script => h.neverFaults script, ?necessary⟩, fun h γ _ source =>
    h.neverFaults source⟩
  case necessary =>
    intro hnever s hreach leaf hleaf
    by_contra hnot
    obtain ⟨script, hfaults⟩ := exists_fault_of_not_allows hreach hleaf hnot
    exact hfaults (hnever script)

end Table

end AmountWalk
