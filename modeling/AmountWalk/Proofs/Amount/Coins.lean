import AmountWalk.Choice.Script
import AmountWalk.Proofs.Amount.Sampling

/-!
# Abandoned walks are paid for by coins

A walk through the automaton of amounts is long only in whole dollars, and there every step but the
last one takes a coin of the script: a dry script answers tails, and tails end the dollars. So a walk
that is abandoned after five steps or more has used up at least as many coins as it may have steps
(`add_coins_walkBounded_le`), and the coins of a script bound the walks that a sampling abandons.

The invariant is `Paid`. It counts the coins that are left against the steps that were taken, and
gives one step in advance: a walk that leaves the dollars may do so for want of a coin.
-/

namespace AmountWalk.Amount

open State

/-! ## Coins of one move -/

/-- Whether the policy flips a coin in the state. -/
def flips : State → Bool
  | q0 | q1 | q3 | q7 => true
  | _ => false

theorem coins_takeDigit (cls : DigitClass) (script : Script) :
    (ChoiceSource.digit cls script).2.coins = script.coins := by
  obtain ⟨coins, digits⟩ := script
  cases digits <;> rfl

theorem coins_takeCoin (script : Script) :
    (ChoiceSource.coin script).2.coins = script.coins.tail := by
  obtain ⟨coins, digits⟩ := script
  cases coins <;> rfl

/-- Heads are never answered for want of a coin. -/
theorem coins_eq_of_heads {script : Script} (h : (ChoiceSource.coin script).1 = true) :
    script.coins = true :: script.coins.tail := by
  obtain ⟨coins, digits⟩ := script
  cases coins with
  | nil => cases h
  | cons heads coins =>
    obtain rfl : heads = true := h
    rfl

theorem coins_emitDrawn (dst : State) (cls : DigitClass) (script : Script) :
    ((Draws.emitDrawn dst cls).run script).2.coins = script.coins :=
  coins_takeDigit cls script

theorem coins_run_coin {α : Type} {next : Bool → Draws α}
    (hnext : ∀ (heads : Bool) (script : Script), ((next heads).run script).2.coins = script.coins)
    (script : Script) : ((Draws.coin next).run script).2.coins = script.coins.tail := by
  rw [Draws.run_coin, hnext, coins_takeCoin]

/-- A move takes one coin where the policy flips one, and no coin elsewhere. -/
theorem coins_advance (s : State) (script : Script) :
    (table.advance policy s script).2.coins
      = if flips s = true then script.coins.tail else script.coins := by
  show ((policy s).run script).2.coins = _
  cases s with
  | q0 | q1 | q7 =>
    refine coins_run_coin (fun heads between => ?_) script
    cases heads with
    | true => rfl
    | false => exact coins_emitDrawn _ _ between
  | q3 =>
    refine coins_run_coin (fun heads between => ?_) script
    cases heads with
    | true => exact coins_emitDrawn _ _ between
    | false => rfl
  | q4 | q5 => exact coins_emitDrawn _ _ script
  | q2 | q6 | q8 | q9 => rfl

section Heads

variable {script rest : Script} {step : Step State}

/-- Where tails draw a digit, they lead elsewhere than heads. -/
theorem heads_of_dst_ne (s dst : State) (cls : DigitClass) {next : Bool → Draws (Move State)}
    (hpolicy : policy s = .coin next) (hnext : next false = .emitDrawn dst cls)
    (hmem : ⟨s, dst, .digits cls⟩ ∈ transitions)
    (h : table.advance policy s script = (.step step, rest)) (hne : step.dst ≠ dst) :
    (ChoiceSource.coin script).1 = true := by
  cases hcoin : (ChoiceSource.coin script).1 with
  | true => rfl
  | false =>
    have hmove : (policy s).run script
        = (Draws.emitDrawn dst cls).run (ChoiceSource.coin script).2 := by
      rw [hpolicy, Draws.run_coin, hcoin, hnext]
    obtain ⟨ch, left, -, hadvance⟩ := advance_of_draw s dst cls hmem hmove
    rw [h] at hadvance
    cases hadvance
    exact absurd rfl hne

/-- A dollar sign takes a head, and so does each further digit of whole dollars. -/
theorem coins_eq_of_step (h : table.advance policy step.src script = (.step step, rest))
    (hstep : step.dst = q1 ∨ step.src = q3 ∧ step.dst = q3) :
    script.coins = true :: script.coins.tail := by
  refine coins_eq_of_heads ?_
  have htakes := takes_of_advance h
  cases htakes with
  | dollar => exact heads_of_dst_ne q0 q7 .nonZero rfl rfl (by decide) h (by decide)
  | nextDollar hch =>
    cases hcoin : (ChoiceSource.coin script).1 with
    | true => rfl
    | false =>
      -- tails leave the dollars
      have hmove : (policy q3).run script = (.silent q6, (ChoiceSource.coin script).2) := by
        show (Draws.coin _).run script = _
        rw [Draws.run_coin, hcoin]
        rfl
      rw [Table.advance, hmove] at h
      cases h
  | _ => rcases hstep with hstep | ⟨hsrc, hdst⟩ <;> contradiction

end Heads

/-! ## The invariant -/

/-- What so many steps to a state have cost a script of so many coins, of which these are left. -/
def Paid (total steps : Nat) (left : List Bool) : State → Prop
  | q0 => steps = 0
  | q1 => steps = 1 ∧ steps + left.length ≤ total
  | q3 => steps + left.length ≤ total ∨ steps = 2 ∧ left = []
  | q6 => steps + left.length ≤ total + 1 ∨ steps ≤ 5
  | q7 => steps ≤ 1
  | q2 | q9 => steps ≤ 2
  | q4 | q8 => steps ≤ 3
  | q5 => steps ≤ 4

theorem Paid.step {total steps : Nat} {left later : List Bool} {step : Step State}
    (htakes : Takes step) (hle : left.length ≤ total)
    (hlater : later = if flips step.src = true then left.tail else left)
    (hheads : step.dst = q1 ∨ step.src = q3 ∧ step.dst = q3 → left = true :: left.tail)
    (h : Paid total steps left step.src) : Paid total (steps + 1) later step.dst := by
  cases htakes with
  | dollar =>
    obtain rfl : steps = 0 := h
    have hlength := congrArg List.length (hheads (Or.inl rfl))
    rw [List.length_cons] at hlength
    refine ⟨rfl, ?_⟩
    rw [hlater]
    show 1 + left.tail.length ≤ total
    omega
  | firstDollar hch =>
    obtain ⟨rfl, hpaid⟩ := h
    rw [hlater]
    cases left with
    | nil => exact Or.inr ⟨rfl, rfl⟩
    | cons heads left =>
      rw [List.length_cons] at hpaid
      exact Or.inl (by show 1 + 1 + left.length ≤ total; omega)
  | nextDollar hch =>
    have hleft := hheads (Or.inr ⟨rfl, rfl⟩)
    have hlength := congrArg List.length hleft
    rw [List.length_cons] at hlength
    rw [hlater]
    rcases h with hpaid | ⟨-, hnil⟩
    · exact Or.inl (by show steps + 1 + left.tail.length ≤ total; omega)
    · rw [hnil] at hleft
      cases hleft
  | whole =>
    have htail : left.tail.length ≤ left.length := by
      rw [List.length_tail]
      exact Nat.sub_le _ _
    rw [hlater]
    rcases h with hpaid | ⟨rfl, -⟩
    · exact Or.inl (by show steps + 1 + left.tail.length ≤ total + 1; omega)
    · exact Or.inr (by decide)
  | hundredth hch =>
    have hsteps : steps ≤ 4 := h
    exact Or.inr (Nat.succ_le_succ hsteps)
  | firstCent hch =>
    obtain rfl : steps = 0 := h
    exact Nat.le_refl 1
  | zero =>
    obtain ⟨rfl, -⟩ := h
    exact Nat.le_refl 2
  | point | tenth | cent | secondCent | cents =>
    have hsteps : steps ≤ _ := h
    show steps + 1 ≤ _
    omega

/-- A walk of more than five steps has paid for them, the last one excepted. -/
theorem Paid.le {total steps : Nat} {left : List Bool} {s : State}
    (h : Paid total steps left s) (hsteps : 5 < steps) : steps + left.length ≤ total + 1 := by
  cases s <;> simp only [Paid] at h <;> omega

/-! ## Coins of a walk -/

/-- What a walk on a script of so many coins has paid by now. -/
def PaidProgress (total : Nat) : Progress State Script → Prop
  | .going s path source =>
    source.coins.length ≤ total ∧ Paid total path.length source.coins s
  | .halted _ _ source => source.coins.length ≤ total
  | .faulted .. => False

theorem paidProgress_of_proceeds {total : Nat} {before after : Progress State Script}
    (hmove : Table.Proceeds table policy before after) (h : PaidProgress total before) :
    PaidProgress total after := by
  cases hmove with
  | @step s path source rest step ha =>
    obtain ⟨hle, hpaid⟩ := h
    obtain ⟨rfl, -⟩ := Table.judge_eq_step (congrArg Prod.fst ha)
    have hcoins := coins_advance step.src source
    rw [ha] at hcoins
    refine ⟨?_, ?_⟩
    · rw [hcoins]
      split
      · rw [List.length_tail]
        omega
      · exact hle
    · rw [Path.length_record]
      exact hpaid.step (takes_of_advance ha) hle hcoins (coins_eq_of_step ha)
  | @halt s path source rest ha =>
    have hcoins := coins_advance s source
    rw [ha] at hcoins
    have hflips : flips s = false := by
      rcases end_of_advance ha with rfl | rfl <;> rfl
    rw [hflips] at hcoins
    show rest.coins.length ≤ total
    rw [show rest.coins = source.coins from hcoins]
    exact h.1
  | fault ha => exact absurd ha advance_ne_fault
  | halted => exact h
  | faulted => exact h

theorem paidProgress_progress (moves : Nat) (script : Script) :
    PaidProgress script.coins.length (table.progress policy moves script) := by
  refine Table.progress_invariant (PaidProgress script.coins.length) ?_
    (fun _ _ => paidProgress_of_proceeds) moves
  have hstart : Paid script.coins.length 0 script.coins q0 := rfl
  exact ⟨Nat.le_refl _, hstart⟩

/-- **An abandoned walk has used up a coin for each step it may have.** -/
theorem add_coins_walkBounded_le {maxSteps : Nat} (hsteps : 5 ≤ maxSteps) (script : Script) :
    maxSteps * [(table.walkBounded policy maxSteps script).outcome].countP Ending.isAbandoned
      + (table.walkBounded policy maxSteps script).source.coins.length ≤ script.coins.length := by
  have hpaid := paidProgress_progress (maxSteps + 1) script
  cases hp : table.progress policy (maxSteps + 1) script with
  | going s path rest =>
    rw [hp] at hpaid
    have hlength := Table.length_of_going hp
    have hle := hpaid.2.le (by omega)
    obtain ⟨t, behind, left, -, hbounded⟩ := Table.walkBounded_of_going hp
    rw [hbounded]
    show maxSteps * 1 + rest.coins.length ≤ script.coins.length
    omega
  | halted s path rest =>
    rw [hp] at hpaid
    rw [Table.walkBounded_of_halted hp]
    show maxSteps * 0 + rest.coins.length ≤ script.coins.length
    rw [Nat.mul_zero, Nat.zero_add]
    exact hpaid
  | faulted fault path rest => exact absurd hp (progress_ne_faulted (maxSteps + 1) script)

/-! ## Coins of a sampling -/

theorem add_coins_sourceAfter_le {maxSteps : Nat} (hsteps : 5 ≤ maxSteps) (script : Script)
    (walks : Nat) :
    maxSteps * (table.endings policy maxSteps script walks).countP Ending.isAbandoned
      + (table.sourceAfter policy maxSteps script walks).coins.length ≤ script.coins.length := by
  induction walks with
  | zero => exact Nat.le_of_eq (Nat.zero_add _)
  | succ walks ih =>
    have hone := add_coins_walkBounded_le hsteps (table.sourceAfter policy maxSteps script walks)
    rw [Table.endings_succ, Table.sourceAfter_succ, List.countP_append, Nat.mul_add]
    rw [← Table.endingOf] at hone
    omega

/-- The coins of a script bound the walks that are abandoned, however many walks there are. -/
theorem countP_isAbandoned_le {maxSteps : Nat} (hsteps : 5 ≤ maxSteps) (script : Script)
    (walks : Nat) :
    (table.endings policy maxSteps script walks).countP Ending.isAbandoned
      ≤ script.coins.length / maxSteps := by
  have hpaid := add_coins_sourceAfter_le hsteps script walks
  rw [Nat.le_div_iff_mul_le (by omega), Nat.mul_comm]
  omega

/-- **A sampling on a script abandons at most as many walks as its coins can pay for,** each of them
with a coin for each step that a walk may have. Whatever the sampling returns, this bounds the walks
that it reports one by one and the number that it gives in the end. So a sampling that may make these
walks beside those that it needs succeeds. -/
theorem abandonments_le (script : Script) (config : SampleConfig)
    (hfits : config.count.toNat * 24 ≤ Nat.pow 2 63 - 1) (hsteps : 5 ≤ config.maxSteps.toNat) :
    (table.collect policy config script).log.countP Event.isAbandonment
      ≤ script.coins.length / config.maxSteps.toNat ∧
    (∀ e, (table.collect policy config script).outcome = .error (.exhausted e) →
      e.abandoned ≤ script.coins.length / config.maxSteps.toNat) ∧
    (∀ attempts abandoned collected,
      Event.samplingComplete attempts abandoned collected
        ∈ (table.collect policy config script).log →
      abandoned ≤ script.coins.length / config.maxSteps.toNat) ∧
    (config.count.toNat + script.coins.length / config.maxSteps.toNat
        ≤ config.maxAttempts.toNat →
      ∃ texts, (table.collect policy config script).outcome = .ok texts ∧
        texts.length = config.count.toNat) := by
  obtain ⟨walks, hexit⟩ := succeeds_or_givesUp hfits script
  have hpaid := countP_isAbandoned_le hsteps script walks
  have hnone := table.samplingComplete_not_mem_flatMap config.maxSteps.toNat
    (table.endings policy config.maxSteps.toNat script walks)
  rcases hexit with h | h
  · refine ⟨?_, fun e he => ?_, fun attempts abandoned collected hmem => ?_,
      fun _ => ⟨_, h.outcome, h.length_texts⟩⟩
    · rw [h.log, List.countP_append, Table.countP_isAbandonment_flatMap]
      exact hpaid
    · rw [h.outcome] at he
      cases he
    · rw [h.log] at hmem
      rcases List.mem_append.mp hmem with hmem | hmem
      · exact absurd hmem (hnone attempts abandoned collected)
      · cases List.mem_singleton.mp hmem
        exact hpaid
  · refine ⟨?_, fun e he => ?_, fun attempts abandoned collected hmem => ?_, fun hmany => ?_⟩
    · rw [h.log, Table.countP_isAbandonment_flatMap]
      exact hpaid
    · rw [h.outcome] at he
      cases he
      exact hpaid
    · rw [h.log] at hmem
      exact absurd hmem (hnone attempts abandoned collected)
    · -- the walks that were not abandoned would have been enough
      have hwalks := length_textsAfter_add_countP config.maxSteps.toNat script walks
      have hfew := h.length_texts
      have hall := h.eq_maxAttempts
      omega

/-- A script of eight coins. Six of them go into a walk that is given up at its fifth digit, the
others make `1c`. -/
def longDollars : Script :=
  ⟨[true, false, true, true, true, true, false, true], []⟩

/-- With five steps for each walk, eight coins pay for one abandoned walk, and one is abandoned. -/
theorem abandonments_le_longDollars :
    (1 : UInt64).toNat * 24 ≤ Nat.pow 2 63 - 1 ∧ 5 ≤ (5 : UInt64).toNat ∧
      (table.collect policy ⟨1, 2, 5⟩ longDollars).log.countP Event.isAbandonment = 1 ∧
      longDollars.coins.length / 5 = 1 ∧
      ∃ texts, (table.collect policy ⟨1, 2, 5⟩ longDollars).outcome = .ok texts ∧
        texts.length = 1 := by
  obtain ⟨hle, -, -, hok⟩ := abandonments_le longDollars ⟨1, 2, 5⟩ (by decide) (by decide)
  refine ⟨by decide, by decide, ?_, rfl, hok (by decide)⟩
  exact Nat.le_antisymm hle (by decide)

end AmountWalk.Amount
