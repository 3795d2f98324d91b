import AmountWalk.Proofs.Amount.Coins
import AmountWalk.Proofs.Walk.Breach
import AmountWalk.Proofs.Walk.Coins

/-!
# When a walk through the automaton of amounts ends

The only loop of the automaton is the one through whole dollars, and each turn of it flips a coin. So
the coins that a walk has flipped tell how far it is (`Flipped`), on every source: while it is in whole
dollars they are heads, tails and then heads only, with one step behind each of them. The first tails
among these end the dollars, and the walk halts with the next move. A walk that goes another way never
flips a third coin, and has no room for a sixth step.

A dry script answers tails. So a walk on a script ends, if not within five steps then one step behind
its last coin at the latest.
-/

namespace AmountWalk.Amount

open State

variable {γ : Type} [ChoiceSource γ]

/-! ## The coin behind a step -/

/-- The coins that are flipped to get from one state to the next one. -/
def coinsTo : State → State → List Bool
  | q0, q1 | q1, q2 | q3, q3 | q7, q8 => [true]
  | q0, q7 | q1, q3 | q3, q6 | q7, q9 => [false]
  | _, _ => []

/-- The program enters the state and flips no coin for it. -/
def EntersQuietly (program : Draws (Move State)) (dst : State) : Prop :=
  ∀ recording : Recording γ, (program.run recording).1.dst? = some dst ∧
    (program.run recording).2.answers.coins = recording.answers.coins

theorem entersQuietly_emit (dst : State) (ch : Char) :
    EntersQuietly (γ := γ) (.done (.emit dst ch)) dst :=
  fun _ => ⟨rfl, rfl⟩

theorem entersQuietly_silent (dst : State) : EntersQuietly (γ := γ) (.done (.silent dst)) dst :=
  fun _ => ⟨rfl, rfl⟩

theorem entersQuietly_emitDrawn (dst : State) (cls : DigitClass) :
    EntersQuietly (γ := γ) (.emitDrawn dst cls) dst :=
  fun recording => ⟨rfl, Recording.coins_digit cls recording⟩

/-- A state where a coin decides between two others. -/
theorem coins_run_flip {s onHeads onTails dst : State} {heads tails : Draws (Move State)}
    (hheads : EntersQuietly (γ := γ) heads onHeads) (htails : EntersQuietly (γ := γ) tails onTails)
    (hto : coinsTo s onHeads = [true] ∧ coinsTo s onTails = [false]) (recording : Recording γ)
    (hdst : ((Draws.coin fun side => if side then heads else tails).run recording).1.dst?
      = some dst) :
    ((Draws.coin fun side => if side then heads else tails).run recording).2.answers.coins
      = recording.answers.coins ++ coinsTo s dst := by
  rw [Draws.run_coin] at hdst ⊢
  have hcoins := Recording.coins_coin recording
  cases hside : (ChoiceSource.coin recording).1 with
  | true =>
    rw [hside] at hdst hcoins
    obtain ⟨henters, hquiet⟩ := hheads (ChoiceSource.coin recording).2
    obtain rfl : onHeads = dst := Option.some.inj (henters.symm.trans hdst)
    rw [hto.1, ← hcoins]
    exact hquiet
  | false =>
    rw [hside] at hdst hcoins
    obtain ⟨henters, hquiet⟩ := htails (ChoiceSource.coin recording).2
    obtain rfl : onTails = dst := Option.some.inj (henters.symm.trans hdst)
    rw [hto.2, ← hcoins]
    exact hquiet

/-- A state where no coin is flipped. -/
theorem coins_run_quiet {s next dst : State} {program : Draws (Move State)}
    (hquiet : EntersQuietly (γ := γ) program next) (hto : coinsTo s next = [])
    (recording : Recording γ) (hdst : (program.run recording).1.dst? = some dst) :
    (program.run recording).2.answers.coins = recording.answers.coins ++ coinsTo s dst := by
  obtain ⟨henters, hcoins⟩ := hquiet recording
  obtain rfl : next = dst := Option.some.inj (henters.symm.trans hdst)
  rw [hto, List.append_nil, hcoins]

/-- **A step leaves its coin behind.** -/
theorem coins_of_advance {recording rest : Recording γ} {step : Step State}
    (h : table.advance policy step.src recording = (.step step, rest)) :
    rest.answers.coins = recording.answers.coins ++ coinsTo step.src step.dst := by
  have hdst : ((policy step.src).run recording).1.dst? = some step.dst :=
    Table.dst?_of_judge_eq_step (congrArg Prod.fst h)
  obtain rfl : ((policy step.src).run recording).2 = rest := congrArg Prod.snd h
  generalize step.src = s at hdst ⊢
  cases s with
  | q0 =>
    exact coins_run_flip (entersQuietly_emit q1 '$') (entersQuietly_emitDrawn q7 .nonZero)
      ⟨rfl, rfl⟩ recording hdst
  | q1 =>
    exact coins_run_flip (entersQuietly_emit q2 '0') (entersQuietly_emitDrawn q3 .nonZero)
      ⟨rfl, rfl⟩ recording hdst
  | q3 =>
    exact coins_run_flip (entersQuietly_emitDrawn q3 .any) (entersQuietly_silent q6)
      ⟨rfl, rfl⟩ recording hdst
  | q7 =>
    exact coins_run_flip (entersQuietly_emit q8 'c') (entersQuietly_emitDrawn q9 .any)
      ⟨rfl, rfl⟩ recording hdst
  | q2 => exact coins_run_quiet (entersQuietly_emit q4 '.') rfl recording hdst
  | q4 => exact coins_run_quiet (entersQuietly_emitDrawn q5 .any) rfl recording hdst
  | q5 => exact coins_run_quiet (entersQuietly_emitDrawn q6 .any) rfl recording hdst
  | q9 => exact coins_run_quiet (entersQuietly_emit q8 'c') rfl recording hdst
  | q6 | q8 => cases hdst

/-! ## The invariant -/

/-- To this state a walk has taken so many steps and flipped these coins. -/
inductive Flipped : State → Nat → List Bool → Prop where
  | start : Flipped q0 0 []
  | dollar : Flipped q1 1 [true]
  | zero : Flipped q2 2 [true, true]
  | point : Flipped q4 3 [true, true]
  | tenth : Flipped q5 4 [true, true]
  | hundredth : Flipped q6 5 [true, true]
  /-- Whole dollars of so many more digits. -/
  | dollars (more : Nat) : Flipped q3 (more + 2) (true :: false :: List.replicate more true)
  | whole (more : Nat) :
      Flipped q6 (more + 3) (true :: false :: (List.replicate more true ++ [false]))
  | firstCent : Flipped q7 1 [false]
  | cent : Flipped q8 2 [false, true]
  | secondCent : Flipped q9 2 [false, false]
  | cents : Flipped q8 3 [false, false]

theorem Flipped.step {step : Step State} {steps : Nat} {coins : List Bool} (htakes : Takes step)
    (h : Flipped step.src steps coins) :
    Flipped step.dst (steps + 1) (coins ++ coinsTo step.src step.dst) := by
  cases htakes with
  | dollar => cases h; exact .dollar
  | firstCent => cases h; exact .firstCent
  | zero => cases h; exact .zero
  | firstDollar => cases h; exact .dollars 0
  | point => cases h; exact .point
  | nextDollar =>
    cases h with
    | dollars more =>
      have hcoins := Flipped.dollars (more + 1)
      rw [List.replicate_succ'] at hcoins
      exact hcoins
  | whole =>
    cases h with
    | dollars more => exact .whole more
  | tenth => cases h; exact .tenth
  | hundredth => cases h; exact .hundredth
  | cent => cases h; exact .cent
  | secondCent => cases h; exact .secondCent
  | cents => cases h; exact .cents

/-- What a walk under observation has flipped by now. -/
def FlippedProgress : Progress State (Recording γ) → Prop
  | .going s path recording => Flipped s path.length recording.answers.coins
  | .halted s path recording =>
    (s = q6 ∨ s = q8) ∧ Flipped s path.length recording.answers.coins
  | .faulted .. => False

theorem flippedProgress_of_proceeds {before after : Progress State (Recording γ)}
    (hmove : Table.Proceeds table policy before after) (h : FlippedProgress before) :
    FlippedProgress after := by
  cases hmove with
  | @step s path recording rest step ha =>
    obtain ⟨rfl, -⟩ := Table.judge_eq_step (congrArg Prod.fst ha)
    show Flipped step.dst (path.record step).length rest.answers.coins
    rw [Path.length_record, coins_of_advance ha]
    exact Flipped.step (takes_of_advance ha) h
  | @halt s path recording rest ha =>
    refine ⟨end_of_advance ha, ?_⟩
    -- where a walk halts, nothing is asked of the source
    have hrest : rest = recording := by
      rcases advance_cases s recording with ⟨_, _, _, _, hstep⟩ | ⟨-, hhalt⟩
      · rw [ha] at hstep
        cases hstep
      · rw [ha] at hhalt
        cases hhalt
        rfl
    rw [hrest]
    exact h
  | fault ha => exact absurd ha advance_ne_fault
  | halted => exact h
  | faulted => exact h

theorem flippedProgress_progress (moves : Nat) (source : γ) :
    FlippedProgress (table.progress policy moves (Recording.start source)) := by
  refine Table.progress_invariant FlippedProgress ?_ (fun _ _ => flippedProgress_of_proceeds) moves
  have hstart : Flipped q0 0 [] := .start
  exact hstart

-- In `$10` the script runs dry after three coins, and the tails that it answers then end the dollars.
example : table.coinsFlipped policy (⟨[true, false, true], [1, 0]⟩ : Script) 5
    = [true, false, true, false] := by
  decide

/-! ## What the coins tell -/

section Coins

variable {s : State} {steps number : Nat} {coins : List Bool}

/-- A long walk is in whole dollars or at its end. -/
theorem Flipped.of_five_lt (h : Flipped s steps coins) (hsteps : 5 < steps) :
    (∃ more, steps = more + 2 ∧ coins = true :: false :: List.replicate more true) ∨ s = q6 := by
  cases h with
  | dollars more => exact Or.inl ⟨more, rfl, rfl⟩
  | whole more => exact Or.inr rfl
  | _ => omega

/-- Tails after the second coin are the last coin. They end the dollars. -/
theorem Flipped.of_tails (h : Flipped s steps coins) (htails : coins[number + 2]? = some false) :
    s = q6 ∧ steps = number + 3 := by
  cases h with
  | dollars more =>
    have hheads : (List.replicate more true)[number]? = some false := htails
    rw [List.getElem?_replicate] at hheads
    split at hheads <;> cases hheads
  | whole more =>
    have hlast : (List.replicate more true ++ [false])[number]? = some false := htails
    rw [List.getElem?_append, List.length_replicate, List.getElem?_replicate] at hlast
    split at hlast
    · cases hlast
    · next hnot =>
      obtain ⟨hlt, -⟩ := List.getElem?_eq_some_iff.mp hlast
      rw [List.length_singleton] at hlt
      exact ⟨rfl, by omega⟩
  | _ => cases htails

/-- The coins of whole dollars, one by one. -/
theorem getElem?_dollars {more : Nat} (hnumber : number < more + 2) :
    (true :: false :: List.replicate more true)[number]? = some (decide (number ≠ 1)) := by
  match number with
  | 0 => rfl
  | 1 => rfl
  | number + 2 =>
    show (List.replicate more true)[number]? = _
    rw [List.getElem?_replicate, if_pos (by omega)]
    simp

end Coins

/-! ## How a walk ends -/

section Endings

variable {source : γ} {moves : Nat} {s : State} {path : Path State} {recording : Recording γ}

/-- A walk that has come to `q6` halts there. -/
theorem haltsWith_of_going_q6
    (h : table.progress policy moves (Recording.start source) = .going q6 path recording) :
    table.HaltsWith policy source path recording.source := by
  have hhalted : table.progress policy (moves + 1) (Recording.start source)
      = .halted q6 path recording := by
    rw [Table.progress_succ, h]
    rfl
  exact Table.haltsWith_of_recorded hhalted

theorem haltsWith_of_flips_tails {number : Nat}
    (h : table.Flips policy source (number + 2) false) :
    ∃ path rest, table.HaltsWith policy source path rest ∧ path.length = number + 3 := by
  obtain ⟨moves, hmoves⟩ := h
  have hflipped := flippedProgress_progress moves source
  rw [Table.coinsFlipped] at hmoves
  cases hp : table.progress policy moves (Recording.start source) with
  | going s path recording =>
    rw [hp] at hflipped hmoves
    obtain ⟨rfl, hlength⟩ := Flipped.of_tails hflipped hmoves
    exact ⟨path, _, haltsWith_of_going_q6 hp, hlength⟩
  | halted s path recording =>
    rw [hp] at hflipped hmoves
    exact ⟨path, _, Table.haltsWith_of_recorded hp, (hflipped.2.of_tails hmoves).2⟩
  | faulted fault path recording => exact absurd hp (progress_ne_faulted moves _)

theorem haltsWith_of_few_coins
    (h : ∀ moves, (table.coinsFlipped policy source moves).length < 3) :
    ∃ path rest, table.HaltsWith policy source path rest ∧ path.length ≤ 5 := by
  have hflipped := flippedProgress_progress 6 source
  have hfew := h 6
  rw [Table.coinsFlipped] at hfew
  cases hp : table.progress policy 6 (Recording.start source) with
  | going s path recording =>
    rw [hp] at hflipped hfew
    rw [FlippedProgress, Table.length_of_going hp] at hflipped
    replace hfew : recording.answers.coins.length < 3 := hfew
    generalize recording.answers.coins = coins at hflipped hfew
    cases hflipped with
    | dollars more => exact absurd hfew (by decide)
    | whole more => exact absurd hfew (by decide)
  | halted s path recording =>
    exact ⟨path, _, Table.haltsWith_of_recorded hp,
      Nat.le_of_lt_succ (Table.progress_of_halted hp).1⟩
  | faulted fault path recording => exact absurd hp (progress_ne_faulted 6 _)

/-- A walk that does not halt has flipped heads, tails and heads for ever. -/
theorem flips_of_not_haltsWith (h : ¬ ∃ path rest, table.HaltsWith policy source path rest)
    (number : Nat) : table.Flips policy source number (decide (number ≠ 1)) := by
  have hflipped := flippedProgress_progress (number + 6) source
  refine ⟨number + 6, ?_⟩
  rw [Table.coinsFlipped]
  cases hp : table.progress policy (number + 6) (Recording.start source) with
  | going s path recording =>
    rw [hp, FlippedProgress, Table.length_of_going hp] at hflipped
    rcases hflipped.of_five_lt (by omega) with ⟨more, hsteps, hcoins⟩ | rfl
    · show recording.answers.coins[number]? = _
      rw [hcoins]
      exact getElem?_dollars (by omega)
    · exact absurd ⟨path, _, haltsWith_of_going_q6 hp⟩ h
  | halted s path recording => exact absurd ⟨path, _, Table.haltsWith_of_recorded hp⟩ h
  | faulted fault path recording => exact absurd hp (progress_ne_faulted _ _)

end Endings

/-- A walk on a script has room for all its steps. -/
theorem exists_walkBounded_script (script : Script) : ∃ path rest log,
    table.walkBounded policy (max 5 (script.coins.length + 1)) script
      = ⟨.finished path, rest, log⟩ := by
  have hpaid := add_coins_walkBounded_le (Nat.le_max_left 5 (script.coins.length + 1)) script
  rcases walkBounded_cases (max 5 (script.coins.length + 1)) script with ⟨path, hpath, -⟩ | ⟨s, hs⟩
  · exact ⟨path, _, _, by rw [← hpath]⟩
  · -- an abandoned walk would have paid for more steps than there are coins
    rw [hs] at hpaid
    have hone : [Ending.abandoned s].countP Ending.isAbandoned = 1 := rfl
    rw [hone] at hpaid
    omega

/-- **A walk through the automaton of amounts goes on for ever on one run of coins only:** heads, tails
and then heads without end. Tails after these two coins let it halt with as many steps as it has
flipped coins, and without a third coin it halts within five steps. On a script the walk always halts,
and within one step more than there are coins, or five. -/
theorem walk_ends (source : γ) :
    ((¬ ∃ path rest, table.HaltsWith policy source path rest) ↔
      ∀ number, table.Flips policy source number (decide (number ≠ 1))) ∧
    (∀ number ≥ 2, table.Flips policy source number false →
      ∃ path rest, table.HaltsWith policy source path rest ∧ path.length = number + 1) ∧
    ((∀ moves, (table.coinsFlipped policy source moves).length < 3) →
      ∃ path rest, table.HaltsWith policy source path rest ∧ path.length ≤ 5) ∧
    (∀ script : Script, ∃ path rest log, table.HaltsWith policy script path rest ∧
      table.walkBounded policy (max 5 (script.coins.length + 1)) script
        = ⟨.finished path, rest, log⟩) := by
  refine ⟨⟨flips_of_not_haltsWith, ?_⟩, ?_, haltsWith_of_few_coins, ?_⟩
  · rintro hflips ⟨path, rest, hhalts⟩
    obtain ⟨s, recording, hrecorded⟩ := Table.recorded_of_haltsWith hhalts
    have hlt := Table.lt_length_of_flips_of_halted hrecorded
      (hflips recording.answers.coins.length)
    exact absurd hlt (Nat.lt_irrefl _)
  · intro number hnumber hflips
    obtain ⟨number, rfl⟩ := Nat.exists_eq_add_of_le' hnumber
    exact haltsWith_of_flips_tails hflips
  · intro script
    obtain ⟨path, rest, log, hbounded⟩ := exists_walkBounded_script script
    exact ⟨path, rest, log, (Table.haltsWith_of_walkBounded hbounded).2, hbounded⟩

end AmountWalk.Amount
