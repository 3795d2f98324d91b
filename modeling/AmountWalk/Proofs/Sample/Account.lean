import AmountWalk.Proofs.Sample.Batches
import AmountWalk.Proofs.Sample.Log
import Mathlib.Data.List.Forall2

/-!
# The log accounts for every attempt

Whoever has only the log of a sampling can tell from it how every attempt went and what came of the
sampling as a whole (`log_accounts`). The log is a row of blocks, one for each attempt, and what a
block holds is a matter of how its walk ended (`Block`): a walk that is abandoned reports that, and
one that halts reports its path, with a report behind it when the text is dropped. When the sampling
has found its texts the row is followed by one more report, which no block holds.

The numbers in that report, or in the error if there is none, are counted off the row: its reports of
ended walks are the attempts, its reports of abandoned walks are the walks abandoned, and the texts
that are reported and not dropped at once are the texts collected, in order (`keptIn`).
-/

namespace AmountWalk

variable {σ γ : Type}

/-- Whether the event is the report of how a walk ended. -/
def Event.endsWalk : Event → Bool
  | .walkFinished .. => true
  | .walkAbandoned .. => true
  | _ => false

/-- The texts of the walks that a log shows as halted, but for those that it shows as dropped in the
next report. -/
def keptIn : List Event → List (List Char)
  | [] => []
  | .walkFinished _ _ text :: log =>
    if log.head? = some (.rejectedSample text) then keptIn log else text :: keptIn log
  | _ :: log => keptIn log

namespace Table

variable [StateSet σ]

/-- What an attempt reports when its walk ends in this way. A walk that breaks the rules is none of
these. -/
inductive Block (table : Table σ) (maxSteps : Nat) : Ending σ → List Event → Prop where
  | abandoned (s : σ) :
      Block table maxSteps (.abandoned s) [.walkAbandoned maxSteps (StateSet.label s)]
  | kept {path : Path σ} (h : isWellFormed path.output = true) :
      Block table maxSteps (.finished path)
        [.walkFinished path.length (StateSet.label (path.final?.getD table.start)) path.output]
  | dropped {path : Path σ} (h : isWellFormed path.output = false) :
      Block table maxSteps (.finished path)
        [.walkFinished path.length (StateSet.label (path.final?.getD table.start)) path.output,
          .rejectedSample path.output]

/-! ## Rows of blocks -/

section Rows

variable {table : Table σ} {maxSteps : Nat} {endings : List (Ending σ)}
  {blocks : List (List Event)}

/-- The reports of a walk that keeps the rules are a block. -/
theorem block_reports {ending : Ending σ} (h : ending.isFault = false) :
    table.Block maxSteps ending (table.reports maxSteps ending) := by
  cases ending with
  | abandoned s => exact .abandoned s
  | finished path =>
    cases hpass : isWellFormed path.output with
    | true =>
      have hblock : table.Block maxSteps (.finished path) _ := .kept hpass
      simpa [reports, endingLog, finishedEvent, Ending.rejection, hpass] using hblock
    | false =>
      have hblock : table.Block maxSteps (.finished path) _ := .dropped hpass
      simpa [reports, endingLog, finishedEvent, Ending.rejection, hpass] using hblock
  | fault f => cases h

theorem forall₂_block_map_reports (h : ∀ ending ∈ endings, ending.isFault = false) :
    List.Forall₂ (table.Block maxSteps) endings (endings.map (table.reports maxSteps)) := by
  rw [List.forall₂_map_right_iff, List.forall₂_same]
  exact fun ending hmem => block_reports (h ending hmem)

/-- A row of blocks has one report of an ended walk for every block. -/
theorem countP_endsWalk_flatten (h : List.Forall₂ (table.Block maxSteps) endings blocks) :
    blocks.flatten.countP Event.endsWalk = endings.length := by
  induction h with
  | nil => rfl
  | cons hblock _ ih =>
    rw [List.flatten_cons, List.countP_append, ih, List.length_cons, Nat.add_comm]
    cases hblock <;> rfl

/-- No block begins with a drop, so what a drop refers to stands in its own block. -/
theorem head?_flatten_ne (h : List.Forall₂ (table.Block maxSteps) endings blocks)
    (text : List Char) : blocks.flatten.head? ≠ some (.rejectedSample text) := by
  cases h with
  | nil => simp
  | cons hblock _ => cases hblock <;> simp

/-- **The texts that a row of blocks shows as kept are those worth keeping.** -/
theorem keptIn_flatten (h : List.Forall₂ (table.Block maxSteps) endings blocks) :
    keptIn blocks.flatten = endings.filterMap Ending.kept? := by
  induction h with
  | nil => rfl
  | @cons ending block endings blocks hblock hlater ih =>
    have hnext := head?_flatten_ne hlater
    cases hblock with
    | abandoned s =>
      rw [List.filterMap_cons_none rfl]
      exact ih
    | @kept path hpass => simp [keptIn, hnext, Ending.kept?, hpass, ih]
    | @dropped path hpass => simp [keptIn, Ending.kept?, hpass, ih]

end Rows

/-! ## Samplings -/

variable [DecidableEq σ] [ChoiceSource γ]

/-- The events account for so many attempts of a sampling, of which so many were abandoned, and for
the texts collected. -/
structure Accounts (table : Table σ) (policy : Policy σ) (maxSteps : Nat) (source : γ)
    (events : List Event) (attempts abandoned : Nat) (texts : List (List Char)) : Prop where
  /-- There is one block for each attempt, in order. -/
  blocks : ∃ blocks, List.Forall₂ (table.Block maxSteps)
    (table.endings policy maxSteps source attempts) blocks ∧ events = blocks.flatten
  attempts : events.countP Event.endsWalk = attempts
  abandoned : events.countP Event.isAbandonment = abandoned
  kept : keptIn events = texts
  /-- None of the events says that the sampling is complete. -/
  incomplete : ∀ attempts abandoned collected,
    Event.samplingComplete attempts abandoned collected ∉ events

variable {table : Table σ} {policy : Policy σ} {config : SampleConfig} {source : γ} {n : Nat}

/-- **Walks that keep the rules are accounted for by what they report.** -/
theorem accounts_flatMap_reports (hsafe : table.SafeFor policy config source n) :
    table.Accounts policy config.maxSteps.toNat source
      ((table.endings policy config.maxSteps.toNat source n).flatMap
        (table.reports config.maxSteps.toNat))
      n ((table.endings policy config.maxSteps.toNat source n).countP Ending.isAbandoned)
      (table.textsAfter policy config.maxSteps.toNat source n) := by
  have hkeep : ∀ ending ∈ table.endings policy config.maxSteps.toNat source n,
      ending.isFault = false := by
    intro ending hmem
    obtain ⟨number, hnumber, rfl⟩ := List.mem_map.mp hmem
    exact hsafe number (List.mem_range.mp hnumber)
  have hblocks : List.Forall₂ (table.Block config.maxSteps.toNat)
      (table.endings policy config.maxSteps.toNat source n) _ := forall₂_block_map_reports hkeep
  exact {
    blocks := ⟨_, hblocks, List.flatMap_def⟩
    attempts := by
      rw [List.flatMap_def, countP_endsWalk_flatten hblocks, length_endings]
    abandoned := countP_isAbandonment_flatMap table _ _
    kept := by
      rw [List.flatMap_def, keptIn_flatten hblocks, textsAfter]
    incomplete := samplingComplete_not_mem_flatMap table _ _ }

/-- A sampling that gets as far as making walks has room for its texts. -/
theorem room_of_collect
    (h : (table.collect policy config source).outcome ≠ .error .capacityOverflow) :
    config.count.toNat * 24 ≤ Nat.pow 2 63 - 1 := by
  by_contra hroom
  have hfits : config.fits = false := decide_eq_false hroom
  rw [collect, hfits] at h
  exact h rfl

/-- **The log of a sampling accounts for every attempt,** whatever the policy and the source are and
whether the table was checked or not.

* If the sampling returns texts, its log accounts for so many attempts, for the walks abandoned among
  them and for just these texts, and then ends with the report that the sampling is complete, which
  gives these three numbers.
* If it is exhausted, the log accounts for the attempts, the walks abandoned and as many texts as the
  error says, and nothing stands behind that. -/
theorem log_accounts (table : Table σ) (policy : Policy σ) (config : SampleConfig) (source : γ) :
    (∀ texts, (table.collect policy config source).outcome = .ok texts →
      ∃ events attempts abandoned,
        table.Accounts policy config.maxSteps.toNat source events attempts abandoned texts ∧
        attempts ≤ config.maxAttempts.toNat ∧
        (table.collect policy config source).log
          = events ++ [.samplingComplete attempts abandoned texts.length]) ∧
    (∀ e, (table.collect policy config source).outcome = .error (.exhausted e) →
      ∃ texts, table.Accounts policy config.maxSteps.toNat source
          (table.collect policy config source).log e.attempts e.abandoned texts ∧
        texts.length = e.collected) := by
  refine ⟨fun texts houtcome => ?returns, fun e houtcome => ?gives⟩
  case returns =>
    have hfits := room_of_collect (by rw [houtcome]; exact nofun)
    obtain ⟨walks, hle, henough, hsafe, rfl, -⟩ := (collects_iff config hfits).mp ⟨houtcome, rfl⟩
    refine ⟨_, walks, _, accounts_flatMap_reports hsafe, hle, ?_⟩
    rw [henough.length_eq]
    exact log_collect_of_enoughAfter hfits hle henough hsafe
  case gives =>
    have hfits := room_of_collect (by rw [houtcome]; exact nofun)
    -- the other two exits give no such error
    rcases enough_or_fault_or_few table policy config source config.maxAttempts.toNat with
      ⟨walks, hle, henough, hsafe⟩ | ⟨number, hlt, fault, hfew, hsafe, hfault⟩ | ⟨hfew, hsafe⟩
    · rw [(collect_of_enoughAfter hfits hle henough hsafe).1] at houtcome
      cases houtcome
    · rw [(collect_of_fault hfits hlt hfew hsafe hfault).1] at houtcome
      cases houtcome
    · rw [(collect_of_few hfits hfew hsafe).1] at houtcome
      cases houtcome
      refine ⟨_, ?_, rfl⟩
      rw [log_collect_of_few hfits hfew hsafe]
      exact accounts_flatMap_reports hsafe

/-- A policy for cents that may also end without the `c`, and then is dropped. -/
def looseCents : Policy Amount.State
  | .q0 => .emitDrawn .q7 .nonZero
  | .q7 => .coin fun heads => if heads then .done (.emit .q8 'c') else .emitDrawn .q9 .any
  | .q9 => .coin fun heads => if heads then .done (.emit .q8 'c') else .done .halt
  | _ => .done .halt

/-- A script for `12c`, which takes three steps, then `34` and `7c`. -/
def looseScript : Script := ⟨[false, true, false, false, true], [1, 2, 3, 4, 7]⟩

/-- A walk that is abandoned, one whose text is dropped and one whose text is kept are enough for one
text and too few for two. -/
theorem log_accounts_looseCents :
    (Amount.table.collect looseCents ⟨1, 3, 2⟩ looseScript).outcome = .ok [['7', 'c']] ∧
      (∃ events attempts abandoned,
        Amount.table.Accounts looseCents 2 looseScript events attempts abandoned [['7', 'c']] ∧
        attempts ≤ 3 ∧
        (Amount.table.collect looseCents ⟨1, 3, 2⟩ looseScript).log
          = events ++ [.samplingComplete attempts abandoned 1]) ∧
      (Amount.table.collect looseCents ⟨2, 3, 2⟩ looseScript).outcome
        = .error (.exhausted ⟨3, 1, 1, 2⟩) ∧
      ∃ texts, Amount.table.Accounts looseCents 2 looseScript
          (Amount.table.collect looseCents ⟨2, 3, 2⟩ looseScript).log 3 1 texts ∧
        texts.length = 1 := by
  have hone : (Amount.table.collect looseCents ⟨1, 3, 2⟩ looseScript).outcome = .ok [['7', 'c']] := by
    decide
  have htwo : (Amount.table.collect looseCents ⟨2, 3, 2⟩ looseScript).outcome
      = .error (.exhausted ⟨3, 1, 1, 2⟩) := by
    decide
  exact ⟨hone, (log_accounts Amount.table looseCents ⟨1, 3, 2⟩ looseScript).1 _ hone,
    htwo, (log_accounts Amount.table looseCents ⟨2, 3, 2⟩ looseScript).2 _ htwo⟩

example : (Amount.table.collect looseCents ⟨1, 3, 2⟩ looseScript).log
    = [.walkAbandoned 2 "q9", .walkFinished 2 "q9" ['3', '4'], .rejectedSample ['3', '4'],
        .walkFinished 2 "q8" ['7', 'c'], .samplingComplete 3 1 1] := by
  decide

end Table

end AmountWalk
