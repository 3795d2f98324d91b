import AmountWalk.Choice.Script
import AmountWalk.Proofs.Choice.Draws

/-!
# Sources under observation

Two sources that do nothing but watch another one. A `Recording` keeps what a source answers, as a
script. `Watched` is a script of which it is noticed whether a draw found its queue empty, and whether
a digit lay outside the class for which it was drawn. To whoever asks for choices, both are what they
watch (`isView_source`, `isView_script`).

A program that clamps its digits can be replayed from what was recorded, with anything behind it
(`Draws.Clamped.exists_answers`). A script that never ran dry can be prolonged for any program
(`Watched.run_append`).
-/

namespace AmountWalk

variable {α γ : Type}

/-! ## Scripts one after the other -/

namespace Script

/-- The script without choices. -/
def empty : Script := ⟨[], []⟩

/-- The queues of one script in front of those of another. -/
instance : Append Script where
  append front back := ⟨front.coins ++ back.coins, front.digits ++ back.digits⟩

@[simp] theorem coins_append (front back : Script) :
    (front ++ back).coins = front.coins ++ back.coins := rfl

@[simp] theorem digits_append (front back : Script) :
    (front ++ back).digits = front.digits ++ back.digits := rfl

theorem append_assoc (front mid back : Script) : front ++ mid ++ back = front ++ (mid ++ back) := by
  show Script.mk _ _ = Script.mk _ _
  simp

@[simp] theorem append_empty (script : Script) : script ++ empty = script := by
  show Script.mk (script.coins ++ []) (script.digits ++ []) = script
  rw [List.append_nil, List.append_nil]

end Script

/-! ## Recordings -/

/-- A source together with what it has answered. -/
structure Recording (γ : Type) where
  /-- What is left of the source. -/
  source : γ
  /-- Its coins and its digits so far, each in order. -/
  answers : Script

namespace Recording

variable [ChoiceSource γ]

/-- A source that has not answered yet. -/
def start (source : γ) : Recording γ := ⟨source, .empty⟩

instance : ChoiceSource (Recording γ) where
  coin recording :=
    let (heads, rest) := ChoiceSource.coin recording.source
    (heads, ⟨rest, recording.answers ++ ⟨[heads], []⟩⟩)
  digit cls recording :=
    let (raw, rest) := ChoiceSource.digit cls recording.source
    (raw, ⟨rest, recording.answers ++ ⟨[], [raw]⟩⟩)

theorem isView_source : IsView fun recording : Recording γ => recording.source where
  coin _ := rfl
  digit _ _ := rfl

theorem coins_coin (recording : Recording γ) :
    (ChoiceSource.coin recording).2.answers.coins
      = recording.answers.coins ++ [(ChoiceSource.coin recording).1] := rfl

theorem coins_digit (cls : DigitClass) (recording : Recording γ) :
    (ChoiceSource.digit cls recording).2.answers.coins = recording.answers.coins :=
  List.append_nil _

/-- What is recorded stays recorded. -/
theorem coins_prefix_run (program : Draws α) (recording : Recording γ) :
    recording.answers.coins <+: (program.run recording).2.answers.coins := by
  induction program generalizing recording with
  | done value => exact List.prefix_rfl
  | coin next ih =>
    have hmore := ih (ChoiceSource.coin recording).1 (ChoiceSource.coin recording).2
    rw [coins_coin] at hmore
    exact (List.prefix_append _ _).trans hmore
  | digit cls next ih =>
    have hmore := ih (ChoiceSource.digit cls recording).1 (ChoiceSource.digit cls recording).2
    rw [coins_digit] at hmore
    exact hmore

end Recording

/-- **What was recorded can be replayed,** with any script behind it: the program comes to the same
value and leaves what stands behind. -/
theorem Draws.Clamped.exists_answers [ChoiceSource γ] {program : Draws α} (h : program.Clamped)
    (recording : Recording γ) : ∃ answers,
      (program.run recording).2.answers = recording.answers ++ answers ∧
      ∀ later : Script, program.run (answers ++ later)
        = ((program.run recording.source).1, later) := by
  induction h generalizing recording with
  | done value => exact ⟨.empty, (Script.append_empty _).symm, fun _ => rfl⟩
  | coin _ ih =>
    obtain ⟨answers, hrecorded, hreplay⟩ := ih _ (ChoiceSource.coin recording).2
    refine ⟨⟨[(ChoiceSource.coin recording).1], []⟩ ++ answers, ?_, fun later => ?_⟩
    · rw [run_coin, hrecorded, ← Script.append_assoc]
      rfl
    · exact hreplay later
  | @drawn cls next _ ih =>
    -- the program clamps what the source answered, and so does the script
    let raw := (ChoiceSource.digit cls recording).1
    obtain ⟨answers, hrecorded, hreplay⟩ :=
      ih (cls.clamp raw) (ChoiceSource.digit cls recording).2
    refine ⟨⟨[], [raw]⟩ ++ answers, ?_, fun later => ?_⟩
    · rw [Draws.drawn, run_digit, hrecorded, ← Script.append_assoc]
      rfl
    · have htwice : cls.clamp (cls.clamp raw) = cls.clamp raw :=
        DigitClass.clamp_of_contains (cls.contains_clamp raw)
      show (next (cls.clamp (cls.clamp raw))).run (answers ++ later) = _
      rw [htwice]
      exact hreplay later

/-! ## Scripts that are watched -/

/-- A script together with what was noticed about the draws. -/
structure Watched where
  /-- What is left of the script. -/
  script : Script
  /-- No draw has found its queue empty. -/
  supplied : Bool
  /-- Every digit that was drawn lay in the class for which it was drawn. -/
  fitting : Bool
  deriving DecidableEq

namespace Watched

/-- A script of which nothing was drawn yet. -/
def start (script : Script) : Watched := ⟨script, true, true⟩

instance : ChoiceSource Watched where
  coin watched :=
    let (heads, rest) := ChoiceSource.coin watched.script
    (heads, ⟨rest, watched.supplied && !watched.script.coins.isEmpty, watched.fitting⟩)
  digit cls watched :=
    let (drawn, rest) := ChoiceSource.digit cls watched.script
    (drawn, ⟨rest, watched.supplied && !watched.script.digits.isEmpty,
      watched.fitting && watched.script.digits.head?.all cls.contains⟩)

theorem isView_script : IsView Watched.script where
  coin _ := rfl
  digit _ _ := rfl

/-- A queue that was found empty stays noticed. -/
theorem supplied_of_run (program : Draws α) (watched : Watched)
    (h : (program.run watched).2.supplied = true) : watched.supplied = true := by
  induction program generalizing watched with
  | done value => exact h
  | coin next ih => exact (Bool.and_eq_true_iff.mp (ih _ _ h)).1
  | digit cls next ih => exact (Bool.and_eq_true_iff.mp (ih _ _ h)).1

/-- So does a digit that did not fit. -/
theorem fitting_of_run (program : Draws α) (watched : Watched)
    (h : (program.run watched).2.fitting = true) : watched.fitting = true := by
  induction program generalizing watched with
  | done value => exact h
  | coin next ih => exact ih _ (ChoiceSource.coin watched).2 h
  | digit cls next ih => exact (Bool.and_eq_true_iff.mp (ih _ _ h)).1

/-- **A script that did not run dry can be prolonged:** whatever is added stays behind. -/
theorem run_append (program : Draws α) (watched : Watched) (later : Script)
    (h : (program.run watched).2.supplied = true) :
    program.run (watched.script ++ later)
      = ((program.run watched).1, (program.run watched).2.script ++ later) := by
  induction program generalizing watched with
  | done value => rfl
  | coin next ih =>
    obtain ⟨⟨coins, digits⟩, supplied, fitting⟩ := watched
    cases coins with
    | nil =>
      have hsupplied := supplied_of_run (next false) ⟨⟨[], digits⟩, supplied && false, fitting⟩ h
      rw [Bool.and_false] at hsupplied
      cases hsupplied
    | cons heads coins => exact ih heads ⟨⟨coins, digits⟩, _, _⟩ h
  | digit cls next ih =>
    obtain ⟨⟨coins, digits⟩, supplied, fitting⟩ := watched
    cases digits with
    | nil =>
      have hsupplied :=
        supplied_of_run (next cls.lowest) ⟨⟨coins, []⟩, supplied && false, fitting && true⟩ h
      rw [Bool.and_false] at hsupplied
      cases hsupplied
    | cons raw digits => exact ih (cls.clamp raw) ⟨⟨coins, digits⟩, _, _⟩ h

end Watched

end AmountWalk
