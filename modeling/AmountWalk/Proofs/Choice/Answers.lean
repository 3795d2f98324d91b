import AmountWalk.Proofs.Choice.Observed
import AmountWalk.Proofs.Digit

/-!
# Answers that fit

A script fits a program exactly when every question of the program is answered, every digit lies in
the class for which it is drawn, and nothing is left in the end. `Draws.AnsweredBy` says so by the
questions of the program, without running it; `Draws.run_watched_iff` ties it to the run on a script
that is watched.

Said in this way, answers are put together and taken apart as programs are (`answeredBy_bind_iff`,
`answeredBy_map_iff`). Two things follow for a program as a whole. If it clamps its digits,
then whatever it comes to on any source, some fitting answers make it come to
(`Clamped.exists_answeredBy`). And it may *tell* its answers: then its value shows which they were.
-/

namespace AmountWalk.Draws

variable {α β γ : Type}

/-! ## Fitting answers -/

/-- Asked what it asks for, the program is answered by this script, up to its end and with digits of
the class only, and comes to this value. -/
inductive AnsweredBy : Draws α → Script → α → Prop where
  | done (value : α) : AnsweredBy (.done value) .empty value
  | coin {next : Bool → Draws α} {answers : Script} {value : α} (heads : Bool)
      (h : AnsweredBy (next heads) answers value) :
      AnsweredBy (.coin next) (⟨[heads], []⟩ ++ answers) value
  | digit {cls : DigitClass} {next : UInt8 → Draws α} {answers : Script} {value : α} {raw : UInt8}
      (hraw : cls.contains raw = true) (h : AnsweredBy (next raw) answers value) :
      AnsweredBy (.digit cls next) (⟨[], [raw]⟩ ++ answers) value

variable {program : Draws α} {later : α → Draws β} {answers front back : Script} {value : α}
  {result : β}

/-- Answers to one program and answers to the next one answer both. -/
theorem AnsweredBy.bind (h : program.AnsweredBy front value)
    (hlater : (later value).AnsweredBy back result) :
    (program.bind later).AnsweredBy (front ++ back) result := by
  induction h with
  | done value => exact hlater
  | coin heads _ ih =>
    rw [Script.append_assoc]
    exact .coin heads (ih hlater)
  | digit hraw _ ih =>
    rw [Script.append_assoc]
    exact .digit hraw (ih hlater)

/-- **Answers to a sequence are answers to its parts,** one behind the other. -/
theorem answeredBy_bind_iff : (program.bind later).AnsweredBy answers result
    ↔ ∃ front back value, program.AnsweredBy front value ∧ (later value).AnsweredBy back result ∧
      answers = front ++ back := by
  constructor
  · intro h
    induction program generalizing answers with
    | done value => exact ⟨.empty, answers, value, .done value, h, rfl⟩
    | coin next ih =>
      cases h with
      | coin heads h =>
        obtain ⟨front, back, value, hfront, hback, rfl⟩ := ih heads h
        exact ⟨_, back, value, .coin heads hfront, hback, (Script.append_assoc _ _ _).symm⟩
    | digit cls next ih =>
      cases h with
      | @digit _ _ _ _ raw hraw h =>
        obtain ⟨front, back, value, hfront, hback, rfl⟩ := ih raw h
        exact ⟨_, back, value, .digit hraw hfront, hback, (Script.append_assoc _ _ _).symm⟩
  · rintro ⟨front, back, value, hfront, hback, rfl⟩
    exact hfront.bind hback

theorem answeredBy_map_iff {f : α → β} : (program.map f).AnsweredBy answers result
    ↔ ∃ value, program.AnsweredBy answers value ∧ f value = result := by
  constructor
  · intro h
    obtain ⟨front, back, value, hfront, hback, rfl⟩ := answeredBy_bind_iff.mp h
    cases hback
    rw [Script.append_empty]
    exact ⟨value, hfront, rfl⟩
  · rintro ⟨value, h, rfl⟩
    exact answeredBy_bind_iff.mpr
      ⟨answers, .empty, value, h, .done (f value), (Script.append_empty answers).symm⟩

section Drawn

variable {σ : Type} {dst : σ} {cls : DigitClass} {move : Move σ}

/-- A digit of the class is what answers a draw, and its character is emitted. -/
theorem answeredBy_emitDrawn_iff : (emitDrawn dst cls).AnsweredBy answers move
    ↔ ∃ digit, cls.contains digit = true ∧ answers = ⟨[], [digit]⟩ ∧
      move = .emit dst (digitChar digit) := by
  constructor
  · intro h
    cases h with
    | @digit _ _ _ _ raw hraw h =>
      cases h
      rw [Script.append_empty, DigitClass.clamp_of_contains hraw]
      exact ⟨raw, hraw, rfl, rfl⟩
  · rintro ⟨digit, hdigit, rfl, rfl⟩
    have h : (emitDrawn dst cls).AnsweredBy (⟨[], [digit]⟩ ++ .empty)
        (.emit dst (digitChar (cls.clamp digit))) :=
      .digit hdigit (.done _)
    rwa [Script.append_empty, DigitClass.clamp_of_contains hdigit] at h

end Drawn

/-! ## Scripts that are watched -/

/-- A digit that fits is drawn as it is, and nothing is noticed. -/
theorem run_digit_watched {cls : DigitClass} {raw : UInt8} (hraw : cls.contains raw = true)
    (next : UInt8 → Draws α) (rest : Script) :
    (digit cls next).run (Watched.start (⟨[], [raw]⟩ ++ rest)) = (next raw).run (.start rest) := by
  show (next (cls.clamp raw)).run (Watched.mk rest true (cls.contains raw)) = _
  rw [DigitClass.clamp_of_contains hraw, hraw]
  rfl

/-- **A script that is watched keeps its good record exactly if it begins with fitting answers,** and
what is left of it is what stands behind them. -/
theorem run_watched_iff {script rest : Script} :
    program.run (Watched.start script) = (value, Watched.start rest)
      ↔ ∃ answers, program.AnsweredBy answers value ∧ script = answers ++ rest := by
  constructor
  · intro h
    -- what was noticed is never forgotten, so no draw can have found its queue empty or drawn a
    -- digit that does not fit
    induction program generalizing script with
    | done other =>
      cases h
      exact ⟨.empty, .done value, rfl⟩
    | coin next ih =>
      obtain ⟨coins, digits⟩ := script
      cases coins with
      | nil =>
        have hsupplied := Watched.supplied_of_run (next false) ⟨⟨[], digits⟩, false, true⟩
          (congrArg (fun run => run.2.supplied) h)
        cases hsupplied
      | cons heads coins =>
        have hrun : (next heads).run (Watched.start ⟨coins, digits⟩)
            = (value, Watched.start rest) := h
        obtain ⟨answers, hanswers, hscript⟩ := ih heads hrun
        refine ⟨_, .coin heads hanswers, ?_⟩
        rw [Script.append_assoc, ← hscript]
        rfl
    | digit cls next ih =>
      obtain ⟨coins, digits⟩ := script
      cases digits with
      | nil =>
        have hsupplied := Watched.supplied_of_run (next cls.lowest) ⟨⟨coins, []⟩, false, true⟩
          (congrArg (fun run => run.2.supplied) h)
        cases hsupplied
      | cons raw digits =>
        have hraw : cls.contains raw = true := Watched.fitting_of_run (next (cls.clamp raw))
          ⟨⟨coins, digits⟩, true, cls.contains raw⟩ (congrArg (fun run => run.2.fitting) h)
        have hrun := run_digit_watched hraw next ⟨coins, digits⟩
        obtain ⟨answers, hanswers, hscript⟩ := ih raw (hrun.symm.trans h)
        refine ⟨_, .digit hraw hanswers, ?_⟩
        rw [Script.append_assoc, ← hscript]
        rfl
  · rintro ⟨answers, hanswers, rfl⟩
    induction hanswers with
    | done value => rfl
    | coin heads _ ih => exact ih
    | digit hraw _ ih =>
      rw [Script.append_assoc, run_digit_watched hraw]
      exact ih

/-- A script that begins with fitting answers leads to the value and leaves the rest. -/
theorem AnsweredBy.run (h : program.AnsweredBy answers value) (rest : Script) :
    program.run (answers ++ rest) = (value, rest) := by
  have hwatched : program.run (Watched.start (answers ++ rest)) = (value, Watched.start rest) :=
    run_watched_iff.mpr ⟨answers, h, rfl⟩
  have hview := Watched.isView_script.run program (Watched.start (answers ++ rest))
  rw [hwatched] at hview
  exact hview

/-- **Whatever a program that clamps comes to on some source, fitting answers make it come to.** -/
theorem Clamped.exists_answeredBy [ChoiceSource γ] (h : program.Clamped) (source : γ) :
    ∃ answers, program.AnsweredBy answers (program.run source).1 := by
  induction h generalizing source with
  | done value => exact ⟨.empty, .done value⟩
  | coin _ ih =>
    obtain ⟨answers, hanswers⟩ := ih _ (ChoiceSource.coin source).2
    exact ⟨_, .coin _ hanswers⟩
  | @drawn cls next _ ih =>
    -- the digit that fits is the one that the program clamps to
    let drawn := cls.clamp (ChoiceSource.digit cls source).1
    have hdrawn : cls.contains drawn = true := cls.contains_clamp _
    obtain ⟨answers, hanswers⟩ := ih drawn (ChoiceSource.digit cls source).2
    have hnext : (next (cls.clamp drawn)).AnsweredBy answers
        ((Draws.drawn cls next).run source).1 := by
      rw [DigitClass.clamp_of_contains hdrawn]
      exact hanswers
    exact ⟨_, .digit hdrawn hnext⟩

/-! ## Programs that tell their answers -/

/-- The value of the program shows how it was answered. -/
def Tells (program : Draws α) : Prop :=
  ∀ front back value, program.AnsweredBy front value → program.AnsweredBy back value → front = back

theorem tells_done (value : α) : (done value).Tells := by
  intro front back result hfront hback
  cases hfront
  cases hback
  rfl

theorem tells_emitDrawn {σ : Type} (dst : σ) (cls : DigitClass) : (emitDrawn dst cls).Tells := by
  intro front back move hfront hback
  obtain ⟨a, ha, rfl, rfl⟩ := answeredBy_emitDrawn_iff.mp hfront
  obtain ⟨b, hb, rfl, hmove⟩ := answeredBy_emitDrawn_iff.mp hback
  injection hmove with _ hchar
  rw [DigitClass.eq_of_digitChar_eq ha hb hchar]

/-- A flipped coin is told by the value if the two sides never come to the same one. -/
theorem tells_coin {heads tails : Draws α} (hheads : heads.Tells) (htails : tails.Tells)
    (hapart : ∀ front back value, heads.AnsweredBy front value → ¬ tails.AnsweredBy back value) :
    (Draws.coin fun side => if side then heads else tails).Tells := by
  intro front back value hfront hback
  cases hfront with
  | coin side hfront =>
    cases hback with
    | coin other hback =>
      cases side with
      | true =>
        cases other with
        | true => rw [hheads _ _ _ hfront hback]
        | false => exact absurd hback (hapart _ _ _ hfront)
      | false =>
        cases other with
        | true => exact absurd hfront (hapart _ _ _ hback)
        | false => rw [htails _ _ _ hfront hback]

end AmountWalk.Draws
