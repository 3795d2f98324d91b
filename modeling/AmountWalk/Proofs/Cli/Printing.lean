import AmountWalk.Cli
import AmountWalk.Proofs.Amount.Exits
import AmountWalk.Proofs.Render.Outcome

/-!
# What the program prints

All or nothing: nothing is printed before the diagram is drawn and five walks have halted, and then
the texts of these walks are printed, one a line (`prints_amounts_or_nothing`). Without the diagram the
source of choices is not asked at all.
-/

namespace AmountWalk

/-- An amount has only digits and three other characters. -/
theorem Amount.Printed.isDigit_or_mem {text : List Char} {ch : Char} (h : Amount.Printed text)
    (hmem : ch ∈ text) : IsDigit ch ∨ ch ∈ ['$', '.', 'c'] := by
  cases h with
  | @fraction a b ha hb =>
    simp only [List.mem_cons, List.not_mem_nil, or_false] at hmem
    rcases hmem with rfl | rfl | rfl | rfl | rfl
    · exact Or.inr (by decide)
    · exact Or.inl (by decide)
    · exact Or.inr (by decide)
    · exact Or.inl ha
    · exact Or.inl hb
  | whole hnumber =>
    cases hnumber with
    | cons hfirst hrest =>
      rcases List.mem_cons.mp hmem with rfl | hmem
      · exact Or.inr (by decide)
      · rcases List.mem_cons.mp hmem with rfl | hmem
        · exact Or.inl hfirst.isDigit
        · exact Or.inl (hrest ch hmem)
  | cent ha =>
    simp only [List.mem_cons, List.not_mem_nil, or_false] at hmem
    rcases hmem with rfl | rfl
    · exact Or.inl ha.isDigit
    · exact Or.inr (by decide)
  | cents ha hb =>
    simp only [List.mem_cons, List.not_mem_nil, or_false] at hmem
    rcases hmem with rfl | rfl | rfl
    · exact Or.inl ha.isDigit
    · exact Or.inl hb
    · exact Or.inr (by decide)

/-- An amount fits on a line. -/
theorem Amount.Printed.newline_not_mem {text : List Char} (h : Amount.Printed text) :
    '\n' ∉ text := by
  intro hmem
  rcases h.isDigit_or_mem hmem with hdigit | hother
  · exact absurd hdigit (by decide)
  · exact absurd hother (by decide)

namespace Cli

variable {γ : Type} [ChoiceSource γ] {host : Host} {files : Files}

/-- Nothing was printed, and the status says so. -/
def PrintsNothing (report : CliReport) : Prop :=
  report.stdout = [] ∧ report.status ≠ 0

/-- Five amounts were printed and nothing else, one a line. -/
structure PrintsAmounts (report : CliReport) (amounts : List (List Char)) : Prop where
  stdout : report.stdout = amounts.flatMap fun line => line ++ ['\n']
  status : report.status = 0
  length : amounts.length = 5
  printed : ∀ line ∈ amounts, Amount.Printed line
  lines : ∀ line ∈ amounts, '\n' ∉ line

/-- The diagram of the automaton of amounts is drawn. -/
def Drawn (host : Host) (files : Files) : Prop :=
  RenderConfig.default.Draws host files Amount.table

/-- Without a diagram nothing is printed, and no choice is made. -/
theorem run_of_not_drawn (h : ¬ Drawn host files) (source : γ) :
    PrintsNothing (run host files source).1 ∧ (run host files source).2 = source := by
  cases hresult : (RenderConfig.default.render host files Amount.table).result with
  | ok image => exact absurd (RenderConfig.render_result_eq_ok_iff.mp hresult).1 h
  | error error =>
    have hone : (1 : UInt8) ≠ 0 := by decide
    rw [run]
    simp only [hresult]
    exact ⟨⟨rfl, hone⟩, trivial⟩

/-- With a diagram the sampling decides. -/
theorem run_of_drawn (h : Drawn host files) (source : γ) :
    (∀ texts, (Amount.table.collect Amount.policy .default source).outcome = .ok texts →
      (run host files source).1.lines = texts ∧ (run host files source).1.status = 0) ∧
    (∀ e, (Amount.table.collect Amount.policy .default source).outcome = .error (.exhausted e) →
      PrintsNothing (run host files source).1) := by
  have hresult := RenderConfig.render_result_eq_ok_iff.mpr ⟨h, rfl⟩
  refine ⟨fun texts hok => ?_, fun e hexhausted => ?_⟩
  · rw [run]
    simp only [hresult, hok]
    exact ⟨trivial, trivial⟩
  · have hone : (1 : UInt8) ≠ 0 := by decide
    rw [run]
    simp only [hresult, hexhausted]
    exact ⟨rfl, hone⟩

theorem PrintsNothing.not_printsAmounts {report : CliReport} (h : PrintsNothing report) :
    ¬ ∃ amounts, PrintsAmounts report amounts := by
  rintro ⟨amounts, hamounts⟩
  exact h.2 hamounts.status

/-- The texts of those of ten thousand walks that halt within a thousand steps, in order. -/
def halting (source : γ) : List (List Char) := Amount.completed 1000 source 10000

theorem printsAmounts_of_drawn (h : Drawn host files) {source : γ}
    (hfive : 5 ≤ (halting source).length) :
    PrintsAmounts (run host files source).1 ((halting source).take 5) := by
  have hfits : SampleConfig.default.fits = true := by decide
  rcases Amount.collect_outcome_cases hfits source with ⟨-, hok⟩ | ⟨hfew, -⟩
  · obtain ⟨hlines, hstatus⟩ := (run_of_drawn h source).1 _ hok
    have hprinted : ∀ line ∈ (halting source).take 5, Amount.Printed line := fun line hline =>
      Amount.printed_of_mem_completed (List.mem_of_mem_take hline)
    refine ⟨?_, hstatus, ?_, hprinted, fun line hline => (hprinted line hline).newline_not_mem⟩
    · rw [CliReport.stdout, hlines]
      rfl
    · rw [List.length_take]
      exact Nat.min_eq_left hfive
  · exact absurd hfew (Nat.not_lt.mpr hfive)

theorem printsNothing_of_few (h : Drawn host files) {source : γ}
    (hfew : (halting source).length < 5) : PrintsNothing (run host files source).1 := by
  have hfits : SampleConfig.default.fits = true := by decide
  rcases Amount.collect_outcome_cases hfits source with ⟨hmany, -⟩ | ⟨-, e, hexhausted⟩
  · exact absurd hmany (Nat.not_le.mpr hfew)
  · exact (run_of_drawn h source).2 e hexhausted

/-- **The program prints all or nothing,** whatever becomes of the rendering and whatever choices are
made: five amounts with a status of zero, or nothing with another status. It prints amounts exactly
when the diagram is drawn and five of ten thousand walks halt within a thousand steps, and then the
texts of the first five that do. Without the diagram it asks the source for nothing. -/
theorem prints_amounts_or_nothing (host : Host) (files : Files) (source : γ) :
    (PrintsNothing (run host files source).1 ∨
      ∃ amounts, PrintsAmounts (run host files source).1 amounts) ∧
    ((∃ amounts, PrintsAmounts (run host files source).1 amounts) ↔
      Drawn host files ∧ 5 ≤ (halting source).length) ∧
    (Drawn host files → 5 ≤ (halting source).length →
      PrintsAmounts (run host files source).1 ((halting source).take 5)) ∧
    (¬ Drawn host files → (run host files source).2 = source ∧
      (run host files (Recording.start source)).2.answers = .empty) := by
  by_cases hdrawn : Drawn host files
  · rcases Nat.lt_or_ge (halting source).length 5 with hfew | hfive
    · have hnothing := printsNothing_of_few hdrawn hfew
      exact ⟨Or.inl hnothing,
        ⟨fun h => absurd h hnothing.not_printsAmounts, fun h => absurd h.2 (Nat.not_le.mpr hfew)⟩,
        fun _ hfive => absurd hfive (Nat.not_le.mpr hfew), fun h => absurd hdrawn h⟩
    · have hamounts := printsAmounts_of_drawn hdrawn hfive
      exact ⟨Or.inr ⟨_, hamounts⟩, ⟨fun _ => ⟨hdrawn, hfive⟩, fun _ => ⟨_, hamounts⟩⟩,
        fun _ _ => hamounts, fun h => absurd hdrawn h⟩
  · obtain ⟨hnothing, hsource⟩ := run_of_not_drawn hdrawn source
    have hanswers : (run host files (Recording.start source)).2.answers = .empty :=
      congrArg Recording.answers (run_of_not_drawn hdrawn (Recording.start source)).2
    exact ⟨Or.inl hnothing,
      ⟨fun h => absurd h hnothing.not_printsAmounts, fun h => absurd h.1 hdrawn⟩,
      fun h => absurd h hdrawn, fun _ => ⟨hsource, hanswers⟩⟩

end Cli

end AmountWalk
