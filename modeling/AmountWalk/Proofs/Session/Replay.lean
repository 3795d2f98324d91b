import AmountWalk.Choice.Cycle
import AmountWalk.Proofs.Amount.Choices
import AmountWalk.Proofs.Session.Program

/-!
# Record and replay

Whatever a source answers in the course of a session can be written down as a script: the coins in
one queue, the digits as the source gave them in the other. On that script the same calls come to the
same replies and the same reports, and they leave what stands behind it, untouched. The source may
answer with digits outside the class that it was asked for; the script clamps them, and so does the
policy in any case.

A script that did not run dry in a session was, so to speak, written for it: adding to it changes
nothing but what is left.
-/

namespace AmountWalk.Table

variable {σ γ : Type} [DecidableEq σ] [StateSet σ] [ChoiceSource γ]

variable {table : Table σ} {policy : Policy σ} {moves : Nat} {calls : List Call}

theorem session_eq_some_iff {source : γ} {run : Run γ (List (Reply σ))} :
    table.session policy moves calls source = some run
      ↔ (table.sessionProgram policy moves calls).run source
        = (some (run.outcome, run.log), run.source) := by
  rw [session_eq_report, Draws.report, Option.map_eq_some_iff]
  constructor
  · rintro ⟨⟨replies, log⟩, hvalue, rfl⟩
    exact Prod.ext hvalue rfl
  · intro h
    rw [h]
    exact ⟨_, rfl, rfl⟩

/-- A session cannot tell a source from what it is seen as. -/
theorem session_of_isView {δ : Type} [ChoiceSource δ] {view : γ → δ} (hview : IsView view)
    {source : γ} {run : Run δ (List (Reply σ))}
    (h : table.session policy moves calls (view source) = some run) :
    ∃ rest, table.session policy moves calls source = some ⟨run.outcome, rest, run.log⟩ ∧
      view rest = run.source := by
  rw [session_eq_some_iff, hview.run] at h
  obtain ⟨hvalue, hrest⟩ := Prod.mk.inj h
  exact ⟨_, session_eq_some_iff.mpr (Prod.ext hvalue rfl), hrest⟩

/-- **Record and replay.** Let a policy look at digits only after they were clamped, and let calls on
a source come to replies. Then a recording of the source comes to the same and shows which coins and
digits the source answered; and a script that begins with these answers makes the same calls come to
the same replies and leaves what stands behind them, whatever that is. In particular, what is added
to a script that did not run dry stays behind. -/
theorem session_replays (table : Table σ) (policy : Policy σ)
    (hpolicy : ∀ s, (policy s).Clamped) (moves : Nat) (calls : List Call) (source : γ)
    (run : Run γ (List (Reply σ)))
    (h : table.session policy moves calls source = some run) :
    (∃ answers,
      table.session policy moves calls (Recording.start source)
        = some ⟨run.outcome, ⟨run.source, answers⟩, run.log⟩ ∧
      ∀ later : Script, table.session policy moves calls (answers ++ later)
        = some ⟨run.outcome, later, run.log⟩) ∧
    ∀ (script : Script) (watched : Run Watched (List (Reply σ))),
      table.session policy moves calls (Watched.start script) = some watched →
      watched.source.supplied = true →
      ∀ later : Script, table.session policy moves calls (script ++ later)
        = some ⟨watched.outcome, watched.source.script ++ later, watched.log⟩ := by
  refine ⟨?replay, ?prolong⟩
  case replay =>
    have hclamped : (table.sessionProgram policy moves calls).Clamped :=
      clamped_sessionProgram hpolicy moves calls
    obtain ⟨answers, hanswers, hreplay⟩ := hclamped.exists_answers (Recording.start source)
    have hseen : table.session policy moves calls (Recording.start source).source = some run := h
    obtain ⟨⟨rest, recorded⟩, hrecording, hrest⟩ :=
      session_of_isView Recording.isView_source hseen
    -- what the recording shows is what can be replayed
    have hrecorded : recorded = answers := by
      rw [session_eq_some_iff.mp hrecording] at hanswers
      exact hanswers
    subst hrecorded hrest
    refine ⟨recorded, hrecording, fun later => session_eq_some_iff.mpr ?_⟩
    have hvalue := congrArg Prod.fst (session_eq_some_iff.mp hseen)
    rw [hreplay later, hvalue]
  case prolong =>
    intro script watched hwatched hsupplied later
    rw [session_eq_some_iff] at hwatched
    have hdry : ((table.sessionProgram policy moves calls).run (Watched.start script)).2.supplied
        = true := by
      rw [hwatched]
      exact hsupplied
    have hlater := Watched.run_append _ (Watched.start script) later hdry
    rw [hwatched] at hlater
    exact session_eq_some_iff.mpr hlater

/-! ## A session through the automaton of amounts -/

/-- A source that answers with numbers that are no digits of their class, or no digits at all. -/
def wildSource : Cycle := .ofLists [true, false, true, false] [12, 0, 255]

/-- One call of each kind. The bounded walk is abandoned on the wild source. -/
def oneOfEach : List Call := [.walk, .walkBounded 2, .generate, .collect ⟨2, 4, 3⟩]

/-- What a wild source answers in a session, whose replay leaves anything behind it. -/
theorem session_replays_wild : ∃ run,
    (∀ s, (Amount.policy s).Clamped) ∧
    Amount.table.session Amount.policy 5 oneOfEach wildSource = some run ∧
    ∀ later : Script, Amount.table.session Amount.policy 5 oneOfEach
        (Script.mk [true, false, true, false, true, false, true, false, true, false, true, false,
          true] [12, 0, 255, 12, 0, 255, 12] ++ later)
      = some ⟨run.outcome, later, run.log⟩ := by
  obtain ⟨run, hrun⟩ : ∃ run,
      Amount.table.session Amount.policy 5 oneOfEach wildSource = some run :=
    Option.isSome_iff_exists.mp (by decide +kernel)
  obtain ⟨⟨answers, hrecording, hreplay⟩, -⟩ :=
    session_replays Amount.table Amount.policy Amount.clamped_policy 5 oneOfEach wildSource run hrun
  have hanswers : (Amount.table.session Amount.policy 5 oneOfEach
      (Recording.start wildSource)).map (fun run => run.source.answers)
      = some ⟨[true, false, true, false, true, false, true, false, true, false, true, false,
          true], [12, 0, 255, 12, 0, 255, 12]⟩ := by
    decide +kernel
  rw [hrecording] at hanswers
  cases hanswers
  exact ⟨run, Amount.clamped_policy, hrun, hreplay⟩

end AmountWalk.Table
