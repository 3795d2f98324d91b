import AmountWalk.Proofs.Choice.Draws
import AmountWalk.Proofs.Session.Calls

/-!
# Sessions as programs of choices

What a policy asks for in one state is a program of choices. So is all that is asked for by a walk of
a given number of moves, by a sampling and by a whole session: the programs of the moves one after
the other, with the judgement of the table in between. A session on any source is the run of one
program (`session_eq_report`), and what holds of the runs of programs holds of sessions.

Nothing but the policy draws digits. If the policy looks at them only after they were clamped, then
so does the session (`clamped_sessionProgram`).
-/

namespace AmountWalk

variable {α β σ γ : Type}

/-- The run of a program that comes to a value with reports, if to anything. -/
def Draws.report [ChoiceSource γ] (program : Draws (Option (α × List Event))) (source : γ) :
    Option (Run γ α) :=
  (program.run source).1.map fun (value, log) => ⟨value, (program.run source).2, log⟩

namespace Table

variable [DecidableEq σ] [StateSet σ] [ChoiceSource γ]

/-! ## Walks -/

/-- What an unbounded walk asks for. It comes to nothing if the moves do not suffice. -/
def walkProgram (table : Table σ) (policy : Policy σ) :
    Nat → σ → Path σ → Draws (Option (Except (Fault σ) (Path σ)))
  | 0, _, _ => .done none
  | moves + 1, s, path => (policy s).bind fun move =>
    match table.judge s move with
    | .step step => walkProgram table policy moves step.dst (path.record step)
    | .halt => .done (some (.ok path))
    | .fault fault => .done (some (.error fault))

/-- What a bounded walk asks for. -/
def boundedProgram (table : Table σ) (policy : Policy σ) :
    Nat → σ → Path σ → Draws (Ending σ)
  | steps, s, path => (policy s).bind fun move =>
    match table.judge s move with
    | .halt => .done (.finished path)
    | .fault fault => .done (.fault fault)
    | .step step =>
      match steps with
      | 0 => .done (.abandoned s)
      | steps + 1 => boundedProgram table policy steps step.dst (path.record step)

variable {table : Table σ} {policy : Policy σ}

theorem advance_eq_run (s : σ) (source : γ) :
    table.advance policy s source
      = (table.judge s ((policy s).run source).1, ((policy s).run source).2) := rfl

theorem walkFrom_eq_run (moves : Nat) (s : σ) (path : Path σ) (source : γ) :
    table.walkFrom policy moves s path source
      = ((table.walkProgram policy moves s path).run source).1.map
          (·, ((table.walkProgram policy moves s path).run source).2) := by
  induction moves generalizing s path source with
  | zero => rfl
  | succ moves ih =>
    rw [walkFrom, walkProgram, Draws.run_bind, advance_eq_run]
    cases table.judge s ((policy s).run source).1 with
    | step step => exact ih _ _ _
    | halt => rfl
    | fault fault => rfl

theorem walkBoundedFrom_eq_run (steps : Nat) (s : σ) (path : Path σ) (source : γ) :
    table.walkBoundedFrom policy steps s path source
      = (table.boundedProgram policy steps s path).run source := by
  induction steps generalizing s path source with
  | zero =>
    rw [walkBoundedFrom, boundedProgram, Draws.run_bind, advance_eq_run]
    cases table.judge s ((policy s).run source).1 <;> rfl
  | succ steps ih =>
    rw [walkBoundedFrom, boundedProgram, Draws.run_bind, advance_eq_run]
    cases table.judge s ((policy s).run source).1 with
    | step step => exact ih _ _ _
    | halt => rfl
    | fault fault => rfl

section Clamped

variable (hpolicy : ∀ s, (policy s).Clamped)
include hpolicy

theorem clamped_walkProgram (moves : Nat) (s : σ) (path : Path σ) :
    (table.walkProgram policy moves s path).Clamped := by
  induction moves generalizing s path with
  | zero => exact .done none
  | succ moves ih =>
    refine (hpolicy s).bind fun move => ?_
    cases table.judge s move with
    | step step => exact ih _ _
    | halt => exact .done _
    | fault fault => exact .done _

theorem clamped_boundedProgram (steps : Nat) (s : σ) (path : Path σ) :
    (table.boundedProgram policy steps s path).Clamped := by
  induction steps generalizing s path with
  | zero =>
    rw [boundedProgram]
    refine (hpolicy s).bind fun move => ?_
    cases table.judge s move <;> exact .done _
  | succ steps ih =>
    rw [boundedProgram]
    refine (hpolicy s).bind fun move => ?_
    cases table.judge s move with
    | step step => exact ih _ _
    | halt => exact .done _
    | fault fault => exact .done _

end Clamped

/-! ## Samplings -/

/-- What a sampling asks for, and what it reports in the end. -/
def collectProgram (table : Table σ) (policy : Policy σ) (config : SampleConfig) :
    Nat → Tally → Draws (Except (SampleError σ) (List (List Char)) × List Event)
  | attempts, tally =>
    if config.count.toNat ≤ tally.texts.size then
      let done := Event.samplingComplete tally.attempts tally.abandoned tally.texts.size
      .done (.ok tally.texts.toList, (tally.log.push done).toList)
    else
      match attempts with
      | 0 =>
        .done (.error (.exhausted
          ⟨tally.attempts, tally.abandoned, tally.texts.size, config.count.toNat⟩),
          tally.log.toList)
      | attempts + 1 =>
        (table.boundedProgram policy config.maxSteps.toNat table.start .empty).bind fun ending =>
          let tally :=
            (tally.report (table.endingLog config.maxSteps.toNat ending)).count ending
          match ending with
          | .fault fault => .done (.error (.fault fault), tally.log.toList)
          | _ => collectProgram table policy config attempts tally

variable {config : SampleConfig}

theorem collectFrom_eq_run (attempts : Nat) (tally : Tally) (source : γ) :
    table.collectFrom policy config attempts tally source
      = ⟨((table.collectProgram policy config attempts tally).run source).1.1,
          ((table.collectProgram policy config attempts tally).run source).2,
          ((table.collectProgram policy config attempts tally).run source).1.2⟩ := by
  induction attempts generalizing tally source with
  | zero =>
    rw [collectFrom, collectProgram]
    split <;> rfl
  | succ attempts ih =>
    rw [collectFrom, collectProgram]
    split
    · rfl
    · simp only [Draws.run_bind, walkBounded, walkBoundedFrom_eq_run]
      cases ((table.boundedProgram policy config.maxSteps.toNat table.start .empty).run source).1
        with
      | finished path => exact ih _ _
      | abandoned s => exact ih _ _
      | fault fault => rfl

theorem clamped_collectProgram (hpolicy : ∀ s, (policy s).Clamped) (attempts : Nat)
    (tally : Tally) : (table.collectProgram policy config attempts tally).Clamped := by
  induction attempts generalizing tally with
  | zero =>
    rw [collectProgram]
    split <;> exact .done _
  | succ attempts ih =>
    rw [collectProgram]
    split
    · exact .done _
    · refine (clamped_boundedProgram hpolicy _ _ _).bind fun ending => ?_
      cases ending with
      | finished path => exact ih _
      | abandoned s => exact ih _
      | fault fault => exact .done _

/-! ## Calls and sessions -/

/-- What a walk reports when it ends. -/
def answerLog (table : Table σ) : Except (Fault σ) (Path σ) → List Event
  | .ok path => [table.finishedEvent path]
  | .error _ => []

/-- What a call asks for. -/
def callProgram (table : Table σ) (policy : Policy σ) (moves : Nat) :
    Call → Draws (Option (Reply σ × List Event))
  | .walk => (table.walkProgram policy moves table.start .empty).map
      (Option.map fun answer => (.walk answer, table.answerLog answer))
  | .walkBounded maxSteps => (table.boundedProgram policy maxSteps table.start .empty).map
      fun ending => some (.walkBounded ending, table.endingLog maxSteps ending)
  | .generate => (table.walkProgram policy moves table.start .empty).map
      (Option.map fun answer => (.generate (answer.map Path.output), table.answerLog answer))
  | .collect config =>
    if config.fits then
      (table.collectProgram policy config config.maxAttempts.toNat .empty).map
        fun (answer, log) => some (.collect answer, log)
    else .done (some (.collect (.error .capacityOverflow), []))

/-- What a session asks for. -/
def sessionProgram (table : Table σ) (policy : Policy σ) (moves : Nat) :
    List Call → Draws (Option (List (Reply σ) × List Event))
  | [] => .done (some ([], []))
  | call :: calls => (table.callProgram policy moves call).bind fun
    | none => .done none
    | some (reply, log) => (sessionProgram table policy moves calls).map
        (Option.map fun (replies, later) => (reply :: replies, log ++ later))

theorem walk_eq_run (moves : Nat) (source : γ) :
    table.walk policy moves source
      = ((table.walkProgram policy moves table.start .empty).run source).1.map fun answer =>
          ⟨answer, ((table.walkProgram policy moves table.start .empty).run source).2,
            table.answerLog answer⟩ := by
  rw [walk, walkFrom_eq_run]
  cases ((table.walkProgram policy moves table.start .empty).run source).1 with
  | none => rfl
  | some answer => cases answer <;> rfl

theorem call_eq_report (moves : Nat) (source : γ) (call : Call) :
    table.call policy moves source call = (table.callProgram policy moves call).report source := by
  cases call with
  | walk =>
    simp only [Table.call, callProgram, Draws.report, Draws.run_map, walk_eq_run, Option.map_map]
    rfl
  | walkBounded maxSteps =>
    simp only [Table.call, callProgram, Draws.report, Draws.run_map, walkBounded,
      walkBoundedFrom_eq_run]
    rfl
  | generate =>
    simp only [Table.call, callProgram, Draws.report, Draws.run_map, generate, walk_eq_run,
      Option.map_map]
    rfl
  | collect config =>
    rw [Table.call, callProgram, collect]
    split
    · simp only [Draws.report, Draws.run_map, collectFrom_eq_run]
      rfl
    · rfl

/-- **A session is the run of one program,** on every source. -/
theorem session_eq_report (moves : Nat) (calls : List Call) (source : γ) :
    table.session policy moves calls source
      = (table.sessionProgram policy moves calls).report source := by
  induction calls generalizing source with
  | nil => rfl
  | cons call calls ih =>
    rw [session, call_eq_report, sessionProgram, Draws.report, Draws.report, Draws.run_bind]
    cases ((table.callProgram policy moves call).run source).1 with
    | none => rfl
    | some first =>
      simp only [Option.map_some, Option.bind_some, ih, Draws.report, Draws.run_map,
        Option.map_map]
      rfl

/-- **A session looks at digits only after they were clamped,** if its policy does. -/
theorem clamped_sessionProgram (hpolicy : ∀ s, (policy s).Clamped) (moves : Nat)
    (calls : List Call) : (table.sessionProgram policy moves calls).Clamped := by
  induction calls with
  | nil => exact .done _
  | cons call calls ih =>
    have hcall : (table.callProgram policy moves call).Clamped := by
      cases call with
      | walk => exact (clamped_walkProgram hpolicy _ _ _).map _
      | walkBounded maxSteps => exact (clamped_boundedProgram hpolicy _ _ _).map _
      | generate => exact (clamped_walkProgram hpolicy _ _ _).map _
      | collect config =>
        rw [callProgram]
        split
        · exact (clamped_collectProgram hpolicy _ _).map _
        · exact .done _
    refine hcall.bind fun first => ?_
    cases first with
    | none => exact .done none
    | some _ => exact ih.map _

end Table

end AmountWalk
