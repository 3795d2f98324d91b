import AmountWalk.Event
import AmountWalk.Path
import AmountWalk.Policy
import AmountWalk.Table

/-!
# Walks

A walk starts in the start state of a table and follows a policy until it halts. Every move is judged
against the table first: a character may only be emitted along the transition that reads it, and a
walk may only halt in an accepting state. A move that breaks one of these rules is a `Fault` and ends
the walk, with the choices it drew used up.

## Bounds

A policy need not halt. `Table.walk` takes a number of moves and has no answer when the walk has not
ended after them; its answer does not depend on the number otherwise (`walkFrom_mono`).
`Table.walkBounded` abandons a walk that would take more than a given number of steps. The move that
breaks the bound is made, judged and only then not recorded.
-/

namespace AmountWalk

/-- The result of running something on a source of choices. -/
structure Run (γ α : Type) where
  /-- What came out. -/
  outcome : α
  /-- What is left of the source. -/
  source : γ
  /-- What was reported, in order. -/
  log : List Event

/-- A move that breaks the rules of a walk. -/
inductive Fault (σ : Type) where
  /-- No transition leads from the state to the other one by reading the character. -/
  | noEdge (src : σ) (ch : Char) (dst : σ)
  /-- The walk halted in a state that does not accept. -/
  | haltedIn (s : σ)
  deriving DecidableEq

/-- The fault in words. -/
def Fault.message {σ : Type} [StateSet σ] : Fault σ → String
  | noEdge src ch dst =>
    "no edge " ++ StateSet.label src ++ " -" ++ String.singleton ch ++ "-> " ++ StateSet.label dst
  | haltedIn s => "halted in " ++ StateSet.label s

/-- A move after it was judged. -/
inductive Advance (σ : Type) where
  /-- Take this step. -/
  | step (step : Step σ)
  /-- Stop here. -/
  | halt
  /-- The move breaks the rules. -/
  | fault (fault : Fault σ)
  deriving DecidableEq

/-- How a bounded walk ends. -/
inductive Ending (σ : Type) where
  /-- It halted. -/
  | finished (path : Path σ)
  /-- It would have exceeded its bound by leaving this state. -/
  | abandoned (s : σ)
  /-- It broke the rules. -/
  | fault (fault : Fault σ)
  deriving DecidableEq

namespace Table

variable {σ γ : Type} [DecidableEq σ] [StateSet σ]

/-- Judge a move out of a state. -/
def judge (table : Table σ) (s : σ) : Move σ → Advance σ
  | .emit dst ch =>
    if (table.transitionOn s ch).any (·.dst == dst) then .step ⟨s, dst, some ch⟩
    else .fault (.noEdge s ch dst)
  | .silent dst => .step ⟨s, dst, none⟩
  | .halt => if StateSet.accepting s then .halt else .fault (.haltedIn s)

variable [ChoiceSource γ]

/-- Ask the policy for a move out of a state and judge it. -/
def advance (table : Table σ) (policy : Policy σ) (s : σ) (source : γ) : Advance σ × γ :=
  let (move, source) := (policy s).run source
  (table.judge s move, source)

/-! ## Unbounded walks -/

/-- Go on from a state with so many moves at most. There is no answer when they do not suffice. -/
def walkFrom (table : Table σ) (policy : Policy σ) :
    Nat → σ → Path σ → γ → Option (Except (Fault σ) (Path σ) × γ)
  | 0, _, _, _ => none
  | moves + 1, s, path, source =>
    match table.advance policy s source with
    | (.step step, source) => walkFrom table policy moves step.dst (path.record step) source
    | (.halt, source) => some (.ok path, source)
    | (.fault fault, source) => some (.error fault, source)

/-- The report of a walk that halted. -/
def finishedEvent (table : Table σ) (path : Path σ) : Event :=
  .walkFinished path.length (StateSet.label (path.final?.getD table.start)) path.output

/-- Walk from the start until the policy halts, with so many moves at most. -/
def walk (table : Table σ) (policy : Policy σ) (moves : Nat) (source : γ) :
    Option (Run γ (Except (Fault σ) (Path σ))) :=
  (table.walkFrom policy moves table.start .empty source).map fun
    | (.ok path, source) => ⟨.ok path, source, [table.finishedEvent path]⟩
    | (.error fault, source) => ⟨.error fault, source, []⟩

/-- Walk from the start until the policy halts, and keep the text only. -/
def generate (table : Table σ) (policy : Policy σ) (moves : Nat) (source : γ) :
    Option (Run γ (Except (Fault σ) (List Char))) :=
  (table.walk policy moves source).map fun run =>
    ⟨run.outcome.map Path.output, run.source, run.log⟩

/-- More moves than enough change nothing. -/
theorem walkFrom_mono {table : Table σ} {policy : Policy σ} {moves more : Nat} {s : σ}
    {path : Path σ} {source : γ} {answer : Except (Fault σ) (Path σ) × γ}
    (h : table.walkFrom policy moves s path source = some answer) (hle : moves ≤ more) :
    table.walkFrom policy more s path source = some answer := by
  induction moves generalizing more s path source with
  | zero => simp [walkFrom] at h
  | succ moves ih =>
    obtain ⟨more, rfl⟩ : ∃ m, more = m + 1 := ⟨more - 1, by omega⟩
    rw [walkFrom] at h ⊢
    split at h
    · exact ih h (by omega)
    · exact h
    · exact h

/-! ## Bounded walks -/

/-- Go on from a state with so many more steps at most. -/
def walkBoundedFrom (table : Table σ) (policy : Policy σ) :
    Nat → σ → Path σ → γ → Ending σ × γ
  | steps, s, path, source =>
    match table.advance policy s source with
    | (.halt, source) => (.finished path, source)
    | (.fault fault, source) => (.fault fault, source)
    | (.step step, source) =>
      match steps with
      | 0 => (.abandoned s, source)
      | steps + 1 => walkBoundedFrom table policy steps step.dst (path.record step) source

/-- What a bounded walk reports when it ends. -/
def endingLog (table : Table σ) (maxSteps : Nat) : Ending σ → List Event
  | .finished path => [table.finishedEvent path]
  | .abandoned s => [.walkAbandoned maxSteps (StateSet.label s)]
  | .fault _ => []

/-- Walk from the start, and abandon a walk of more than so many steps. -/
def walkBounded (table : Table σ) (policy : Policy σ) (maxSteps : Nat) (source : γ) :
    Run γ (Ending σ) :=
  let (ending, source) := table.walkBoundedFrom policy maxSteps table.start .empty source
  ⟨ending, source, table.endingLog maxSteps ending⟩

end Table

end AmountWalk
