/-!
# Paths

The steps that one walk takes through an automaton. A step that emits nothing is *silent*: it
changes the state and leaves the text as it is.
-/

namespace AmountWalk

/-- One step of a walk. -/
structure Step (σ : Type) where
  /-- The state it leaves. -/
  src : σ
  /-- The state it enters. -/
  dst : σ
  /-- The character it appends to the text, if any. -/
  emitted : Option Char
  deriving DecidableEq

/-- Whether the step appends nothing. -/
def Step.isSilent {σ : Type} (step : Step σ) : Bool :=
  step.emitted.isNone

/-- The steps of a walk, in order. -/
structure Path (σ : Type) where
  steps : Array (Step σ)
  deriving DecidableEq

namespace Path

variable {σ : Type}

/-- The path without steps. -/
def empty : Path σ := ⟨#[]⟩

/-- The path with one more step at its end. -/
def record (path : Path σ) (step : Step σ) : Path σ := ⟨path.steps.push step⟩

/-- The number of steps. -/
def length (path : Path σ) : Nat := path.steps.size

def isEmpty (path : Path σ) : Bool := path.steps.isEmpty

/-- The states met along the way: where the first step starts, then what each step enters. The
empty path meets none. -/
def states (path : Path σ) : List σ :=
  match path.steps.toList with
  | [] => []
  | first :: rest => first.src :: first.dst :: rest.map Step.dst

/-- The state that the last step enters. -/
def final? (path : Path σ) : Option σ := path.steps.back?.map Step.dst

/-- The text that the steps emit. -/
def output (path : Path σ) : List Char := path.steps.toList.filterMap Step.emitted

@[simp] theorem steps_empty : (empty : Path σ).steps = #[] := rfl

@[simp] theorem toList_steps_record (path : Path σ) (step : Step σ) :
    (path.record step).steps.toList = path.steps.toList ++ [step] :=
  Array.toList_push

@[simp] theorem length_record (path : Path σ) (step : Step σ) :
    (path.record step).length = path.length + 1 :=
  Array.size_push step

@[simp] theorem output_empty : (empty : Path σ).output = [] := rfl

@[simp] theorem output_record (path : Path σ) (step : Step σ) :
    (path.record step).output = path.output ++ step.emitted.toList := by
  unfold output
  rw [toList_steps_record, List.filterMap_append]
  cases h : step.emitted <;> simp [h]

end Path

end AmountWalk
