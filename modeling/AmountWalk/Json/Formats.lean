import AmountWalk.Json.Layout
import AmountWalk.Path
import AmountWalk.Render.Config
import AmountWalk.Sample

/-!
# Exported forms

The JSON forms of labels, tables, paths and configurations. A state is written as its identifier.
-/

namespace AmountWalk.Json

/-- A class of digits, by name. -/
def digitClass : Codec DigitClass :=
  .variant [.nonZero, .any] (fun | .nonZero => "NonZero" | .any => "Any")

/-- A label under the tag of its kind. -/
def label : Codec Label :=
  .via (.tagged "Literal" .letter "Class" digitClass (by decide))
    (fun | .inl ch => .literal ch | .inr cls => .digits cls)
    (fun | .literal ch => .inl ch | .digits cls => .inr cls)
    (fun label => by cases label <;> rfl)

section States

variable (σ : Type) [StateSet σ]

/-- A state, by its identifier. It is read as the first state that has it. -/
def state : Codec σ :=
  .variant StateSet.all StateSet.ident

def transition : Codec (Transition σ) :=
  .via
    (.record (.cons "from" (state σ) none (.cons "to" (state σ) none
      (.cons "label" label none .nil))))
    (fun (src, dst, label, _) => ⟨src, dst, label⟩)
    (fun t => (t.src, t.dst, t.label, ()))
    (fun _ => rfl)

def table : Codec (Table σ) :=
  .via
    (.record (.cons "start" (state σ) none
      (.cons "transitions" (.list (transition σ)) none .nil)))
    (fun (start, transitions, _) => ⟨start, transitions⟩)
    (fun t => (t.start, t.transitions, ()))
    (fun _ => rfl)

/-- A step. An object may leave out the character of a silent step. -/
def step : Codec (Step σ) :=
  .via
    (.record (.cons "from" (state σ) none (.cons "to" (state σ) none
      (.cons "emitted" .letterOrNull (some none) .nil))))
    (fun (src, dst, emitted, _) => ⟨src, dst, emitted⟩)
    (fun s => (s.src, s.dst, s.emitted, ()))
    (fun _ => rfl)

def path : Codec (Path σ) :=
  .via
    (.record (.cons "steps" (.list (step σ)) none .nil))
    (fun (steps, _) => ⟨steps.toArray⟩)
    (fun p => (p.steps.toList, ()))
    (fun _ => rfl)

end States

/-- How many texts to collect and how hard to try. -/
def sampleConfig : Codec SampleConfig :=
  .via
    (.record (.cons "count" .count none (.cons "max_attempts" .count none
      (.cons "max_steps" .count none .nil))))
    (fun (count, maxAttempts, maxSteps, _) => ⟨count, maxAttempts, maxSteps⟩)
    (fun c => (c.count, c.maxAttempts, c.maxSteps, ()))
    (fun _ => rfl)

/-- Where and how a diagram is drawn. -/
def renderConfig : Codec RenderConfig :=
  .via
    (.record (.cons "output_stem" .text none (.cons "format" .text none
      (.cons "view" .flag none (.cons "program" .text none .nil)))))
    (fun (outputStem, format, view, program, _) => ⟨outputStem, format, view, program⟩)
    (fun c => (c.outputStem, c.format, c.view, c.program, ()))
    (fun _ => rfl)

end AmountWalk.Json
