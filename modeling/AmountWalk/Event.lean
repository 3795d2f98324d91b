/-!
# Events

What the walker, the sampler and the renderer report while they work. Each event has a level, a
message and fields of its own.
-/

namespace AmountWalk

/-- How much an event matters. -/
inductive Level where
  /-- Of interest while searching for a fault. -/
  | debug
  /-- Of interest in normal operation. -/
  | info
  /-- Something went wrong, and the work went on. -/
  | warn
  deriving DecidableEq

/-- The level as it is written. -/
def Level.text : Level → String
  | debug => "DEBUG"
  | info => "INFO"
  | warn => "WARN"

/-- A report of something that happened. -/
inductive Event where
  /-- A walk halted after so many steps, in the state with this label, with this text. -/
  | walkFinished (steps : Nat) (finalLabel : String) (output : List Char)
  /-- A walk was given up in the state with this label because it would exceed its steps. -/
  | walkAbandoned (maxSteps : Nat) (label : String)
  /-- A text was dropped because it is not well formed. -/
  | rejectedSample (candidate : List Char)
  /-- All texts asked for were collected. -/
  | samplingComplete (attempts abandoned collected : Nat)
  /-- A diagram was drawn into this file. -/
  | renderedDiagram (image : String)
  /-- The program that shows diagrams could not be started. -/
  | viewerFailed (viewer error : String)
  deriving DecidableEq

namespace Event

def level : Event → Level
  | walkFinished .. | walkAbandoned .. | rejectedSample .. => .debug
  | samplingComplete .. | renderedDiagram .. => .info
  | viewerFailed .. => .warn

/-- The event in words, without its fields. -/
def message : Event → String
  | walkFinished .. => "walk finished"
  | walkAbandoned .. => "walk abandoned"
  | rejectedSample .. => "rejected sample"
  | samplingComplete .. => "sampling complete"
  | renderedDiagram .. => "rendered diagram"
  | viewerFailed .. => "could not open diagram viewer"

end Event

end AmountWalk
