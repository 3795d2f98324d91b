import AmountWalk.Walk
import AmountWalk.WellFormed

/-!
# Sampling

Walk again and again and keep the well-formed texts, in the order found, until as many are collected
as were asked for. Every walk is an attempt: one that is abandoned and one whose text is dropped use
up an attempt like any other. When the attempts are used up the sampling is exhausted.

Room for all texts is reserved at the beginning. A number of texts for which the address space has no
room is refused before anything else.
-/

namespace AmountWalk

/-- How many texts to collect and how hard to try. -/
structure SampleConfig where
  /-- The number of texts to return. -/
  count : UInt64
  /-- The number of walks before giving up. -/
  maxAttempts : UInt64
  /-- The number of steps after which one walk is abandoned. -/
  maxSteps : UInt64
  deriving DecidableEq

namespace SampleConfig

/-- Five texts, ten thousand walks, a thousand steps. -/
def default : SampleConfig := ⟨5, 10000, 1000⟩

/-- The room that one text takes in the reserved space, in bytes. -/
def textSlot : Nat := 24

/-- The greatest space that can be reserved, in bytes. -/
def maxReserved : Nat := Nat.pow 2 63 - 1

/-- Whether room for all texts can be reserved. -/
def fits (config : SampleConfig) : Bool :=
  config.count.toNat * textSlot ≤ maxReserved

end SampleConfig

/-- What is known when a sampling has used up its attempts. -/
structure Exhausted where
  /-- The walks made. -/
  attempts : Nat
  /-- Those of them that were abandoned. -/
  abandoned : Nat
  /-- The texts collected. -/
  collected : Nat
  /-- The texts asked for. -/
  wanted : Nat
  deriving DecidableEq

/-- The exhaustion in words. -/
def Exhausted.message (e : Exhausted) : String :=
  "Gave up after " ++ toString e.attempts ++ " attempts (" ++ toString e.abandoned
    ++ " abandoned) with " ++ toString e.collected ++ " of " ++ toString e.wanted
    ++ " strings collected"

/-- Why a sampling returns no texts. -/
inductive SampleError (σ : Type) where
  /-- The attempts are used up. -/
  | exhausted (e : Exhausted)
  /-- There is no room for so many texts. -/
  | capacityOverflow
  /-- A walk broke the rules. -/
  | fault (fault : Fault σ)
  deriving DecidableEq

/-- The error in words. -/
def SampleError.message {σ : Type} [StateSet σ] : SampleError σ → String
  | exhausted e => e.message
  | capacityOverflow => "capacity overflow"
  | fault f => f.message

/-- What a sampling has so far. -/
structure Tally where
  /-- The texts collected. -/
  texts : Array (List Char)
  /-- The walks made. -/
  attempts : Nat
  /-- Those of them that were abandoned. -/
  abandoned : Nat
  /-- What was reported. -/
  log : Array Event

namespace Tally

/-- Nothing so far. -/
def empty : Tally := ⟨#[], 0, 0, #[]⟩

/-- The tally after one more walk was abandoned or halted with a text. -/
def count {σ : Type} (tally : Tally) : Ending σ → Tally
  | .abandoned _ =>
    { tally with attempts := tally.attempts + 1, abandoned := tally.abandoned + 1 }
  | .finished path =>
    if isWellFormed path.output then
      { tally with attempts := tally.attempts + 1, texts := tally.texts.push path.output }
    else
      { tally with
        attempts := tally.attempts + 1, log := tally.log.push (.rejectedSample path.output) }
  | .fault _ => { tally with attempts := tally.attempts + 1 }

def report (tally : Tally) (events : List Event) : Tally :=
  { tally with log := tally.log ++ events.toArray }

end Tally

namespace Table

variable {σ γ : Type} [DecidableEq σ] [StateSet σ] [ChoiceSource γ]

/-- Go on with a tally and so many attempts at most. -/
def collectFrom (table : Table σ) (policy : Policy σ) (config : SampleConfig) :
    Nat → Tally → γ → Run γ (Except (SampleError σ) (List (List Char)))
  | attempts, tally, source =>
    if config.count.toNat ≤ tally.texts.size then
      let done := Event.samplingComplete tally.attempts tally.abandoned tally.texts.size
      ⟨.ok tally.texts.toList, source, (tally.log.push done).toList⟩
    else
      match attempts with
      | 0 =>
        let e : Exhausted :=
          ⟨tally.attempts, tally.abandoned, tally.texts.size, config.count.toNat⟩
        ⟨.error (.exhausted e), source, tally.log.toList⟩
      | attempts + 1 =>
        let run := table.walkBounded policy config.maxSteps.toNat source
        let tally := (tally.report run.log).count run.outcome
        match run.outcome with
        | .fault fault => ⟨.error (.fault fault), run.source, tally.log.toList⟩
        | _ => collectFrom table policy config attempts tally run.source

/-- Collect as many well-formed texts as the configuration asks for. -/
def collect (table : Table σ) (policy : Policy σ) (config : SampleConfig) (source : γ) :
    Run γ (Except (SampleError σ) (List (List Char))) :=
  if config.fits then
    table.collectFrom policy config config.maxAttempts.toNat .empty source
  else ⟨.error .capacityOverflow, source, []⟩

end Table

end AmountWalk
