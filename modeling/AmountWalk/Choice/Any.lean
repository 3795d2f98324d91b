import AmountWalk.Choice.Cycle
import AmountWalk.Choice.Script
import AmountWalk.Choice.Seeded

/-!
# Sources picked at run time

A value of `AnySource` is a source of one of the kinds of this library.
-/

namespace AmountWalk

/-- A source of any kind. -/
inductive AnySource where
  /-- Choices fixed in advance. -/
  | script (script : Script)
  /-- Lists that are repeated for ever. -/
  | cycle (cycle : Cycle)
  /-- Pseudo-random choices. -/
  | seeded (seeded : Seeded)

namespace AnySource

/-- The script that is left, for a scripted source. -/
def script? : AnySource → Option Script
  | script s => some s
  | _ => none

instance : ChoiceSource AnySource where
  coin
    | script s => (ChoiceSource.coin s).map id script
    | cycle s => (ChoiceSource.coin s).map id cycle
    | seeded s => (ChoiceSource.coin s).map id seeded
  digit cls
    | script s => (ChoiceSource.digit cls s).map id script
    | cycle s => (ChoiceSource.digit cls s).map id cycle
    | seeded s => (ChoiceSource.digit cls s).map id seeded

end AnySource

end AmountWalk
