import AmountWalk.Choice

/-!
# Cycling choices

A cycle repeats a list of coin flips and a list of digits for ever. It hands out its digits as they
are, whatever the class, and is therefore a source that need not keep to the class. An empty list of
flips answers tails, an empty list of digits answers zero.
-/

namespace AmountWalk

/-- Two lists that are repeated for ever, each from a place of its own. -/
structure Cycle where
  /-- The coin flips of one round. -/
  coins : Array Bool
  /-- The digits of one round. -/
  digits : Array UInt8
  /-- How many coins have been flipped. -/
  flipped : Nat
  /-- How many digits have been drawn. -/
  drawn : Nat

namespace Cycle

/-- The cycle at its beginning. -/
def ofLists (coins : List Bool) (digits : List UInt8) : Cycle :=
  ⟨coins.toArray, digits.toArray, 0, 0⟩

/-- The coin whose turn it is. -/
def nextCoin (cycle : Cycle) : Bool × Cycle :=
  (cycle.coins.getD (cycle.flipped % cycle.coins.size) false,
    { cycle with flipped := cycle.flipped + 1 })

/-- The digit whose turn it is. -/
def nextDigit (cycle : Cycle) : UInt8 × Cycle :=
  (cycle.digits.getD (cycle.drawn % cycle.digits.size) 0,
    { cycle with drawn := cycle.drawn + 1 })

instance : ChoiceSource Cycle where
  coin := nextCoin
  digit _ := nextDigit

end Cycle

end AmountWalk
