import AmountWalk.Choice
import AmountWalk.Choice.KeyStream

/-!
# Seeded choices

Pseudo-random choices that a 64-bit seed determines. A linear congruential generator stretches the
seed into a key; the key stream answers the questions.

* A coin takes two words; it is heads when their 64-bit number is in the lower half.
* A digit of a class of `r` digits takes a word and scales it to the range below `r` by a
  multiplication. The few words that would make some digits more likely than others are rejected.
-/

namespace AmountWalk

/-- Choices drawn from a key stream. -/
structure Seeded where
  /-- The words that answer. -/
  stream : KeyStream

namespace Seeded

/-- The generator that stretches a seed, one step. -/
def stretch (state : UInt64) : UInt64 :=
  state * 6364136223846793005 + 11634580027462260723

/-- The word that a state of the generator gives: its upper bits folded, then rotated to the right
by its five top bits. -/
def stretchWord (state : UInt64) : UInt32 :=
  let folded := (((state >>> 18) ^^^ state) >>> 27).toUInt32
  let turn : UInt32 := (state >>> 59).toUInt32
  CipherState.rotate folded ((32 : UInt32) - turn)

/-- The first states of the generator after the seed. -/
def stretchStates (seed : UInt64) : Nat → List UInt64
  | 0 => []
  | n + 1 =>
    let next := stretch seed
    next :: stretchStates next n

theorem length_stretchStates (seed : UInt64) (n : Nat) :
    (stretchStates seed n).length = n := by
  induction n generalizing seed with
  | zero => rfl
  | succ n ih => simp [stretchStates, ih]

/-- The key that a seed gives. -/
def keyOfSeed (seed : UInt64) : Vector UInt32 8 :=
  ⟨((stretchStates seed 8).map stretchWord).toArray, by simp [length_stretchStates]⟩

/-- The choices that a seed determines. -/
def ofSeed (seed : UInt64) : Seeded := ⟨KeyStream.ofKey (keyOfSeed seed)⟩

/-- Heads in one half of all pairs of words. -/
def flip (source : Seeded) : Bool × Seeded :=
  let (number, stream) := source.stream.nextPair
  (number < 0x8000000000000000, ⟨stream⟩)

/-- The number of words that are tried for one digit. Fewer than one word in 400 million is
rejected, so no digit comes near it. -/
def maxTries : Nat := 1000

/-- Scale words to the range below `width` until one is not rejected; the least of the range when
all tries are used up. -/
def scaled (width : UInt64) : Nat → KeyStream → UInt64 × KeyStream
  | 0, stream => (0, stream)
  | tries + 1, stream =>
    let (word, stream) := stream.nextWord
    let product := word.toUInt64 * width
    let zone := 0xFFFFFFFF - 0x100000000 % width
    if product &&& 0xFFFFFFFF ≤ zone then (product >>> 32, stream)
    else scaled width tries stream

/-- A digit of the class, each equally likely. -/
def roll (cls : DigitClass) (source : Seeded) : UInt8 × Seeded :=
  let width := (cls.highest - cls.lowest).toUInt64 + 1
  let (offset, stream) := scaled width maxTries source.stream
  (cls.lowest + offset.toUInt8, ⟨stream⟩)

instance : ChoiceSource Seeded where
  coin := flip
  digit := roll

end Seeded

end AmountWalk
