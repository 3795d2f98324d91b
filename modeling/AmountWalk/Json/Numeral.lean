import AmountWalk.Json.Text

/-!
# Numbers in JSON texts

A number is read as a `Numeral`: a sign, digits, a fraction, an exponent. A count is a numeral that
has digits only and is below 2 ^ 64; every other numeral is a number of another form.

## Range

A numeral that is not a count is taken for a double-precision number, and one beyond the range of
those numbers is malformed. What counts as beyond follows from how the value is found: as many
leading digits as fit into 64 bits make a significand, the other digits only shift the exponent, and
the rounded significand is multiplied by the rounded power of ten. `exceedsRange` decides in whole
numbers whether that product is beyond the greatest finite number.
-/

namespace AmountWalk.Json

def isDigit (ch : Char) : Bool := '0' ≤ ch && ch ≤ '9'

/-- The value of a digit. -/
def digitOf (ch : Char) : Nat := ch.toNat - '0'.toNat

/-- The number that some digits write. -/
def natOfDigits (digits : List Char) : Nat :=
  digits.foldl (fun n ch => n * 10 + digitOf ch) 0

/-- The pieces of a number. -/
structure Numeral where
  /-- Whether a minus sign comes first. -/
  negative : Bool
  /-- The digits before the point. -/
  whole : List Char
  /-- The digits after the point; none when there is no point. -/
  fraction : List Char
  exponent : Option Int

namespace Numeral

/-! ## Reading -/

/-- Some digits and the text after them; there must be a digit. -/
def readDigits : Reader (List Char)
  | [] => .error .cutShort
  | ch :: rest =>
    if isDigit ch then .ok (ch :: rest.takeWhile isDigit, rest.dropWhile isDigit)
    else .error .malformed

/-- The digits before the point. A leading zero stands alone. -/
def readWhole (text : List Char) : Except Flaw (List Char × List Char) :=
  match readDigits text with
  | .ok ('0' :: _ :: _, _) => .error .malformed
  | other => other

/-- The fraction, when the text goes on with a point. -/
def readFraction : Reader (List Char)
  | '.' :: rest => readDigits rest
  | text => .ok ([], text)

/-- The digits of an exponent after its sign. -/
def readPower (negative : Bool) (text : List Char) : Except Flaw (Option Int × List Char) :=
  match readDigits text with
  | .error flaw => .error flaw
  | .ok (digits, rest) =>
    let power := Int.ofNat (natOfDigits digits)
    .ok (some (if negative then -power else power), rest)

/-- The exponent, when the text goes on with one. -/
def readExponent : Reader (Option Int)
  | [] => .ok (none, [])
  | mark :: rest =>
    if mark = 'e' ∨ mark = 'E' then
      match rest with
      | '+' :: rest => readPower false rest
      | '-' :: rest => readPower true rest
      | rest => readPower false rest
    else .ok (none, mark :: rest)

/-- A number whose sign has been read. -/
def read (negative : Bool) (text : List Char) : Except Flaw (Numeral × List Char) :=
  match readWhole text with
  | .error flaw => .error flaw
  | .ok (whole, text) =>
    match readFraction text with
    | .error flaw => .error flaw
    | .ok (fraction, text) =>
      match readExponent text with
      | .error flaw => .error flaw
      | .ok (exponent, text) => .ok (⟨negative, whole, fraction, exponent⟩, text)

/-! ## Value -/

/-- The least number that is no 64-bit count. -/
def countBound : Nat := Nat.pow 2 64

/-- The count that a numeral writes, if it is one. -/
def count? (numeral : Numeral) : Option UInt64 :=
  if numeral.negative || !numeral.fraction.isEmpty || numeral.exponent.isSome then none
  else
    let n := natOfDigits numeral.whole
    if n < countBound then some (UInt64.ofNat n) else none

/-- Take digits into a significand while it stays below 2 ^ 64: the significand, and the number of
digits that were left out. -/
def absorb (significand : Nat) : List Char → Nat × Nat
  | [] => (significand, 0)
  | ch :: rest =>
    let next := significand * 10 + digitOf ch
    if next < countBound then absorb next rest else (significand, rest.length + 1)

/-- The nearest number with 53 significant bits, ties to the even neighbour. -/
def roundToDouble (n : Nat) : Nat :=
  let unit := Nat.pow 2 (n.log2 - 52)
  let quotient := n / unit
  let remainder := n % unit
  if 2 * remainder < unit ∨ 2 * remainder = unit ∧ quotient % 2 = 0 then quotient * unit
  else (quotient + 1) * unit

/-- The least number that is rounded to infinity in double precision. -/
def infinityBound : Nat := Nat.pow 2 1024 - Nat.pow 2 970

/-- Whether a numeral is beyond the range of double-precision numbers. -/
def exceedsRange (numeral : Numeral) : Bool :=
  let (significand, skipped) := absorb 0 numeral.whole
  let (significand, left) := absorb significand numeral.fraction
  let power : Int :=
    numeral.exponent.getD 0 + skipped - (numeral.fraction.length - left : Nat)
  if significand = 0 ∨ power < 0 then false
  else if 308 < power then true
  else infinityBound ≤ roundToDouble significand * roundToDouble (Nat.pow 10 power.toNat)

end Numeral

/-- Read a number whose sign has been read, and refuse one out of range. -/
def readNumeral (negative : Bool) (text : List Char) : Except Flaw (Numeral × List Char) :=
  match Numeral.read negative text with
  | .error flaw => .error flaw
  | .ok (numeral, rest) =>
    if numeral.exceedsRange then .error .malformed
    else .ok (numeral, rest)

/-! ## Writing -/

/-- The decimal digits of a number. -/
def writeNat (n : Nat) : List Char :=
  if n < 10 then [Char.ofNat ('0'.toNat + n)]
  else writeNat (n / 10) ++ [Char.ofNat ('0'.toNat + n % 10)]
termination_by n
decreasing_by omega

end AmountWalk.Json
