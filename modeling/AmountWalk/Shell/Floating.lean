import AmountWalk.Shell.Text

/-!
# Floating numbers

Decimal texts of numbers that have 53 binary digits. A text is rounded to the nearest such number, the
even one of two, and the number is written with a fixed count of digits, rounded in the same way. All
of it is done in exact arithmetic on fractions.
-/

namespace AmountWalk.Shell

/-- A fraction that is not negative. -/
structure Fraction where
  num : Nat
  /-- The denominator, not zero. -/
  den : Nat

namespace Fraction

/-- The nearest whole number, the even one of two. -/
def round (f : Fraction) : Nat :=
  let low := f.num / f.den
  let rest := 2 * (f.num % f.den)
  if rest < f.den ∨ (rest = f.den ∧ low % 2 = 0) then low else low + 1

/-- The fraction times a power. -/
def scale (f : Fraction) (base : Nat) (exponent : Int) : Fraction :=
  if 0 ≤ exponent then ⟨f.num * base.pow exponent.toNat, f.den⟩
  else ⟨f.num, f.den * base.pow (-exponent).toNat⟩

/-- The greatest power of a base that is not greater than a fraction, given a guess at most one too
high. -/
def floorLog (base : Nat) (guess : Int) (f : Fraction) : Int :=
  let scaled := f.scale base (-guess)
  if scaled.num < scaled.den then guess - 1 else guess

/-- Whether two fractions are the same number. -/
def equals (f g : Fraction) : Bool := f.num * g.den == g.num * f.den

/-- The exponent of the last of 53 binary digits, of which the first is not zero. -/
def lastExponent (f : Fraction) : Int :=
  floorLog 2 (Nat.log2 f.num - Nat.log2 f.den : Int) f - 52

/-- The nearest multiple of a power of two. -/
def roundAt (f : Fraction) (exponent : Int) : Fraction :=
  Fraction.scale ⟨(f.scale 2 (-exponent)).round, 1⟩ 2 exponent

/-- The nearest number with 53 binary digits and an exponent that is not too low. -/
def toBinary (f : Fraction) : Fraction :=
  if f.num = 0 then ⟨0, 1⟩ else f.roundAt (max f.lastExponent (-1074))

/-- Whether a number is greater than all that can be held. -/
def isTooLarge (f : Fraction) : Bool := f.den * Nat.pow 2 1024 ≤ f.num

/-- Whether a number is so small, if it is rounded to 53 binary digits, that fewer than 53 can be held. -/
def isTiny (f : Fraction) : Bool :=
  let near := f.roundAt f.lastExponent
  f.num != 0 && near.num * Nat.pow 2 1022 < near.den

/-- Whether a number can be held with the usual precision, or exactly. -/
def isInRange (f : Fraction) : Bool :=
  !f.toBinary.isTooLarge && (!f.isTiny || f.toBinary.equals f)

/-- The greatest power of ten that is not greater than a fraction. -/
def floorLogTen (f : Fraction) : Int :=
  if f.num = 0 then 0
  else floorLog 10 ((digitsOf f.num).length - (digitsOf f.den).length : Int) f

/-- Digits with a point in front of the last ones. -/
def withPoint (places : Nat) (pointAlways : Bool) (n : Nat) : Text :=
  let digits := digitsOf n
  let digits := List.replicate (places + 1 - digits.length) '0' ++ digits
  let whole := digits.take (digits.length - places)
  if places = 0 then (if pointAlways then whole ++ ['.'] else whole)
  else whole ++ '.' :: digits.drop (digits.length - places)

/-- A number with so many digits behind the point. -/
def fixed (f : Fraction) (places : Nat) (pointAlways : Bool) : Text :=
  withPoint places pointAlways (f.scale 10 places).round

/-- The exponent of a number that is written with one digit in front of the point and so many behind
it, and its digits. -/
def scientificParts (f : Fraction) (places : Nat) : Int × Nat :=
  let exponent := f.floorLogTen
  let digits := (f.scale 10 (places - exponent)).round
  if digits = Nat.pow 10 (places + 1) then (exponent + 1, Nat.pow 10 places) else (exponent, digits)

/-- An exponent of ten, with two digits at least. -/
def exponentText (e : Char) (exponent : Int) : Text :=
  let digits := digitsOf exponent.natAbs
  e :: (if exponent < 0 then '-' else '+') :: List.replicate (2 - digits.length) '0' ++ digits

/-- A number with an exponent and so many digits behind the point. -/
def scientific (f : Fraction) (e : Char) (places : Nat) (pointAlways : Bool) : Text :=
  let (exponent, digits) := f.scientificParts places
  withPoint places pointAlways digits ++ exponentText e exponent

/-- Digits without the zeros behind the point, nor a point that nothing follows. -/
def dropZeros (text : Text) : Text :=
  if text.contains '.' then
    let kept := (text.reverse.dropWhile (· = '0')).reverse
    if kept.getLast? = some '.' then kept.dropLast else kept
  else text

/-- A number with so many digits, with an exponent only if that is very low or too high. Zeros that come from
rounding a number up to the least one that needs an exponent are never kept. -/
def general (f : Fraction) (e : Char) (count : Nat) (keepZeros : Bool) : Text :=
  let count := max count 1
  let (exponent, digits) := f.scientificParts (count - 1)
  let clean (text : Text) : Text := if keepZeros then text else dropZeros text
  if -4 ≤ exponent ∧ exponent < count then
    clean (f.fixed (count - 1 - exponent).toNat keepZeros)
  else
    let places := if f.floorLogTen < count ∧ exponent = count then 0 else count - 1
    clean (withPoint places keepZeros (digits / Nat.pow 10 (count - 1 - places)))
      ++ exponentText e exponent

/-- A number in hexadecimal digits with an exponent of two, as many digits behind the point as given or
as are needed. -/
def hexadecimal (f : Fraction) (places : Option Nat) (pointAlways : Bool) : Text :=
  let exponent : Int :=
    if f.num = 0 then 0
    else max (floorLog 2 (Nat.log2 f.num - Nat.log2 f.den : Int) f) (-1022)
  let count := places.getD 13
  let n := ((f.scale 2 (-exponent)).scale 16 count).round
  let fraction := Nat.toDigits 16 (Nat.pow 16 count + n % Nat.pow 16 count) |>.drop 1
  let fraction :=
    if count = 0 then []
    else if places.isSome then fraction
    else (fraction.reverse.dropWhile (· = '0')).reverse
  let point := if fraction.isEmpty ∧ !pointAlways then [] else ['.']
  digitsOf (n / Nat.pow 16 count) ++ point ++ fraction ++ 'p' :: (if exponent < 0 then '-' else '+')
    :: digitsOf exponent.natAbs

/-- An exponent that is so great that a number with so many digits in front of it is greater than all that
can be held, and its opposite is so small that the number is nothing. -/
def exponentBound (digitCount : Nat) : Nat := 5000 + 4 * digitCount

/-- The exponent behind a letter at the beginning of a text, zero if there is none, and the rest. One that is
out of its bounds is cut down to them. -/
def leadingExponent (letter : Char) (bound : Nat) (text : Text) : Int × Text :=
  match text with
  | [] => (0, [])
  | e :: after =>
    if e.toLower ≠ letter then (0, text)
    else
      let (negative, digits) :=
        match after with
        | '-' :: digits => (true, digits)
        | '+' :: digits => (false, digits)
        | _ => (false, after)
      match spanDigits 10 digits with
      | ([], _) => (0, text)
      | (digits, after) =>
        let n : Int := min (numberOf 10 digits) bound
        (if negative then -n else n, after)

/-- The number at the beginning of a text that has no sign, and what follows it. Its digits have a base
and the letter of its exponent stands for powers of another one. -/
def leadingOf? (base : Nat) (letter : Char) (power : Nat) (text : Text) : Option (Fraction × Text) :=
  let (whole, rest) := spanDigits base text
  let (places, rest) :=
    match rest with
    | '.' :: after => spanDigits base after
    | _ => ([], rest)
  if whole = [] ∧ places = [] then none
  else
    let bound := exponentBound (whole.length + places.length)
    let (exponent, rest) := leadingExponent letter bound rest
    let mantissa : Fraction := ⟨numberOf base (whole ++ places), base.pow places.length⟩
    some (mantissa.scale power exponent, rest)

/-- The number at the beginning of a text that has no sign, and what follows it. It is hexadecimal
after `0x`. -/
def leading? (text : Text) : Option (Fraction × Text) :=
  match text with
  | '0' :: x :: rest =>
    match (if x = 'x' ∨ x = 'X' then leadingOf? 16 'p' 2 rest else none) with
    | some found => some found
    | none => leadingOf? 10 'e' 10 text
  | _ => leadingOf? 10 'e' 10 text

end Fraction

/-- The amount of a floating number. -/
inductive Amount where
  /-- A number. -/
  | finite (f : Fraction)
  /-- More than any number. -/
  | infinite
  /-- No number. -/
  | undefined

namespace Amount

/-- The text behind a word at the beginning of a text, in letters of either case. -/
def behind? (word : String) (text : Text) : Option Text :=
  if (text.take word.length).map Char.toLower = word.toList then some (text.drop word.length)
  else none

/-- The amount at the beginning of a text that has no sign, and what follows it. -/
def leading? (text : Text) : Option (Amount × Text) :=
  match behind? "infinity" text, behind? "inf" text, behind? "nan" text with
  | some rest, _, _ | none, some rest, _ => some (infinite, rest)
  | none, none, some rest =>
    match rest with
    | '(' :: inner =>
      let behind := inner.dropWhile continuesName
      some (undefined, if behind.head? = some ')' then behind.drop 1 else rest)
    | _ => some (undefined, rest)
  | none, none, none => (Fraction.leading? text).map fun (f, rest) => (finite f, rest)

/-- The nearest amount that can be held. -/
def toBinary : Amount → Amount
  | finite f =>
    let near := f.toBinary
    if near.isTooLarge then infinite else finite near
  | amount => amount

/-- Whether an amount can be held, at least about. -/
def isInRange : Amount → Bool
  | finite f => f.isInRange
  | _ => true

end Amount

end AmountWalk.Shell
