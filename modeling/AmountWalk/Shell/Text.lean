import AmountWalk.Text.Utf8

/-!
# Text in a shell

A shell knows bytes and no characters. Its texts are lists of bytes, each written as the character
with the code of the byte, so that bytes can be compared with the ASCII characters of its grammar.
-/

namespace AmountWalk.Shell

/-- Bytes, each written as the character with its code. -/
abbrev Text := List Char

namespace Text

def ofBytes (bytes : Utf8.Bytes) : Text := bytes.map fun byte => Char.ofNat byte.toNat

def toBytes (text : Text) : Utf8.Bytes := text.map fun ch => UInt8.ofNat ch.toNat

def ofChars (chars : List Char) : Text := ofBytes (Utf8.encode chars)

/-- The text of a string, encoded. -/
def ofString (s : String) : Text := ofChars s.toList

end Text

/-! ## Characters -/

def isDigit (ch : Char) : Bool := '0' ≤ ch && ch ≤ '9'

/-- Whether a character may start the name of a variable. -/
def startsName (ch : Char) : Bool :=
  ('a' ≤ ch && ch ≤ 'z') || ('A' ≤ ch && ch ≤ 'Z') || ch == '_'

/-- Whether a character may stand inside the name of a variable. -/
def continuesName (ch : Char) : Bool := startsName ch || isDigit ch

/-- Whether a text is the name of a variable. -/
def isName : Text → Bool
  | [] => false
  | ch :: rest => startsName ch && rest.all continuesName

/-- Whether a character separates words in a line. -/
def isBlank (ch : Char) : Bool := ch == ' ' || ch == '\t'

/-- Whether a character separates fields by default. -/
def isFieldBlank (ch : Char) : Bool := isBlank ch || ch == '\n'

/-- Whether a character is blank in front of a number. -/
def isNumberBlank (ch : Char) : Bool := isFieldBlank ch || ('\x0b' ≤ ch && ch ≤ '\x0d')

/-! ## Numbers -/

/-- The value of a digit of any base up to 36. -/
def digitValue (ch : Char) : Nat :=
  if isDigit ch then ch.toNat - '0'.toNat
  else if 'a' ≤ ch ∧ ch ≤ 'z' then ch.toNat - 'a'.toNat + 10
  else if 'A' ≤ ch ∧ ch ≤ 'Z' then ch.toNat - 'A'.toNat + 10
  else 36

/-- The number that digits of a base write. -/
def numberOf (base : Nat) (digits : Text) : Nat :=
  digits.foldl (fun n ch => n * base + digitValue ch) 0

/-- The decimal digits of a number. -/
def digitsOf (n : Nat) : Text := (toString n).toList

/-- The number that a text of digits only writes. -/
def number? (text : Text) : Option Nat :=
  if text ≠ [] ∧ text.all isDigit then some (numberOf 10 text) else none

/-- The greatest number that an argument may write. -/
def maxCount : Nat := 2147483647

/-- The number that an argument writes, perhaps with a sign and between blanks. -/
def count? (text : Text) : Option Nat :=
  let (negative, rest) :=
    match text.dropWhile isNumberBlank with
    | '-' :: rest => (true, rest)
    | '+' :: rest => (false, rest)
    | rest => (false, rest)
  let n := numberOf 10 (rest.takeWhile isDigit)
  let isWhole : Bool := rest.head?.any isDigit && (rest.dropWhile isDigit).all isNumberBlank
  if isWhole ∧ n ≤ maxCount ∧ (!negative ∨ n = 0) then some n else none

/-- The digits of a base at the beginning of a text, and the rest. -/
def spanDigits (base : Nat) (text : Text) : Text × Text :=
  (text.takeWhile (digitValue · < base), text.dropWhile (digitValue · < base))

/-- The number at the beginning of a text: hexadecimal after `0x`, octal after `0`, decimal
otherwise. Also what follows it. -/
def leadingNat? (text : Text) : Option (Nat × Text) :=
  let read (base : Nat) (text : Text) : Option (Nat × Text) :=
    match spanDigits base text with
    | ([], _) => none
    | (digits, rest) => some (numberOf base digits, rest)
  match text with
  | '0' :: x :: digits =>
    if x = 'x' ∨ x = 'X' then (read 16 digits).or (some (0, x :: digits))
    else read 8 text
  | _ => if text.head? = some '0' then read 8 text else read 10 text

/-- The least and the greatest number. -/
def clampInt (n : Int) : Int := max (-Int.pow 2 63) (min (Int.pow 2 63 - 1) n)

/-- The signed number at the beginning of a text, after blanks, and what follows it. -/
def leadingInt? (text : Text) : Option (Int × Text) :=
  match text.dropWhile isNumberBlank with
  | '-' :: rest => (leadingNat? rest).map fun (n, rest) => (-(n : Int), rest)
  | '+' :: rest => (leadingNat? rest).map fun (n, rest) => (n, rest)
  | rest => (leadingNat? rest).map fun (n, rest) => (n, rest)

/-- The digits of a signed number. -/
def digitsOfInt (n : Int) : Text := (toString n).toList

end AmountWalk.Shell
