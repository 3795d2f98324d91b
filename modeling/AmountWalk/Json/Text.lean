/-!
# Pieces of JSON texts

Blanks, fixed words and quoted strings, read from the front of a text, and quoted strings written.

## Flaws

A text that cannot be read has a `Flaw`. Reading goes from left to right and the first flaw met is
the one reported, so the kinds are told apart by what was known at that point.

## Strings

`readString` reads what follows an opening quote. An escape `\u` gives a 16-bit unit; a unit of the
first half of a pair must be followed at once by an escape that gives the second half, and a second
half may not stand alone.
-/

namespace AmountWalk.Json

/-- Why a text is not read. -/
inductive Flaw where
  /-- No text that goes on in this way is JSON. -/
  | malformed
  /-- The text is JSON so far, but not of the form asked for. -/
  | mismatched
  /-- The text ends too early. -/
  | cutShort
  deriving DecidableEq

/-- The usual name of the kind of flaw. -/
def Flaw.category : Flaw → String
  | malformed => "syntax"
  | mismatched => "data"
  | cutShort => "eof"

/-- A reader takes a value from the front of a text and leaves the rest. -/
abbrev Reader (α : Type) := List Char → Except Flaw (α × List Char)

/-! ## Blanks and words -/

/-- Whether a character may stand between the pieces of a text. -/
def isBlank (ch : Char) : Bool :=
  ch == ' ' || ch == '\n' || ch == '\t' || ch == '\r'

/-- The text after its leading blanks. -/
def skipBlanks (text : List Char) : List Char :=
  text.dropWhile isBlank

/-- The text after a fixed word. -/
def readWord : List Char → List Char → Except Flaw (List Char)
  | [], text => .ok text
  | _ :: _, [] => .error .cutShort
  | letter :: word, ch :: text =>
    if ch == letter then readWord word text else .error .malformed

theorem readWord_append (word text : List Char) : readWord word (word ++ text) = .ok text := by
  induction word with
  | nil => rfl
  | cons letter word ih => simp [readWord, ih]

/-! ## Escapes -/

/-- The value of a hexadecimal digit. -/
def hexValue? (ch : Char) : Option Nat :=
  if '0' ≤ ch ∧ ch ≤ '9' then some (ch.toNat - '0'.toNat)
  else if 'a' ≤ ch ∧ ch ≤ 'f' then some (ch.toNat - 'a'.toNat + 10)
  else if 'A' ≤ ch ∧ ch ≤ 'F' then some (ch.toNat - 'A'.toNat + 10)
  else none

/-- The flaw of an escape that has so many hexadecimal digits and goes on with something else: the
text ends too early when there are not even four bytes for the digits. -/
def hexFlaw (digits : Nat) (text : List Char) : Flaw :=
  let size := (text.take 4).foldr (fun ch size => ch.utf8Size + size) 0
  if digits + size < 4 then .cutShort else .malformed

/-- The character that a one-letter escape stands for. -/
def escaped? (letter : Char) : Option Char :=
  match letter with
  | '"' => some '"'
  | '\\' => some '\\'
  | '/' => some '/'
  | 'b' => some '\x08'
  | 'f' => some '\x0c'
  | 'n' => some '\n'
  | 'r' => some '\r'
  | 't' => some '\t'
  | _ => none

/-- Whether a unit is the first half of a pair. -/
def isFirstHalf (unit : Nat) : Bool := 0xD800 ≤ unit && unit ≤ 0xDBFF

/-- Whether a unit is the second half of a pair. -/
def isSecondHalf (unit : Nat) : Bool := 0xDC00 ≤ unit && unit ≤ 0xDFFF

/-- The character that a pair of units stands for. -/
def pairChar (first second : Nat) : Char :=
  Char.ofNat (0x10000 + (first - 0xD800) * 0x400 + (second - 0xDC00))

/-! ## Reading strings -/

/-- Where a reader stands inside a string. -/
inductive StringMode where
  /-- Between characters. -/
  | plain
  /-- After the first half of a pair. -/
  | half (first : Nat)
  /-- After a backslash; there may be a first half before it. -/
  | escape (first : Option Nat)
  /-- Inside the digits of a 16-bit unit: how many there were, and their value. -/
  | unit (first : Option Nat) (digits value : Nat)

/-- What one character of a string does. -/
inductive StringStep where
  /-- It ends the string. -/
  | close
  /-- It completes a character. -/
  | char (ch : Char)
  /-- It leads elsewhere. -/
  | goto (mode : StringMode)

/-- What a 16-bit unit does, after a first half or not. -/
def unitStep : Option Nat → Nat → Except Flaw StringStep
  | none, unit =>
    if isSecondHalf unit then .error .malformed
    else if isFirstHalf unit then .ok (.goto (.half unit))
    else .ok (.char (Char.ofNat unit))
  | some first, unit =>
    if isSecondHalf unit then .ok (.char (pairChar first unit)) else .error .malformed

/-- What the next character of a string does, given the text after it. -/
def stringStep (mode : StringMode) (ch : Char) (rest : List Char) : Except Flaw StringStep :=
  match mode with
  | .plain =>
    if ch = '"' then .ok .close
    else if ch = '\\' then .ok (.goto (.escape none))
    else if ch < ' ' then .error .malformed
    else .ok (.char ch)
  | .half first => if ch = '\\' then .ok (.goto (.escape (some first))) else .error .malformed
  | .escape first =>
    if ch = 'u' then .ok (.goto (.unit first 0 0))
    else
      match first, escaped? ch with
      | none, some plain => .ok (.char plain)
      | _, _ => .error .malformed
  | .unit first digits value =>
    match hexValue? ch with
    | none => .error (hexFlaw digits (ch :: rest))
    | some digit =>
      if digits = 3 then unitStep first (value * 16 + digit)
      else .ok (.goto (.unit first (digits + 1) (value * 16 + digit)))

/-- Read on inside a string. `done` holds the characters read so far, last first. -/
def readStringFrom (mode : StringMode) (done : List Char) : Reader (List Char)
  | [] => .error .cutShort
  | ch :: rest =>
    match stringStep mode ch rest with
    | .error flaw => .error flaw
    | .ok .close => .ok (done.reverse, rest)
    | .ok (.char plain) => readStringFrom .plain (plain :: done) rest
    | .ok (.goto mode) => readStringFrom mode done rest

/-- Read the rest of a string whose opening quote has been read. -/
def readString : Reader (List Char) := readStringFrom .plain []

/-! ## Writing strings -/

/-- The hexadecimal digit, in lower case, of a value below sixteen. -/
def hexDigit (value : Nat) : Char :=
  if value < 10 then Char.ofNat ('0'.toNat + value) else Char.ofNat ('a'.toNat + (value - 10))

/-- How a character is written inside a string. -/
def escapeChar (ch : Char) : List Char :=
  match ch with
  | '"' => ['\\', '"']
  | '\\' => ['\\', '\\']
  | '\x08' => ['\\', 'b']
  | '\x0c' => ['\\', 'f']
  | '\n' => ['\\', 'n']
  | '\r' => ['\\', 'r']
  | '\t' => ['\\', 't']
  | _ =>
    if ch < ' ' then
      ['\\', 'u', '0', '0', hexDigit (ch.toNat / 16), hexDigit (ch.toNat % 16)]
    else [ch]

/-- A string in quotes. -/
def writeString (content : List Char) : List Char :=
  '"' :: content.flatMap escapeChar ++ ['"']

end AmountWalk.Json
