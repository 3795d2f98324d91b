import AmountWalk.Json.Numeral

/-!
# Skipping a JSON value

A value that nobody asked for is skipped, whatever it is and however deeply it nests. Skipping checks
the grammar of the value but gives it no meaning: numbers may be out of range, and the halves of a
pair of 16-bit units may stand alone.

The skipper is a machine with a stack. It takes one character at a time, so it stops by itself, and
the stack holds the brackets that are open.
-/

namespace AmountWalk.Json

/-- An open bracket. -/
inductive Bracket where
  /-- `[` -/
  | square
  /-- `{` -/
  | curly
  deriving DecidableEq

/-- Where the skipper stands. -/
inductive SkipMode where
  | value
  /-- After an opening square bracket. -/
  | firstItem
  /-- After an opening curly bracket. -/
  | firstKey
  /-- After a comma in curly brackets. -/
  | nextKey
  /-- After a key. -/
  | colon
  /-- After a value. -/
  | after
  /-- Inside a fixed word; these letters must follow. -/
  | word (letters : List Char)
  /-- Inside a string, which may be a key. -/
  | string (isKey : Bool)
  /-- After a backslash in a string. -/
  | escape (isKey : Bool)
  /-- Inside the digits of a 16-bit unit. -/
  | unit (isKey : Bool) (digits : Nat)
  /-- After a minus sign. -/
  | minus
  /-- After a leading zero. -/
  | zero
  /-- Inside the digits before the point. -/
  | whole
  | point
  /-- Inside the digits after the point. -/
  | fraction
  /-- After the mark of an exponent. -/
  | mark
  /-- After the sign of an exponent. -/
  | sign
  /-- Inside the digits of an exponent. -/
  | power

/-- What one character does to the skipper. -/
inductive SkipStep where
  /-- The value is over, and the character does not belong to it. -/
  | stop
  /-- Go on with these open brackets. -/
  | go (mode : SkipMode) (stack : List Bracket)
  /-- The character ends the value. -/
  | done

namespace SkipMode

/-- The first character of a value. -/
def valueStep (ch : Char) (stack : List Bracket) : Except Flaw SkipStep :=
  if ch = 'n' then .ok (.go (word ['u', 'l', 'l']) stack)
  else if ch = 't' then .ok (.go (word ['r', 'u', 'e']) stack)
  else if ch = 'f' then .ok (.go (word ['a', 'l', 's', 'e']) stack)
  else if ch = '"' then .ok (.go (string false) stack)
  else if ch = '[' then .ok (.go firstItem (.square :: stack))
  else if ch = '{' then .ok (.go firstKey (.curly :: stack))
  else if ch = '-' then .ok (.go minus stack)
  else if ch = '0' then .ok (.go zero stack)
  else if isDigit ch then .ok (.go whole stack)
  else .error .malformed

/-- The end of a value, when its last character belongs to it. -/
def finish : List Bracket → SkipStep
  | [] => .done
  | stack => .go after stack

/-- A character after a value. -/
def afterStep (ch : Char) (stack : List Bracket) : Except Flaw SkipStep :=
  match stack with
  | [] => .ok .stop
  | .square :: outer =>
    if isBlank ch then .ok (.go after stack)
    else if ch = ',' then .ok (.go value stack)
    else if ch = ']' then .ok (finish outer)
    else .error .malformed
  | .curly :: outer =>
    if isBlank ch then .ok (.go after stack)
    else if ch = ',' then .ok (.go nextKey stack)
    else if ch = '}' then .ok (finish outer)
    else .error .malformed

/-- The bracket that closes at once, or what else may follow an opening one. -/
def closeOr (close ch : Char) (stack : List Bracket) (other : Except Flaw SkipStep) :
    Except Flaw SkipStep :=
  if ch = close then .ok (finish stack.tail) else other

/-- The first character of a key. -/
def keyStep (ch : Char) (stack : List Bracket) : Except Flaw SkipStep :=
  if ch = '"' then .ok (.go (string true) stack) else .error .malformed

/-- A character in a number that may end here: a point or the mark of an exponent leads on. -/
def numberStep (mayPoint mayMark : Bool) (ch : Char) (stack : List Bracket) :
    Except Flaw SkipStep :=
  if ch = '.' ∧ mayPoint then .ok (.go point stack)
  else if (ch = 'e' ∨ ch = 'E') ∧ mayMark then .ok (.go mark stack)
  else afterStep ch stack

/-- A character where only a digit may stand. -/
def digitStep (next : SkipMode) (ch : Char) (stack : List Bracket) : Except Flaw SkipStep :=
  if isDigit ch then .ok (.go next stack) else .error .malformed

/-- What the next character does, given the text after it. -/
def step (mode : SkipMode) (stack : List Bracket) (ch : Char) (rest : List Char) :
    Except Flaw SkipStep :=
  match mode with
  | value => if isBlank ch then .ok (.go value stack) else valueStep ch stack
  | firstItem =>
    if isBlank ch then .ok (.go firstItem stack)
    else closeOr ']' ch stack (valueStep ch stack)
  | firstKey =>
    if isBlank ch then .ok (.go firstKey stack) else closeOr '}' ch stack (keyStep ch stack)
  | nextKey => if isBlank ch then .ok (.go nextKey stack) else keyStep ch stack
  | colon =>
    if isBlank ch then .ok (.go colon stack)
    else if ch = ':' then .ok (.go value stack)
    else .error .malformed
  | after => afterStep ch stack
  | word [] => afterStep ch stack
  | word [letter] => if ch = letter then .ok (finish stack) else .error .malformed
  | word (letter :: letters) =>
    if ch = letter then .ok (.go (word letters) stack) else .error .malformed
  | string isKey =>
    if ch = '"' then .ok (if isKey then .go colon stack else finish stack)
    else if ch = '\\' then .ok (.go (escape isKey) stack)
    else if ch < ' ' then .error .malformed
    else .ok (.go (string isKey) stack)
  | escape isKey =>
    if ch = 'u' then .ok (.go (unit isKey 0) stack)
    else if (escaped? ch).isSome then .ok (.go (string isKey) stack)
    else .error .malformed
  | unit isKey digits =>
    match hexValue? ch with
    | none => .error (hexFlaw digits (ch :: rest))
    | some _ =>
      if digits = 3 then .ok (.go (string isKey) stack)
      else .ok (.go (unit isKey (digits + 1)) stack)
  | minus => if ch = '0' then .ok (.go zero stack) else digitStep whole ch stack
  | zero => if isDigit ch then .error .malformed else numberStep true true ch stack
  | whole => if isDigit ch then .ok (.go whole stack) else numberStep true true ch stack
  | point => digitStep fraction ch stack
  | fraction => if isDigit ch then .ok (.go fraction stack) else numberStep false true ch stack
  | mark => if ch = '+' ∨ ch = '-' then .ok (.go sign stack) else digitStep power ch stack
  | sign => digitStep power ch stack
  | power => if isDigit ch then .ok (.go power stack) else numberStep false false ch stack

/-- What the end of the text means here. A number that lacks a digit is malformed. -/
def atEnd (mode : SkipMode) (stack : List Bracket) : Except Flaw Unit :=
  match mode with
  | minus | point | mark | sign => .error .malformed
  | zero | whole | fraction | power | after | word [] =>
    if stack.isEmpty then .ok () else .error .cutShort
  | _ => .error .cutShort

end SkipMode

/-- Run the skipper over a text; what is left is what follows the value. -/
def skipFrom (mode : SkipMode) (stack : List Bracket) : List Char → Except Flaw (List Char)
  | [] => (mode.atEnd stack).map fun _ => []
  | ch :: rest =>
    match mode.step stack ch rest with
    | .error flaw => .error flaw
    | .ok .stop => .ok (ch :: rest)
    | .ok .done => .ok rest
    | .ok (.go mode stack) => skipFrom mode stack rest

def skipValue : List Char → Except Flaw (List Char) := skipFrom .value []

end AmountWalk.Json
