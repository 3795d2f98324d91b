import AmountWalk.Shell.Text

/-!
# Patterns

The patterns of a shell are texts: `?` matches any character, `*` any text, and square brackets match a
character that stands between them, in a range between them or in a class named there. A backslash
takes the meaning from the character behind it. A bracket that is not closed matches itself.

A pattern has no form of its own besides its text, because what a bracket means depends on the place
where the match has come to.
-/

namespace AmountWalk.Shell

namespace Pattern

/-- The number by which characters are compared in a range: bytes with the highest bit come first. -/
def rank (ch : Char) : Int := (ch.toNat : Int).bmod 256

/-- Whether a character lies in a range. -/
def isBetween (first last ch : Char) : Bool := rank first ≤ rank ch && rank ch ≤ rank last

/-- Whether a character is in a named class. -/
def isOfKind (name : String) (ch : Char) : Bool :=
  let lower : Bool := 'a' ≤ ch && ch ≤ 'z'
  let upper : Bool := 'A' ≤ ch && ch ≤ 'Z'
  let graphic : Bool := '!' ≤ ch && ch ≤ '~'
  match name with
  | "alpha" => lower || upper
  | "lower" => lower
  | "upper" => upper
  | "digit" => isDigit ch
  | "alnum" => lower || upper || isDigit ch
  | "xdigit" => digitValue ch < 16
  | "space" => isNumberBlank ch
  | "blank" => isBlank ch
  | "punct" => graphic && !(lower || upper || isDigit ch)
  | "graph" => graphic
  | "print" => graphic || ch == ' '
  | "cntrl" => ch < ' ' || ch == '\x7f'
  | _ => false

/-- The names of classes. -/
def kinds : List String :=
  ["alpha", "lower", "upper", "digit", "alnum", "xdigit", "space", "blank", "punct", "graph",
    "print", "cntrl"]

/-- The class that is named behind a bracket, and the text behind its own bracket. -/
def kind? (text : Text) : Option (String × Text) :=
  kinds.findSome? fun name =>
    let spelling := ':' :: name.toList ++ [':', ']']
    if spelling.isPrefixOf text then some (name, text.drop spelling.length) else none

/-- Whether a character is among those between brackets, which are read up to the one that closes them,
and the text behind it. A closing bracket that comes first is a character like others. -/
def among? (ch : Char) : Nat → Bool → Bool → Text → Option (Bool × Text)
  | 0, _, _, _ => none
  | _ + 1, _, _, [] => none
  | fuel + 1, isFirst, found, c :: rest =>
    if c = ']' ∧ !isFirst then some (found, rest)
    else
      match (if c = '[' then kind? rest else none) with
      | some (name, rest) => among? ch fuel false (found || isOfKind name ch) rest
      | none =>
        let (c, rest) :=
          match c, rest with
          | '\\', next :: rest => (next, rest)
          | _, _ => (c, rest)
        match rest with
        | '-' :: last :: rest' =>
          if last = ']' then among? ch fuel false (found || ch == c) rest
          else
            let (last, rest') :=
              match last, rest' with
              | '\\', next :: rest' => (next, rest')
              | _, _ => (last, rest')
            among? ch fuel false (found || isBetween c last ch) rest'
        | _ => among? ch fuel false (found || ch == c) rest

/-- Whether a character is in the set behind an opening bracket, and the text behind the set. -/
def inSet? (ch : Char) (text : Text) : Option (Bool × Text) :=
  let (isInverted, body) :=
    match text with
    | '!' :: rest => (true, rest)
    | _ => (false, text)
  (among? ch (body.length + 1) true false body).map fun (found, rest) => (found != isInverted, rest)

/-! ## Matching

Of a text only so many characters count, and those behind a mark between two arguments do not. -/

/-- The mark between two arguments. -/
def argumentMark : Char := '\x00'

/-- The character that comes first among so many that count, and what is left behind it. -/
def next? : Nat → Text → Option (Char × Nat × Text)
  | limit + 1, ch :: rest => if ch = argumentMark then none else some (ch, limit, rest)
  | _, _ => none

/-- Whether a property holds of what counts of a text or of what is left of it when characters are taken
from its beginning. -/
def holdsBehind (p : Nat → Text → Bool) : Nat → Text → Bool
  | limit, [] => p limit []
  | limit, ch :: rest =>
    p limit (ch :: rest) ||
      match limit with
      | 0 => false
      | limit + 1 => ch != argumentMark && holdsBehind p limit rest

/-- Whether a pattern matches all that counts of a text. -/
def acceptsFrom : Nat → Text → Nat → Text → Bool
  | 0, _, _, _ => false
  | _ + 1, [], limit, text => (next? limit text).isNone
  | _ + 1, ['*'], _, _ => true
  | fuel + 1, '*' :: rest, limit, text => holdsBehind (acceptsFrom fuel rest) limit text
  | fuel + 1, c :: rest, limit, text =>
    match next? limit text with
    | none => false
    | some (ch, limit, others) =>
      match c with
      | '?' => acceptsFrom fuel rest limit others
      | '[' =>
        match inSet? ch rest with
        | some (found, rest) => found && acceptsFrom fuel rest limit others
        | none => ch == '[' && acceptsFrom fuel rest limit others
      | '\\' =>
        match rest with
        | next :: rest => ch == next && acceptsFrom fuel rest limit others
        | [] => ch == '\\' && (next? limit others).isNone
      | _ => ch == c && acceptsFrom fuel rest limit others

/-- Whether a pattern matches so many characters at the beginning of a text. -/
def acceptsFirst (pattern : Text) (count : Nat) (text : Text) : Bool :=
  acceptsFrom (pattern.length + 1) pattern count text

/-- Whether a pattern matches a text as a whole. -/
def accepts (pattern text : Text) : Bool := acceptsFirst pattern text.length text

/-- The beginning of a text that does not hold the mark between two arguments. -/
def upToMark (text : Text) : Text := text.takeWhile (· ≠ argumentMark)

/-- How many characters the shortest or longest beginning of a text has that a pattern matches. -/
def startLength? (pattern : Text) (longest : Bool) (text : Text) : Option Nat :=
  let length := if longest then text.length else (upToMark text).length
  let lengths := List.range (length + 1)
  (if longest then lengths.reverse else lengths).find? fun n => acceptsFirst pattern n text

/-- A text and all texts that are left of it when characters are taken from its beginning, each with the
number of these. -/
def suffixes (taken : Nat) : Text → List (Nat × Text)
  | [] => [(taken, [])]
  | ch :: rest => (taken, ch :: rest) :: suffixes (taken + 1) rest

/-- How many characters stand in front of the shortest or longest end of a text that a pattern
matches. -/
def endLength? (pattern : Text) (longest : Bool) (text : Text) : Option Nat :=
  let places := suffixes 0 text
  let places := if longest then places.take ((upToMark text).length + 1) else places.reverse
  (places.find? fun (_, rest) => acceptsFirst pattern text.length rest).map Prod.fst

end Pattern

end AmountWalk.Shell
