import AmountWalk.Shell.Field
import AmountWalk.Shell.Word

/-!
# Trimming

Taking away the beginning or the end of a value that a pattern matches. A value of one argument is cut
where the pattern says so.

## Several arguments

The values of several arguments lie side by side, with a zero behind each, and a search looks at no more
than one of them. One that starts at the end goes through a *tape* cell by cell. Behind the values lies the
pattern, and characters that have lost their other meaning carry a mark. When the first argument has such
characters, a copy of it without marks lies behind the pattern, and the search starts at the end of that
copy. It may leave the copy, and find the pattern in its way. Each cell that it passes stands for a
character of the values, counted from their end.
-/

namespace AmountWalk.Shell

/-- What stands on a tape for a mark of a quote. -/
def quoteCell : Char := '\x88'

/-- What stands on a tape in front of a character that has lost its other meaning. -/
def escapeCell : Char := '\x81'

/-- Whether a character could be taken for a mark. Such a character always carries one. -/
def isAmbiguous (ch : Char) : Bool := escapeCell ≤ ch && ch ≤ quoteCell

/-- Whether a character carries a mark on a tape. -/
def isMarked (inQuotes : Bool) (ch : Char) : Bool :=
  isAmbiguous ch || (inQuotes && (needsEscape ch || ch == '\\'))

/-- An atom as it lies on a tape. -/
def Atom.laid : Atom → Atom
  | .char ch isEscaped inRegion => .char ch (isEscaped || isAmbiguous ch) inRegion
  | atom => atom

/-- The cells of atoms on a tape. -/
def cellsOf (atoms : List Atom) : Text :=
  atoms.flatMap fun
    | .char ch true _ => [escapeCell, ch]
    | .char ch false _ => [ch]
    | .mark => [quoteCell]
    | .gap | .region _ => []

/-- The cells among which a search goes on. -/
structure Tape where
  cells : Text
  /-- Where the pattern begins. -/
  pattern : Nat
  /-- Where the searched text begins. -/
  start : Nat
  /-- Where the searched text ends. -/
  finish : Nat

namespace Tape

/-- The tape of a value and a pattern. The pattern takes up less room than what it was made of. -/
def ofValue (inQuotes : Bool) (atoms : List Atom) (value : Text) : Tape :=
  let values := value.flatMap fun ch => if isMarked inQuotes ch then [escapeCell, ch] else [ch]
  let atoms := atoms.map Atom.laid
  let pattern := Atom.pattern atoms ++ ['\x00']
  let front := values ++ '\x00' :: pattern ++ (cellsOf atoms ++ ['\x00']).drop pattern.length
  let first := Pattern.upToMark value
  if first.any (isMarked inQuotes) then
    ⟨front ++ first ++ ['\x00'], values.length + 1, front.length, front.length + first.length⟩
  else ⟨front, values.length + 1, 0, values.length⟩

def textAt (tape : Tape) (cell : Nat) : Text := Pattern.upToMark (tape.cells.drop cell)

/-- The tape with a zero in a cell. -/
def cutAt (tape : Tape) (cell : Nat) : Tape :=
  { tape with cells := tape.cells.take cell ++ '\x00' :: tape.cells.drop (cell + 1) }

/-- Whether the pattern on a tape matches the text from a cell on. -/
def acceptsAt (tape : Tape) (cell : Nat) : Bool :=
  Pattern.accepts (tape.textAt tape.pattern) (tape.textAt cell)

/-- How many of the cells before the end a search passes until the pattern matches: from there on, or what
comes before. It passes no more of them than are given. -/
def passed? (tape : Tape) (fromThere : Bool) (count : Nat) : Option Nat :=
  (List.range (count + 1)).find? fun n =>
    let cell := tape.finish - n
    if fromThere then tape.acceptsAt cell else (tape.cutAt cell).acceptsAt tape.start

end Tape

/-- A value without the beginning or the end that a pattern matches. -/
def trimmed (inQuotes atEnd longest : Bool) (atoms : List Atom) (value : Text) : Text :=
  let pattern := Atom.pattern atoms
  let isTape : Bool := value.contains '\x00' && value.any (isMarked inQuotes)
  let place? :=
    if isTape ∧ atEnd ≠ longest then
      ((Tape.ofValue inQuotes atoms value).passed? atEnd value.length).map (value.length - ·)
    else if atEnd then Pattern.endLength? pattern longest value
    else Pattern.startLength? pattern longest value
  match place? with
  | none => value
  | some place => if atEnd then value.take place else value.drop place

end AmountWalk.Shell
