import AmountWalk.Shell.Token

/-!
# Reading scripts

What the readers of words and commands share: the text that is left, the documents that begin after
the line, the texts that stand for names, and the way in which reading fails.

A backslash at the end of a line joins it to the next one wherever the two characters are not read as
they are. So there are two ways to look at the next character.

A script may be read in blocks. Then more text may follow the text that is left, and a reader that would
have to look at it *starves*: whoever has called it gets more text and lets it start again.
-/

namespace AmountWalk.Shell

/-- A document that a redirection of this line has announced. -/
structure Announced where
  /-- The number of the document. -/
  number : Nat
  /-- The line that ends it. -/
  delimiter : Text
  /-- Whether tabs at the beginning of a line are dropped. -/
  dropTabs : Bool
  /-- Whether its text stands for itself. -/
  isLiteral : Bool

/-- A text that was put in place of a name. -/
structure Replaced where
  name : Text
  /-- How much is left of the script when the text has ended. -/
  left : Nat
  /-- Whether the text ends with a blank, so that the next word may be such a name too. -/
  goesOn : Bool
  /-- Whether its end has been noticed. -/
  hasEnded : Bool

/-- The state of a reader. -/
structure Reader where
  /-- The text that is left. -/
  rest : Text
  /-- Its length. -/
  left : Nat
  /-- Whether more text may follow it. -/
  isOpen : Bool
  /-- The line in which it starts. -/
  line : Nat
  /-- The documents that start after this line, in order. -/
  announced : List Announced
  /-- The documents by number. -/
  documents : Array Word
  /-- Texts that stand for a name at the beginning of a command. -/
  aliases : List (Text × Text)
  /-- The texts that were put in place of names and have not ended before this place. -/
  replaced : List Replaced
  /-- Whether the next word may be such a name, wherever it stands. -/
  mayReplace : Bool
  /-- A token that was read, to be read once more. -/
  again : Option Token
  /-- The word that was read last. -/
  lastWord : Word

namespace Reader

def ofText (script : Text) : Reader :=
  ⟨script, script.length, false, 1, [], #[], [], [], false, none, []⟩

/-- A reader of a script of which nothing has been read. -/
def unread : Reader := { ofText [] with isOpen := true }

/-- The reader with one more block of the script, which is empty at the end. Zero bytes are left out. -/
def extend (r : Reader) (block : Text) : Reader :=
  let text := block.filter (· ≠ '\x00')
  { r with rest := r.rest ++ text, left := r.left + text.length, isOpen := !block.isEmpty }

/-- The reader that has noticed which texts in place of names have ended. -/
def settled (r : Reader) : Reader :=
  if r.replaced.isEmpty then r
  else
    let ended := r.replaced.filter fun text => r.left ≤ text.left && !text.hasEnded
    let still := r.replaced.filter fun text => text.left ≤ r.left
    { r with
      replaced := still.map fun text => { text with hasEnded := text.left == r.left }
      mayReplace := r.mayReplace || ended.any Replaced.goesOn }

/-- The reader behind so many characters. -/
def behind (r : Reader) (count : Nat) : Reader :=
  { r with
    rest := r.rest.drop count, left := r.left - count
    line := r.line + (r.rest.take count).count '\n' }

/-- The reader behind the line ends that are joined here. -/
def joined (r : Reader) : Reader :=
  let r := r.settled
  match r.rest with
  | '\\' :: '\n' :: rest => joinedFrom rest (r.left - 2) (r.line + 1) r
  | _ => r
where
  /-- Go on behind a line end, in front of a text of this length in this line. -/
  joinedFrom : Text → Nat → Nat → Reader → Reader
    | '\\' :: '\n' :: rest, left, line, r => joinedFrom rest (left - 2) (line + 1) r
    | rest, left, line, r => Reader.settled { r with rest, left, line }

def isAhead (r : Reader) : Bool := r.again matches some .scriptEnd

end Reader

/-- Why a script cannot be read on. -/
inductive Halt where
  /-- Something is wrong. That was found where the reader is. -/
  | flaw (message : Text) (reader : Reader)
  /-- More text is needed. -/
  | starved

/-- Something that reads a part of a script. -/
abbrev Parser := StateT Reader (Except Halt)

namespace Parser

/-- Give up. -/
def fail {α : Type} (message : String) : Parser α := do
  throw (.flaw ("Syntax error: ".toList ++ message.toList) (← get))

/-- Starve if the text that is left does not show what must be known and more text may follow. -/
def need (isShown : Text → Bool) : Parser Unit := do
  let r ← get
  if r.isOpen && !isShown r.rest then throw .starved

/-- The next character, as it is. -/
def peekRaw : Parser (Option Char) := do
  modify Reader.settled
  need (!·.isEmpty)
  return (← get).rest.head?

/-- The next character behind joined line ends. -/
def peek : Parser (Option Char) := do
  modify Reader.joined
  need fun rest => !rest.isEmpty && rest != ['\\']
  return (← get).rest.head?

/-- Skip the character that was looked at. -/
def skip : Parser Unit := modify (·.behind 1)

/-- Skip the character that was looked at. If it is a line end, the lines are counted as if it were none. -/
def skipUncounted : Parser Unit := modify fun r => { r.behind 1 with line := r.line }

/-- Skip the next character behind joined line ends, if it is a given one. -/
def skip? (ch : Char) : Parser Bool := do
  if (← peek) = some ch then
    skip
    return true
  else return false

/-- Read characters as long as they have a property. Line ends between them are joined. -/
def takeWhile (p : Char → Bool) : Nat → Parser Text
  | 0 => return []
  | fuel + 1 => do
    match ← peek with
    | some ch =>
      if p ch then
        skip
        return ch :: (← takeWhile p fuel)
      else return []
    | none => return []

/-- Read a part whose documents are its own. One that does not start inside the part is empty. -/
def apart {α : Type} (parser : Parser α) : Parser α := do
  let outer := (← get).announced
  modify fun r => { r with announced := [] }
  let result ← parser
  modify fun r => { r with announced := outer, mayReplace := false }
  return result

/-- Read a part from a text of its own, whose lines are counted from one. What was read ahead comes first. -/
def within {α : Type} (text : Text) (parser : Parser α) : Parser α := do
  let outer ← get
  set
    { outer with
      rest := text, left := text.length, isOpen := false, line := 1, replaced := [] }
  let result ← parser
  modify fun inner =>
    { inner with
      rest := outer.rest, left := outer.left, isOpen := outer.isOpen, line := outer.line
      replaced := outer.replaced, mayReplace := false, again := none }
  return result

end Parser

/-- Give up at a token that may not stand here, perhaps where another one must. -/
def unexpected {α : Type} (token : Token) (expected : Text) : Parser α :=
  let wanted := if expected = [] then [] else " (expecting ".toList ++ expected ++ [')']
  Parser.fail (String.ofList (token.name ++ " unexpected".toList ++ wanted))

end AmountWalk.Shell
