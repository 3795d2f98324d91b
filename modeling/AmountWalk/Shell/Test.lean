import AmountWalk.Shell.Session

/-!
# Tests

The expressions of `test`: properties of texts, numbers and files, with `!`, `-a`, `-o` and brackets.
An expression of three arguments whose second one is an operator on two is that operation, and what
looks like an operator counts as a text where only a text can stand.
-/

namespace AmountWalk.Shell

namespace Test

/-- The operators on one argument. -/
def unary : List Text :=
  ["-b", "-c", "-d", "-e", "-f", "-g", "-G", "-h", "-k", "-L", "-n", "-O", "-p", "-r", "-s", "-S",
    "-t", "-u", "-w", "-x", "-z"].map String.toList

/-- The operators on two arguments. -/
def binary : List Text :=
  ["=", "!=", "<", ">", "-eq", "-ne", "-lt", "-le", "-gt", "-ge", "-nt", "-ot", "-ef"].map
    String.toList

/-- The decimal number that an argument writes. -/
def number (text : Text) : Except Text Int :=
  let illegal : Except Text Int := .error ("Illegal number: ".toList ++ text)
  let (negative, rest) :=
    match text.dropWhile isNumberBlank with
    | '-' :: rest => (true, rest)
    | '+' :: rest => (false, rest)
    | rest => (false, rest)
  match spanDigits 10 rest with
  | ([], _) => illegal
  | (digits, rest) =>
    let n : Int := numberOf 10 digits
    let n := if negative then -n else n
    if rest.all isNumberBlank ∧ clampInt n = n then .ok n else illegal

/-- Whether something is a program, or a directory that may be entered. -/
def mayBeRun (s : Session) : Target → Bool
  | .directory _ => true
  | .file location => s.isProgram location
  | .device _ | .pipe _ => false

/-- The outcome of an operator on one argument. No file is a terminal, but its number has to be one. -/
def applyUnary (s : Session) (operator operand : Text) : Except Text Bool := do
  if operator = "-t".toList then
    let _ ← number operand
    return false
  let found : Option Target := (s.target operand).toOption
  return match String.ofList operator with
    | "-n" => !operand.isEmpty
    | "-z" => operand.isEmpty
    | "-h" | "-L" => s.isLink operand
    | "-e" | "-r" | "-w" | "-O" | "-G" => found.isSome
    | "-d" => found.any fun
        | .directory _ => true
        | _ => false
    | "-f" => found.any fun
        | .file _ => true
        | _ => false
    | "-c" => found.any fun
        | .device _ => true
        | _ => false
    | "-p" => found.any fun
        | .pipe _ => true
        | _ => false
    | "-s" => found.any fun
        | .file location => !(s.world.content location).isEmpty
        | .directory _ => true
        | _ => false
    | "-k" => found.any fun
        | .directory place => isSticky place
        | _ => false
    | "-x" => found.any (mayBeRun s)
    | _ => false

/-- The place of what a path leads to. A pipe has none. -/
def placeOf? (s : Session) (path : Text) : Option Location :=
  match s.target path with
  | .ok (.file location) | .ok (.directory location) => some location
  | .ok (.device device) => some (Shell.placeOf device)
  | .ok (.pipe _) | .error _ => none

/-- Whether a file was changed later than another one. -/
def isNewer (s : Session) (path other : Text) : Bool :=
  match placeOf? s path, placeOf? s other with
  | some location, some before => s.world.isNewer location before
  | _, _ => false

/-- The outcome of an operator on two arguments. -/
def applyBinary (s : Session) (left operator right : Text) : Except Text Bool := do
  let numbers (p : Int → Int → Bool) : Except Text Bool := return p (← number left) (← number right)
  match String.ofList operator with
  | "=" => return left == right
  | "!=" => return left != right
  | "<" => return left < right
  | ">" => return right < left
  | "-eq" => numbers (· == ·)
  | "-ne" => numbers (· != ·)
  | "-lt" => numbers fun a b => a < b
  | "-le" => numbers fun a b => a ≤ b
  | "-gt" => numbers fun a b => b < a
  | "-ge" => numbers fun a b => b ≤ a
  | "-nt" => return isNewer s left right
  | "-ot" => return isNewer s right left
  | "-ef" =>
    return match s.target left, s.target right with
      | .ok a, .ok b => a == b
      | _, _ => false
  | _ => return false

/-- Whether an operator on two arguments comes first. -/
def startsBinary (arguments : List Text) : Bool := arguments.head?.any binary.contains

/-- Whether an operator on one argument comes first, and not a text that is compared. -/
def startsUnary (arguments : List Text) : Bool :=
  match arguments with
  | [operator, _] => unary.contains operator
  | operator :: next :: _ :: _ => unary.contains operator && !binary.contains next
  | _ => false

/-- The outcome of a part of an expression, and the arguments behind it. -/
abbrev Part := Except Text (Bool × List Text)

mutual

/-- Parts of which one has to hold. -/
def either (s : Session) : Nat → List Text → Part
  | 0, _ => .error "expression too long".toList
  | fuel + 1, arguments => do
    let (first, rest) ← both s fuel arguments
    if rest.head? = some "-o".toList then
      let (second, rest) ← either s fuel rest.tail
      return (first || second, rest)
    else return (first, rest)

/-- Parts that have to hold all. -/
def both (s : Session) : Nat → List Text → Part
  | 0, _ => .error "expression too long".toList
  | fuel + 1, arguments => do
    let (first, rest) ← inverted s fuel arguments
    if rest.head? = some "-a".toList then
      let (second, rest) ← both s fuel rest.tail
      return (first && second, rest)
    else return (first, rest)

def inverted (s : Session) : Nat → List Text → Part
  | 0, _ => .error "expression too long".toList
  | fuel + 1, arguments => do
    if arguments.head? = some ['!'] then
      let (outcome, rest) ← inverted s fuel arguments.tail
      return (!outcome, rest)
    else primary s fuel arguments

/-- A part in brackets, an operation or a text. -/
def primary (s : Session) : Nat → List Text → Part
  | 0, _ => .error "expression too long".toList
  | fuel + 1, arguments => do
    match arguments with
    | [] => return (false, [])
    | first :: rest =>
      if first = ['('] ∧ rest ≠ [] then
        if rest.head? = some [')'] then return (false, rest.tail)
        let (outcome, rest) ← either s fuel rest
        if rest.head? = some [')'] then return (outcome, rest.tail)
        else throw "closing paren expected".toList
      else if startsUnary arguments then
        return (← applyUnary s first (rest.headD []), rest.tail)
      else operation s first rest

/-- An operation on two arguments, or a text. -/
def operation (s : Session) (first : Text) (rest : List Text) : Part := do
  if startsBinary rest then
    match rest with
    | operator :: right :: rest => return (← applyBinary s first operator right, rest)
    | _ => throw (rest.headD [] ++ ": argument expected".toList)
  else return (!first.isEmpty, rest)

end

/-- The outcome of a whole expression. In front of two arguments, a second `!` changes nothing. -/
def outcome (s : Session) (arguments : List Text) : Except Text Bool := do
  let fuel := 4 * arguments.length + 4
  let whole (arguments : List Text) (part : Part) : Except Text Bool := do
    let (outcome, rest) ← part
    if rest.isEmpty then return outcome
    else
      let last := arguments.getD (arguments.length - rest.length - 1) []
      throw ((if last = [] then [] else last ++ ": ".toList) ++ "unexpected operator".toList)
  let general (arguments : List Text) : Except Text Bool := whole arguments (either s fuel arguments)
  let three (a b c : Text) : Except Text Bool :=
    if binary.contains b then whole [a, b, c] (operation s a [b, c])
    else if a = ['('] ∧ c = [')'] then general [b]
    else if a = ['!'] then (general [b, c]).map (!·)
    else general [a, b, c]
  match arguments with
  | [] => return false
  | [a, b, c] => three a b c
  | [a, b, c, d] =>
    if a = ['('] ∧ d = [')'] then general [b, c]
    else if a = ['!'] then
      let outcome := three b c d
      if b = ['!'] ∧ !binary.contains c then outcome else outcome.map (!·)
    else general arguments
  | _ => general arguments

end Test

end AmountWalk.Shell
