import AmountWalk.Shell.Session

/-!
# What builtins share

A builtin is a function of its arguments on a session. One that fails leaves a session that does not go
on; whoever has called it decides whether that ends the script. What it writes is passed on when it has
ended.
-/

namespace AmountWalk.Shell

namespace Session

/-- Write output. -/
def print (s : Session) (text : Text) : Session := { s with output := text :: s.output }

/-- Write a line. -/
def printLine (s : Session) (text : Text) : Session := s.print (text ++ ['\n'])

/-- Write lines. -/
def printLines (s : Session) (texts : List Text) : Session := texts.foldl printLine s

/-- Pass on what a builtin has written; also tell whether that was possible. -/
def passOn (s : Session) : Session × Bool :=
  let text := s.output.reverse.flatten
  let s := { s with output := [] }
  if text = [] then (s, true) else s.writeTo (s.channel? 1) text

/-- Do the same with several things, as long as nothing fails. -/
def forEach {α : Type} (s : Session) (things : List α) (f : Session → α → Session) : Session :=
  things.foldl (fun s thing => if s.isOn then f s thing else s) s

end Session

namespace Builtin

/-! ## Options -/

/-- The options that a builtin knows. -/
structure Known where
  /-- The letters of those without a value. -/
  letters : String
  /-- The letters of those with a value. -/
  valued : String

/-- An option that was given to a builtin. -/
structure Given where
  letter : Char
  /-- The value, if it takes one. -/
  value : Text

/-- The options in front of the other arguments, and these, from inside an argument on. -/
def optionsFrom (known : Known) : Nat → Text → List Text → Except Text (List Given × List Text)
  | 0, _, arguments => .ok ([], arguments)
  | fuel + 1, [], arguments =>
    match arguments with
    | ['-', '-'] :: rest => .ok ([], rest)
    | ('-' :: letter :: letters) :: rest => optionsFrom known fuel (letter :: letters) rest
    | _ => .ok ([], arguments)
  | fuel + 1, letter :: letters, arguments =>
    let found (value letters : Text) (arguments : List Text) :
        Except Text (List Given × List Text) :=
      (optionsFrom known fuel letters arguments).map fun (others, rest) =>
        (⟨letter, value⟩ :: others, rest)
    if known.letters.toList.contains letter then found [] letters arguments
    else if known.valued.toList.contains letter then
      match letters, arguments with
      | [], [] => .error ("No arg for -".toList ++ letter :: " option".toList)
      | [], value :: arguments => found value [] arguments
      | _, _ => found letters [] arguments
    else .error ("Illegal option -".toList ++ [letter])

/-- The options in front of the other arguments, and these. -/
def options (known : Known) (arguments : List Text) : Except Text (List Given × List Text) :=
  optionsFrom known (arguments.foldl (fun sum text => sum + text.length + 1) 1) [] arguments

/-- Go on with the options of a builtin and its other arguments. -/
def withOptions (s : Session) (letters : String) (arguments : List Text)
    (go : List Char → List Text → Session) : Session :=
  match options ⟨letters, ""⟩ arguments with
  | .ok (given, rest) => go (given.map Given.letter) rest
  | .error message => s.fail message

/-! ## Arguments -/

/-- Go on with the number that an argument writes. -/
def withNumber (s : Session) (text : Text) (go : Nat → Session) : Session :=
  match count? text with
  | some n => go n
  | none => s.fail ("Illegal number: ".toList ++ text)

/-- Go on with the session, or fail. -/
def orFail (s : Session) : Except Text Session → Session
  | .ok s => s
  | .error message => s.fail message

/-- Go on with the name of the variable that an argument names, perhaps with a value behind it. -/
def withVariable (s : Session) (argument : Text) (go : Text → Session) : Session :=
  let name := argument.takeWhile (· ≠ '=')
  if isName name then go name else s.fail (name ++ ": bad variable name".toList)

/-- The value behind the name of a variable in an argument, if there is one. -/
def valueIn? (argument : Text) : Option Text :=
  match argument.dropWhile (· ≠ '=') with
  | [] => none
  | _ :: value => some value

end Builtin

end AmountWalk.Shell
