import AmountWalk.Shell.Builtin.Basic
import AmountWalk.Shell.Escape

/-!
# Builtins for variables and arguments

`export`, `readonly`, `local`, `unset` and `shift`.
-/

namespace AmountWalk.Shell.Builtin

/-- The line that lists a variable. -/
def listing (word name : Text) (value : Option Text) : Text :=
  match value with
  | none => word ++ name
  | some value => word ++ name ++ '=' :: quotedText value

/-- Give a variable another property, and a value if the argument has one. -/
def mark (property : Variable → Variable) (s : Session) (argument : Text) : Session :=
  withVariable s argument fun name =>
    let assigned :=
      match valueIn? argument with
      | some value => s.assign name value
      | none => .ok s
    match assigned with
    | .error message => s.fail message
    | .ok s =>
      let before := (s.bindings.get? name).getD ⟨none, false, false⟩
      s.bind name (property before)

/-- List the variables with a property, or give it to variables. Of options, only the first one is read. -/
def listOrMark (word : String) (holds : Variable → Bool) (property : Variable → Variable)
    (s : Session) (arguments : List Text) : Session :=
  let list (s : Session) : Session :=
    s.printLines <|
      (s.bindings.sorted.filter fun (_, binding) => holds binding).map fun (name, binding) =>
        listing (word.toList ++ [' ']) name binding.value
  let markAll (s : Session) (names : List Text) : Session :=
    if names.isEmpty then list s else s.forEach names (mark property)
  match arguments with
  | ('-' :: 'p' :: _) :: _ => list (s.done 0)
  | ['-', '-'] :: names => markAll (s.done 0) names
  | ('-' :: letter :: _) :: _ => s.fail ("Illegal option -".toList ++ [letter])
  | names => markAll (s.done 0) names

/-- Give variables to programs that are started. -/
def exportVariables : Session → List Text → Session :=
  listOrMark "export" Variable.exported fun binding => { binding with exported := true }

/-- Let variables keep their values for ever. -/
def protectVariables : Session → List Text → Session :=
  listOrMark "readonly" Variable.readOnly fun binding => { binding with readOnly := true }

/-- Restore variables or the options at the end of the function. A name that comes with a value is not
looked at before that. -/
def localVariables (s : Session) (arguments : List Text) : Session :=
  if s.frames.isEmpty then s.fail "not in a function".toList
  else
    (s.done 0).forEach arguments fun s argument =>
      if argument = ['-'] then s.save (.options s.options)
      else
        match valueIn? argument with
        | some value =>
          let name := argument.takeWhile (· ≠ '=')
          let s := s.saveVariable name
          orFail s (s.assign name value)
        | none =>
          if (s.bindings.get? argument).isSome then s.saveVariable argument
          else withVariable s argument s.saveVariable

/-- Remove variables or functions. -/
def unset (s : Session) (arguments : List Text) : Session :=
  withOptions s "fv" arguments fun letters names =>
    (s.done 0).forEach names fun s argument =>
      if letters.getLast? = some 'f' then { s with functions := s.functions.erase argument }
      else withVariable s argument fun name => orFail s (s.unset name)

/-- Drop the first arguments. -/
def shift (s : Session) (arguments : List Text) : Session :=
  withNumber s (arguments.headD ['1']) fun n =>
    if s.arguments.length < n then s.fail "can't shift that many".toList
    else
      { s with arguments := s.arguments.drop n, optionIndex := 1, optionOffset := none }.done 0

end AmountWalk.Shell.Builtin
