import AmountWalk.Shell.Builtin.Options
import AmountWalk.Shell.Input

/-!
# How a shell is invoked

A shell is started with options and other arguments. It runs the text that follows the option `c`, the
script at the path that comes first, or what it reads as its input; the arguments behind that are those of
the script.
-/

namespace AmountWalk.Shell

/-- What a shell is to run. -/
structure Invocation where
  /-- The text that is run first. -/
  command? : Option Text
  /-- The channel from which a script is read. -/
  channel? : Option Nat

namespace Invocation

/-- Nothing is to be run. -/
def nothing : Invocation := ⟨none, none⟩

/-- Turn the options on or off that letters and arguments name; also tell whether a command is to follow, and
the arguments that are left. -/
def turnAll (on : Bool) : Text → Session → List Text → Session × Bool × List Text
  | [], s, arguments => (s, false, arguments)
  | letter :: letters, s, arguments =>
    if letter = 'c' ∨ letter = 'l' then
      let (s, isCommand, arguments) := turnAll on letters s arguments
      (s, letter = 'c' || isCommand, arguments)
    else
      let (s, arguments) := Builtin.turnLetters s on [letter] arguments
      if s.isOn then turnAll on letters s arguments else (s, false, arguments)

/-- Turn the options in front of the other arguments on or off; also tell whether a command is to follow, and
the arguments that are left. -/
def options : Nat → Session → List Text → Session × Bool × List Text
  | 0, s, arguments => (s, false, arguments)
  | fuel + 1, s, arguments =>
    let go (on : Bool) (letters : Text) (rest : List Text) : Session × Bool × List Text :=
      let (s, isCommand, rest) := turnAll on letters s rest
      if s.isOn then
        let (s, isAlso, rest) := options fuel s rest
        (s, isCommand || isAlso, rest)
      else (s, false, rest)
    match arguments with
    | ['-'] :: rest | ['-', '-'] :: rest => (s, false, rest)
    | ('-' :: letters) :: rest => go true letters rest
    | ('+' :: letters) :: rest => go false letters rest
    | _ => (s, false, arguments)

end Invocation

/-- What a shell is to run, and the session in which it does so. -/
def Session.invoked (s : Session) : Invocation × Session :=
  let (s, isCommand, arguments) := Invocation.options (s.arguments.length + 1) s s.arguments
  -- A shell that talks with a user controls jobs.
  let s := if s.has 'i' then Builtin.turn s 'm' true else s
  let s := (if s.isOn then Builtin.withoutJobControl s else s).passOn.1
  let named (name : Text) (arguments : List Text) (s : Session) : Session :=
    { s with script := name, arguments }
  if !s.isOn then (.nothing, s)
  else
    let input? : Option Nat := if s.has 's' then some 0 else none
    match isCommand, arguments with
    | true, [] => (.nothing, s.fail "-c requires an argument".toList)
    | true, [text] => (⟨some text, input?⟩, { s with arguments := [] })
    | true, text :: name :: rest => (⟨some text, input?⟩, named name rest s)
    | false, [] => (⟨none, some 0⟩, { Builtin.turn s 's' true with arguments := [] })
    | false, path :: rest =>
      if s.has 's' then (⟨none, some 0⟩, { s with arguments })
      else
        match s.openScript path with
        | .ok (s, channel) => (⟨none, some channel⟩, named path rest s)
        | .error message => (.nothing, s.fail message)

end AmountWalk.Shell
