import AmountWalk.Shell.Builtin.Directory
import AmountWalk.Shell.Builtin.Limits
import AmountWalk.Shell.Builtin.Names
import AmountWalk.Shell.Builtin.Options
import AmountWalk.Shell.Builtin.Print
import AmountWalk.Shell.Builtin.Read
import AmountWalk.Shell.Builtin.Signals
import AmountWalk.Shell.Test

/-!
# Builtins

The builtins by their names, except those that run other commands.
-/

namespace AmountWalk.Shell

namespace Builtin

/-- Test an expression. -/
def test (s : Session) (arguments : List Text) : Session :=
  match Test.outcome s arguments with
  | .ok outcome => s.verdict outcome
  | .error message => s.fail message

/-- Test an expression in front of a closing square bracket. -/
def bracket (s : Session) (arguments : List Text) : Session :=
  if (arguments.getLast?.getD []).head? = some ']' then test s arguments.dropLast
  else s.fail "missing ]".toList

/-- Leave loops, or go on with their next turns. -/
def leaveLoops (flow : Nat → Flow) (s : Session) (arguments : List Text) : Session :=
  let text := arguments.headD ['1']
  withNumber s text fun n =>
    if n = 0 then s.fail ("Illegal number: ".toList ++ text)
    else if s.loops = 0 then s.done 0
    else { s.done 0 with flow := flow (min n s.loops) }

/-- Leave a function or a script. -/
def leave (s : Session) (arguments : List Text) : Session :=
  match arguments with
  | [] => { s with flow := .returning false }
  | text :: _ => withNumber s text fun n => { s.done n with flow := .returning true }

/-- End the shell, with the status before a command for a signal if none is given there. -/
def exit (s : Session) (arguments : List Text) : Session :=
  match arguments with
  | [] => { s.done (s.statusBefore.getD s.status) with flow := .exiting }
  | text :: _ => withNumber s text fun n => { s.done n with flow := .exiting }

/-- Write the time that was used. -/
def times (s : Session) (_ : List Text) : Session :=
  let zero := "0m0.000000s 0m0.000000s".toList
  (s.done 0).printLines [zero, zero]

/-- The builtins that change a session at once, by their names. -/
def table : List (String × (Session → List Text → Session)) :=
  [(":", fun s _ => s.done 0), ("true", fun s _ => s.done 0), ("false", fun s _ => s.done 1),
    ("echo", echo), ("printf", printf), ("test", test), ("[", bracket), ("export", exportVariables),
    ("readonly", protectVariables), ("local", localVariables), ("unset", unset), ("shift", shift),
    ("set", setOptions), ("getopts", getopts), ("cd", cd), ("chdir", cd), ("pwd", pwd), ("trap", trap),
    ("kill", kill), ("alias", setAliases), ("unalias", removeAliases), ("hash", hash), ("type", type),
    ("command", describeOne), ("umask", umask), ("ulimit", ulimit), ("jobs", jobs), ("fg", resume),
    ("bg", resume), ("times", times), ("break", leaveLoops .breaking),
    ("continue", leaveLoops .continuing), ("return", leave), ("exit", exit)]

/-- Whether a builtin sets the variables that its arguments name. -/
def setsVariables (name : Text) : Bool :=
  ["alias", "export", "local", "readonly"].any fun word => name == word.toList

end Builtin

end AmountWalk.Shell
