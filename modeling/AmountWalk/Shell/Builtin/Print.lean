import AmountWalk.Shell.Builtin.Basic
import AmountWalk.Shell.Printf

/-!
# Builtins that write their arguments

`echo` and `printf`.
-/

namespace AmountWalk.Shell.Builtin

/-- Write arguments with blanks between them. -/
def echo (s : Session) (arguments : List Text) : Session :=
  let (words, lineEnd) :=
    match arguments with
    | ['-', 'n'] :: rest => (rest, [])
    | _ => (arguments, ['\n'])
  let resolved := unescape ([' '].intercalate words)
  (s.print (if resolved.ended then resolved.text else resolved.text ++ lineEnd)).done 0

/-- Write arguments by a format. -/
def printf (s : Session) (arguments : List Text) : Session :=
  withOptions s "" arguments fun _ arguments =>
    match arguments with
    | [] => s.fail "usage: printf format [arg ...]".toList
    | format :: arguments =>
      let p := Printing.ofFormat format arguments
      let complaints := p.complaints.reverse
      let s := (complaints.foldl Session.complain s).print p.output.reverse
      match p.flaw with
      | some flaw => s.fail flaw
      | none => s.verdict complaints.isEmpty

end AmountWalk.Shell.Builtin
