/-!
# How a process ends

With a code, or by a signal. The signals of Linux are told by number, and most of them have a name.
-/

namespace AmountWalk

/-- How a process has ended. -/
inductive ExitStatus where
  | exited (code : UInt8)
  | killed (signal : Nat)
  deriving DecidableEq

namespace Signal

/-- The names of the signals, from number one. -/
def names : List String :=
  ["HUP", "INT", "QUIT", "ILL", "TRAP", "ABRT", "BUS", "FPE", "KILL", "USR1", "SEGV", "USR2", "PIPE",
    "ALRM", "TERM", "STKFLT", "CHLD", "CONT", "STOP", "TSTP", "TTIN", "TTOU", "URG", "XCPU", "XFSZ",
    "VTALRM", "PROF", "WINCH", "IO", "PWR", "SYS"]

/-- The name of a signal. -/
def name? : Nat → Option String
  | 0 => none
  | n + 1 => names[n]?

end Signal

namespace ExitStatus

/-- The status in words. -/
def message : ExitStatus → String
  | exited code => "exit status: " ++ toString code
  | killed signal =>
    "signal: " ++ toString signal
      ++ (match Signal.name? signal with
        | some name => " (SIG" ++ name ++ ")"
        | none => "")

end ExitStatus

end AmountWalk
