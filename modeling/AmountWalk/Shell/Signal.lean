import AmountWalk.ExitStatus

/-!
# Signals as a shell knows them

The numbers of those that a shell deals with, and what it says of a process that one has ended.
-/

namespace AmountWalk.Shell.Signal

/-- The signal from a user who wants to end a program. -/
def interrupt : Nat := 2

/-- The signal from a user who wants to end a program that has gone wrong. -/
def quit : Nat := 3

/-- The signal that ends a process in any case. -/
def kill : Nat := 9

/-- The signal that ends a process unless it does something else. -/
def terminate : Nat := 15

/-- The signal about an operation that has no result. -/
def arithmetic : Nat := 8

/-- The signal of a process that uses memory which it does not have. -/
def badAddress : Nat := 11

/-- The signal to a process that writes what nobody reads. -/
def brokenPipe : Nat := 13

/-- The signal to a process when one that it has started ends. -/
def child : Nat := 17

/-- The signal to a process that writes too much to a file. -/
def fileTooLong : Nat := 25

/-- Whether a process goes on at a signal that it does not expect. -/
def isHarmless (signal : Nat) : Bool := [17, 18, 19, 20, 21, 22, 23, 28].contains signal

/-- The first of the signals without a meaning of their own. -/
def firstFree : Nat := 34

/-- The last signal. -/
def last : Nat := 64

/-- What has happened to a process that a signal has ended. -/
def description (signal : Nat) : String :=
  match signal with
  | 1 => "Hangup"
  | 2 => "Interrupt"
  | 3 => "Quit"
  | 4 => "Illegal instruction"
  | 5 => "Trace/breakpoint trap"
  | 6 => "Aborted"
  | 7 => "Bus error"
  | 8 => "Floating point exception"
  | 9 => "Killed"
  | 10 => "User defined signal 1"
  | 11 => "Segmentation fault"
  | 12 => "User defined signal 2"
  | 13 => "Broken pipe"
  | 14 => "Alarm clock"
  | 15 => "Terminated"
  | 16 => "Stack fault"
  | 24 => "CPU time limit exceeded"
  | 25 => "File size limit exceeded"
  | 26 => "Virtual timer expired"
  | 27 => "Profiling timer expired"
  | 29 => "I/O possible"
  | 30 => "Power failure"
  | 31 => "Bad system call"
  | _ =>
    if signal < firstFree then "Unknown signal " ++ toString signal
    else "Real-time signal " ++ toString (signal - firstFree)

/-- Whether a process may be ended by a signal without a word. -/
def isQuiet (signal : Nat) : Bool := signal == interrupt || signal == brokenPipe

end AmountWalk.Shell.Signal
