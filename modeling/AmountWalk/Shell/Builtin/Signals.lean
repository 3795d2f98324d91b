import AmountWalk.Shell.Builtin.Jobs
import AmountWalk.Shell.Escape

/-!
# Builtins for signals

`trap`, which says what is done at a signal, and `kill`, which sends one.
-/

namespace AmountWalk.Shell.Builtin

/-- The greatest number of a signal, with one more. -/
def signalCount : Nat := Signal.last + 1

/-- The name of a signal; zero stands for the end of the shell. -/
def signalName (n : Nat) : Text :=
  let behind (mark : String) (number : Nat) : Text := mark.toList ++ digitsOf number
  match n with
  | 0 => "EXIT".toList
  | 16 => "16".toList
  | 34 => "RTMIN".toList
  | 64 => "RTMAX".toList
  | _ =>
    match Signal.name? n with
    | some name => name.toList
    | none =>
      if n < 34 ∨ 64 < n then digitsOf n
      else if n < 50 then behind "RTMIN+" (n - 34)
      else behind "RTMAX-" (64 - n)

/-- The signal that a number names. -/
def signalOfNumber? (text : Text) : Option Nat := (number? text).filter (· < signalCount)

/-- The signal that a number names, or a name from a given signal on. -/
def signal? (least : Nat) (text : Text) : Option Nat :=
  match number? text with
  | some _ => signalOfNumber? text
  | none =>
    (List.range signalCount).find? fun n =>
      least ≤ n && signalName n == text.map Char.toUpper

/-! ## What is done at a signal -/

def setTrap (s : Session) (signal : Nat) (command : Option Text) : Session :=
  let others := s.traps.erase signal
  Session.withSignals
    { s with
      traps :=
        match command with
        | none => others
        | some command => (signal, command) :: others }

/-- Set what is done at signals, up to one that there is not. -/
def setTraps (command : Option Text) : Session → List Text → Session
  | s, [] => s.done 0
  | s, text :: rest =>
    match signal? 0 text with
    | none => (s.warn ("trap: ".toList ++ text ++ ": bad trap\n".toList)).done 1
    | some n => setTraps command (setTrap s n command) rest

/-- List the commands that are run at signals, or set some. -/
def trap (s : Session) (arguments : List Text) : Session :=
  withOptions s "" arguments fun _ arguments =>
    match arguments with
    | [] =>
      let sorted := s.traps.mergeSort fun a b => a.1 ≤ b.1
      (s.done 0).printLines <|
        sorted.map fun (n, command) =>
          "trap -- ".toList ++ quotedText command ++ ' ' :: signalName n
    | first :: rest =>
      if rest.isEmpty || (signalOfNumber? first).isSome then setTraps none s arguments
      else setTraps (if first = ['-'] then none else some first) s rest

/-! ## Sending signals -/

/-- Send a signal to a process, if there is one with that number. Zero stands for all of them. -/
def sendTo (s : Session) (signal process : Nat) : Session × Bool :=
  let targets := if process = 0 then s.world.processes.map (·.1) else [process]
  if process ≠ 0 ∧ (s.world.processes.get? process).isNone then (s, false)
  else if signal = 0 then (s, true)
  else ({ s with world := targets.foldl (fun w p => w.signal s.process p signal) s.world }, true)

/-- Send a signal to processes. Groups of processes there are none. -/
def send (signal : Nat) (s : Session) (target : Text) : Session :=
  let missing (s : Session) : Session := (s.complain "No such process\n".toList).done 1
  match target with
  | '%' :: _ =>
    match job s false target with
    | .error message => s.fail message
    | .ok _ => missing s
  | '-' :: text => withNumber s text fun _ => missing s
  | _ =>
    withNumber s target fun process =>
      let (s, success) := sendTo s signal process
      if success then s else missing s

/-- How `kill` is used. -/
def killUsage : Text :=
  "Usage: kill [-s sigspec | -signum | -sigspec] [pid | job]... or\nkill -l [exitstatus]".toList

/-- List the signals, or name the one that has led to a status. -/
def listSignals (s : Session) : List Text → Session
  | [] =>
    (s.done 0).printLines ((List.range signalCount).map fun n => if n = 0 then ['0'] else signalName n)
  | text :: _ =>
    withNumber s text fun n =>
      let signal := if 128 < n then n - 128 else n
      if 0 < signal ∧ signal < signalCount then (s.done 0).printLine (signalName signal)
      else s.fail ("invalid signal number or exit status: ".toList ++ text)

/-- The signal that options choose, if they do. -/
def chosen (given : List Given) : Except Text (Option Nat) :=
  given.foldlM
    (fun before option =>
      if option.letter = 's' then
        match signal? 1 option.value with
        | some n => .ok (some n)
        | none => .error ("invalid signal number or name: ".toList ++ option.value)
      else .ok before)
    none

/-- Send a signal, or list the signals. -/
def kill (s : Session) (arguments : List Text) : Session :=
  let sendAll (signal : Nat) (targets : List Text) : Session :=
    if targets.isEmpty then s.fail killUsage else (s.done 0).forEach targets (send signal)
  match arguments with
  | [] => s.fail killUsage
  | ('-' :: text) :: rest =>
    match signal? 1 text with
    | some n => sendAll n rest
    | none =>
      match options ⟨"l", "s"⟩ arguments with
      | .error message => s.fail message
      | .ok (given, rest) =>
        match chosen given with
        | .error message => s.fail message
        | .ok signal? =>
          if given.any (·.letter == 'l') then
            if signal?.isSome then (if rest.isEmpty then listSignals s [] else s.fail killUsage)
            else listSignals s rest
          else sendAll (signal?.getD Signal.terminate) rest
  | targets => sendAll Signal.terminate targets

end AmountWalk.Shell.Builtin
