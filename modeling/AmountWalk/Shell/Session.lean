import AmountWalk.Shell.Grammar
import AmountWalk.Shell.World

/-!
# The state of a shell

What a process knows while it runs a script: its variables, functions and arguments, the processes it
has started, the status of the last command, and whether the script goes on. The world around it is a
part of this state, because every command may change it.
-/

namespace AmountWalk.Shell

/-- How a script goes on after a command. -/
inductive Flow where
  /-- With the next command. -/
  | on
  /-- Behind so many loops. -/
  | breaking (loops : Nat)
  /-- With the next turn of the loop, so many loops further out. -/
  | continuing (loops : Nat)
  /-- Behind the function or script that is being run, perhaps with a status of its own. -/
  | returning (isGiven : Bool)
  /-- Not at all, because of an error. -/
  | failed
  /-- Not at all, because it was told to end. -/
  | exiting
  deriving DecidableEq

structure Variable where
  value : Option Text
  /-- Whether programs that are started get it. -/
  exported : Bool
  /-- Whether it keeps its value for ever. -/
  readOnly : Bool

/-- A list of entries with names. -/
abbrev Named (α : Type) := List (Text × α)

namespace Named

variable {α : Type}

def get? (entries : Named α) (name : Text) : Option α := entries.lookup name

def put (entries : Named α) (name : Text) (entry : α) : Named α :=
  (name, entry) :: entries.filter (·.1 ≠ name)

/-- The entries with another one of the name, which keeps its place. -/
def replace (entries : Named α) (name : Text) (entry : α) : Named α :=
  match entries with
  | [] => [(name, entry)]
  | first :: rest =>
    if first.1 = name then (name, entry) :: rest else first :: replace rest name entry

def erase (entries : Named α) (name : Text) : Named α := entries.filter (·.1 ≠ name)

/-- The entries in the order of their names. -/
def sorted (entries : Named α) : Named α :=
  entries.mergeSort fun a b => !decide (b.1 < a.1)

/-- A number that is made of a name. -/
def slot (name : Text) : Nat :=
  name.foldl (fun sum ch => sum + ch.toNat) (16 * (name.headD '\x00').toNat)

/-- The entries in the order of a table with so many slots. -/
def inSlots (entries : Named α) (count : Nat) : Named α :=
  entries.mergeSort fun a b => slot a.1 % count ≤ slot b.1 % count

end Named

/-- What is restored at the end of a command. -/
inductive Saved where
  | variable_ (name : Text) (before : Option Variable)
  | options (before : List Char)

/-- Where a program was found. -/
structure Found where
  /-- Which of the directories that are searched it is in, counted from zero. -/
  index : Nat
  /-- Whether the working directory has changed since. -/
  isStale : Bool

/-- Processes that were started together. -/
structure Job where
  /-- The number of the job. -/
  number : Nat
  /-- The processes, and how those have ended that have. -/
  processes : Numbered (Option ExitStatus)
  /-- Whether its end has been waited for. -/
  hasWaited : Bool

namespace Job

/-- Whether one of the processes has not ended. -/
def isRunning (job : Job) : Bool := job.processes.any (·.2.isNone)

/-- How the last process has ended, if it has. -/
def ending? (job : Job) : Option ExitStatus := job.processes.getLast?.bind (·.2)

end Job

/-- The greatest amounts of something that a process may use. -/
structure Limit where
  /-- The amount that counts. -/
  soft : Option Nat
  /-- The greatest amount that may be chosen. -/
  hard : Option Nat

/-- The state of a shell. -/
structure Session where
  /-- What it shares with other processes. -/
  world : World
  /-- The number of the process. -/
  process : Nat
  /-- The number of the process that runs the script. -/
  shell : Nat
  /-- The path of the script, or the name of the program. -/
  script : Text
  /-- The channels from which scripts are read, the innermost first. -/
  inputs : List Nat
  /-- The builtin that is being run, as messages call it. -/
  builtin : Option Text
  arguments : List Text
  bindings : Named Variable
  functions : Named Command
  /-- The documents in the script by number. -/
  documents : Array Word
  /-- The other names of commands. -/
  aliases : Named Text
  /-- Where programs were found. -/
  found : Named Found
  /-- What is restored at the end of each command that is being run, last first. -/
  frames : List (List Saved)
  /-- The number of functions that are being run. -/
  depth : Nat
  /-- The number of texts that are being run as scripts. -/
  texts : Nat
  /-- The commands to be run at a signal, or at the end for the signal zero. -/
  traps : Numbered Text
  /-- The letters of the options that are on. -/
  options : List Char
  /-- The working directory. -/
  directory : Location
  /-- The path that led to it. -/
  path : Text
  /-- The permissions that new files do not get. -/
  mask : Nat
  /-- The limits, by the letters that stand for them. -/
  limits : List (Char × Limit)
  /-- The last process in the background. -/
  background : Option Nat
  /-- The jobs, the current one first. -/
  jobs : List Job
  /-- The number of loops around the command. -/
  loops : Nat
  /-- The argument at which the search for options goes on. -/
  optionIndex : Nat
  /-- The place inside the argument before it, if that is not at its end. -/
  optionOffset : Option Nat
  /-- The line of the command. -/
  line : Nat
  /-- The line that is read next. -/
  nextLine : Nat
  /-- Whether the end of a script has been read ahead: the next commands to be read are then none. -/
  isAhead : Bool
  /-- What a builtin has written and not passed on, last text first. -/
  output : List Text
  /-- Whether the beginning of such a list is being computed. -/
  isListing : Bool
  /-- The status of the last command. -/
  status : Nat
  /-- The status before the commands for a signal, if such are being run. -/
  statusBefore : Option Nat
  /-- The status of the last command whose output was taken. -/
  substituted : Nat
  /-- How the script goes on. -/
  flow : Flow

namespace Session

/-! ## Going on -/

/-- Whether the script goes on with the next command. -/
def isOn (s : Session) : Bool := s.flow == .on

/-- The session after a command with this status. -/
def done (s : Session) (status : Nat) : Session := { s with status }

/-- The session after a command that succeeded or failed. -/
def verdict (s : Session) (success : Bool) : Session := s.done (if success then 0 else 1)

def has (s : Session) (letter : Char) : Bool := s.options.contains letter

/-- Whether this is another process, started for a part of the script. -/
def isSubshell (s : Session) : Bool := s.process != s.shell

/-! ## Channels -/

/-- The opened file that a channel leads to. -/
def channel? (s : Session) (channel : Nat) : Option Nat :=
  (s.world.channels s.process).get? channel

/-- The session in which a channel leads to an opened file, or nowhere. -/
def lead (s : Session) (channel : Nat) (number : Option Nat) : Session :=
  { s with world := s.world.lead s.process channel number }

/-- The session in which a channel leads to what is opened now. -/
def openAt (s : Session) (channel : Nat) (file : Opened) : Session :=
  { s with world := s.world.openAt s.process channel file }

/-- The session in which a channel reads a text. -/
def leadToText (s : Session) (channel : Nat) (text : Text) : Session :=
  let (world, pipe) := s.world.makePipe (.ofText text none)
  { s with world }.openAt channel (.toRead (.pipe pipe))

/-- The number of channels that there may be, if that is limited. -/
def channelLimit (s : Session) : Option Nat := (s.limits.lookup 'n').bind Limit.soft

/-- Whether there may be a channel with a number. -/
def allows (s : Session) (channel : Nat) : Bool := s.channelLimit.all (channel < ·)

/-- The least channels from a given one on that lead nowhere: as many as are asked for. -/
def freeFrom (s : Session) (least count : Nat) : List Nat :=
  let used := (s.world.channels s.process).map (·.1)
  let candidates := (List.range (used.length + count)).map (least + ·)
  (candidates.filter (!used.contains ·)).take count

/-- The channel at which the next file is opened. -/
def nextChannel (s : Session) : Except IoError Nat :=
  let channel := (s.freeFrom 0 1).headD 0
  if s.allows channel then .ok channel else .error .tooManyOpen

/-- The least channel that a script cannot name. -/
def firstPlace : Nat := 10

/-- The channel at which the next one is put away. -/
def nextPlace (s : Session) : Except IoError Nat :=
  let channel := (s.freeFrom firstPlace 1).headD firstPlace
  if s.allows channel then .ok channel
  else .error (if s.allows firstPlace then .tooManyOpen else .outOfBounds)

/-- Whether a pipe can be made while so many other channels are in use that do not count as such. -/
def mayMakePipe (s : Session) (others : Nat) : Bool :=
  (s.freeFrom 0 (others + 2)).all s.allows

/-- Write to the opened file with a number, and tell whether that was possible. -/
def writeTo (s : Session) (number? : Option Nat) (text : Text) : Session × Bool :=
  match number? with
  | none => (s, false)
  | some number =>
    let (world, success) := s.world.write s.process number text
    ({ s with world }, success)

/-- Write to the channel of errors. -/
def warn (s : Session) (text : Text) : Session := (s.writeTo (s.channel? 2) text).1

/-! ## Errors -/

/-- Write a message. -/
def complain (s : Session) (message : Text) : Session :=
  let behind (text : Text) : Text := text ++ ": ".toList
  let head := behind s.script ++ behind (digitsOf s.line)
  s.warn (head ++ (s.builtin.map behind).getD [] ++ message ++ ['\n'])

def fail (s : Session) (message : Text) : Session :=
  { s.complain message with status := 2, flow := .failed }

/-- Why a file cannot be used, where other words than those of the operating system may say that there is
none. -/
def reason (missing : String) (error : IoError) : Text :=
  match error with
  | .notFound | .notADirectory | .nulInPath | .nulInArgument => missing.toList
  | error => error.words.toList

/-! ## Variables -/

/-- The value of a variable. -/
def value? (s : Session) (name : Text) : Option Text :=
  (s.bindings.get? name).bind Variable.value

/-- The value of a variable, empty if it has none. -/
def valueOf (s : Session) (name : String) : Text := (s.value? name.toList).getD []

/-- The session with another entry for a variable. -/
def bind (s : Session) (name : Text) (binding : Variable) : Session :=
  { s with bindings := s.bindings.put name binding }

/-- The session in which the search for options goes on at the argument that a text numbers. -/
def searchFrom (s : Session) (text : Text) : Except Text Session :=
  match count? text with
  | some n => .ok { s with optionIndex := max 1 n, optionOffset := none }
  | none => .error ("Illegal number: ".toList ++ text)

/-- The session after a variable got a value: some variables steer what the shell does. -/
def heed (s : Session) (name value : Text) : Except Text Session :=
  if name = "OPTIND".toList then s.searchFrom value
  else if name = "PATH".toList then .ok { s with found := [] }
  else .ok s

/-- Set a variable, if that is allowed, perhaps for programs too. -/
def assignAs (isExported : Bool) (name value : Text) (s : Session) : Except Text Session :=
  let before := (s.bindings.get? name).getD ⟨none, false, false⟩
  if before.readOnly then .error (name ++ ": is read only".toList)
  else
    let exported := isExported || before.exported || s.has 'a'
    (s.bind name { before with value := some value, exported }).heed name value

/-- Set a variable, if that is allowed. -/
def assign (name value : Text) (s : Session) : Except Text Session := s.assignAs false name value

/-- Set a variable, or fail. -/
def set (s : Session) (name value : Text) : Session :=
  match s.assign name value with
  | .ok s => s
  | .error message => s.fail message

/-- Remove a variable, if that is allowed. -/
def unset (s : Session) (name : Text) : Except Text Session :=
  match s.bindings.get? name with
  | none => .ok s
  | some binding =>
    if binding.readOnly then .error (name ++ ": is read only".toList)
    else { s with bindings := s.bindings.erase name }.heed name []

/-- The characters that separate fields. -/
def separators (s : Session) : Text := (s.value? "IFS".toList).getD [' ', '\t', '\n']

/-! ### What is restored -/

/-- The session that will restore something at the end of the command. -/
def save (s : Session) (saved : Saved) : Session :=
  match s.frames with
  | [] => s
  | frame :: frames => { s with frames := (saved :: frame) :: frames }

/-- The session that will restore a variable at the end of the command. -/
def saveVariable (s : Session) (name : Text) : Session :=
  s.save (.variable_ name (s.bindings.get? name))

/-- The session in which something is as it was, if nothing has failed. A variable that there was not cannot
be removed if no variable can have its name. -/
def restoreOne (s : Session) (saved : Saved) : Session :=
  match saved with
  | .options before => if s.flow = .failed then s else { s with options := before }
  | .variable_ name before =>
    if s.flow = .failed then s
    else if before.isNone && !isName name then s.fail (name ++ ": bad variable name".toList)
    else
      let s :=
        match before with
        | none => { s with bindings := s.bindings.erase name }
        | some binding => s.bind name binding
      match s.heed name ((before.bind Variable.value).getD []) with
      | .ok s => s
      | .error _ => s

/-- The session at the end of a command, of which only so many around it have not ended. -/
def leaveFrames (s : Session) (count : Nat) : Session :=
  let frames := s.frames.drop (s.frames.length - count)
  let ended := (s.frames.take (s.frames.length - count)).flatten
  { ended.foldl restoreOne s with frames }

/-! ## Files -/

/-- The place at which a process finds what a channel of it leads to. -/
def channelPlace (channel : Nat) : Location :=
  PathText.location Files.channelDir ++ [(digitsOf channel).toBytes]

/-- The place at which a pipe stands for the processes that have it open. No path leads there but by their
channels. -/
def pipePlace (number : Nat) : Location := PathText.location ("/proc/pipe/" ++ toString number)

/-- What a process finds there: a link to it. A pipe is one more device among the files. -/
def channelNodes (channel : Nat) : Target → List (Location × Node)
  | .file place | .directory place => [(channelPlace channel, .link place)]
  | .device device => [(channelPlace channel, .link (Shell.placeOf device))]
  | .pipe number => [(channelPlace channel, .link (pipePlace number)), (pipePlace number, .device .null)]

/-- What the channels of the process lead to. -/
def targets (s : Session) : Numbered Target :=
  (s.world.channels s.process).filterMap fun (channel, number) =>
    (s.world.opened.get? number).map fun file => (channel, file.target)

/-- The files, as the process sees them from the working directory. -/
def files (s : Session) : Files :=
  let seen := s.targets.flatMap fun (channel, target) => channelNodes channel target
  { nodes := s.world.files.nodes ++ seen, workingDir := s.directory }

/-- The pipe that the process finds at a place. -/
def pipeAt? (s : Session) (location : Location) : Option Target :=
  s.targets.findSome? fun
    | (_, .pipe number) => if pipePlace number = location then some (.pipe number) else none
    | _ => none

/-- The files, as the process sees them while it reads the names in a directory. -/
def filesListed (s : Session) : Files :=
  match s.nextChannel with
  | .ok channel => { s.files with nodes := s.files.nodes ++ channelNodes channel (.directory []) }
  | .error _ => s.files

/-- What a path leads to. -/
def target (s : Session) (path : Text) : Except IoError Target := do
  match ← s.files.locate path.toBytes with
  | (location, .directory) => return .directory location
  | (location, .file _ _) => return .file location
  | (location, .device device) => return (s.pipeAt? location).getD (.device device)
  | (_, .link _) => throw .notFound

/-- Whether a path names a link. -/
def isLink (s : Session) (path : Text) : Bool :=
  match s.files.spot path.toBytes with
  | .error _ => false
  | .ok location =>
    match s.files.node? location with
    | some (.link _) => true
    | _ => false

/-- Whether the file at a place is a program. -/
def isProgram (s : Session) (location : Location) : Bool := s.world.files.isProgram location

/-! ## Signals -/

/-- The session whose process takes signals as its commands for them say. What it ignored from the
beginning it ignores for ever. -/
def withSignals (s : Session) : Session :=
  { s with
    world := s.world.change s.process fun p =>
      { p with
        ignored :=
          p.deaf ++ (s.traps.filter fun (n, command) => command = [] && !p.deaf.contains n).map (·.1)
        caught :=
          (s.traps.filter fun (n, command) =>
            n != 0 && command != [] && !p.deaf.contains n).map (·.1) } }

/-! ## Jobs -/

/-- Note how a process has ended. -/
def noteEnd (s : Session) (process : Nat) (ending : ExitStatus) : Session :=
  { s with
    jobs := s.jobs.map fun job =>
      if (job.processes.get? process).isSome then
        { job with processes := job.processes.put process (some ending) }
      else job }

/-- Note how all processes have ended that have. -/
def collectAll (s : Session) : Session :=
  (s.jobs.flatMap fun job => job.processes.filter (·.2.isNone)).foldl
    (fun s (process, _) =>
      match s.world.collect? process with
      | some (ending, world) => { s with world }.noteEnd process ending
      | none => s)
    s

/-- The least number that no job has. Jobs whose end has been waited for make room. -/
def freeJob (s : Session) : Nat × Session :=
  let isUsed (jobs : List Job) (n : Nat) : Bool := jobs.any (·.number == n)
  let isOver (n : Nat) : Bool := s.jobs.any fun job => job.number == n && job.hasWaited && !job.isRunning
  let numbers := (List.range (s.jobs.length + 1)).map (· + 1)
  let number := (numbers.find? fun n => !isUsed s.jobs n || isOver n).getD 1
  (number, { s with jobs := s.jobs.filter (·.number ≠ number) })

/-- Start a job without processes; its number. -/
def makeJob (s : Session) : Nat × Session :=
  let (number, s) := s.freeJob
  (number, { s with jobs := ⟨number, [], false⟩ :: s.jobs })

def job? (s : Session) (number : Nat) : Option Job := s.jobs.find? (·.number = number)

/-- The session with something changed about a job. -/
def changeJob (s : Session) (number : Nat) (f : Job → Job) : Session :=
  { s with jobs := s.jobs.map fun job => if job.number = number then f job else job }

def dropJob (s : Session) (number : Nat) : Session :=
  { s with jobs := s.jobs.filter (·.number ≠ number) }

/-- The status of a job that has ended, as its shell gets it. -/
def codeOf : ExitStatus → Nat
  | .exited code => code.toNat
  | .killed signal => 128 + signal

/-! ## Beginnings -/

/-- The variables that every shell sets. -/
def ownValues : List (String × String) := [("IFS", " \t\n"), ("OPTIND", "1")]

/-- The variables that every shell sets if it does not get them. -/
def commonValues : List (String × String) := [("PS1", "# "), ("PS2", "> "), ("PS4", "+ ")]

/-- The variables of a shell that gets some, with the process that has started it. -/
def firstBindings (parent : Nat) (given : Named Variable) : Named Variable :=
  let put (all : Named Variable) (name value : Text) : Named Variable :=
    all.put name ⟨some value, (all.get? name).any Variable.exported, false⟩
  let all := commonValues.foldl
    (fun all (name, value) =>
      if (all.get? name.toList).isSome then all else put all name.toList value.toList)
    given
  let all := ownValues.foldl (fun all (name, value) => put all name.toList value.toList) all
  put all "PPID".toList (digitsOf parent)

/-- The limits of every shell. -/
def commonLimits : List (Char × Limit) :=
  [('t', ⟨none, none⟩), ('f', ⟨none, none⟩), ('d', ⟨none, none⟩), ('s', ⟨some 8388608, none⟩),
    ('c', ⟨some 0, none⟩), ('m', ⟨none, none⟩), ('l', ⟨some 8388608, some 8388608⟩),
    ('p', ⟨none, none⟩), ('n', ⟨some 1024, some 1048576⟩), ('v', ⟨none, none⟩), ('w', ⟨none, none⟩),
    ('r', ⟨some 0, some 0⟩)]

/-- The session of a program that is started. It gets its arguments, of which the first is its name, the
variables that are exported, the working directory, the mask of permissions and the limits. -/
def start (world : World) (process : Nat) (arguments : List Text) (exported : Named Variable)
    (directory : Location) (mask : Nat) (limits : List (Char × Limit)) : Session where
  world
  process
  shell := process
  script := arguments.headD []
  inputs := []
  builtin := none
  arguments := arguments.tail
  bindings := firstBindings (((world.processes.get? process).map Process.parent).getD 0) exported
  functions := []
  documents := #[]
  aliases := []
  found := []
  frames := []
  depth := 0
  texts := 0
  traps := []
  options := []
  directory
  path := []
  mask
  limits
  background := none
  jobs := []
  loops := 0
  optionIndex := 1
  optionOffset := none
  line := 0
  nextLine := 1
  isAhead := false
  output := []
  isListing := false
  status := 0
  statusBefore := none
  substituted := 0
  flow := .on

/-- The session in which another process runs a part of the script. It does not read the script. -/
def forked (s : Session) (world : World) (process : Nat) : Session :=
  withSignals
    { s with
      world := s.inputs.foldl (fun world channel => world.lead process channel none) world
      process
      inputs := []
      traps := s.traps.filter fun (_, command) => command = []
      jobs := [] }

end Session

end AmountWalk.Shell
