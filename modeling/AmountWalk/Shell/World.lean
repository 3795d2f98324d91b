import AmountWalk.Shell.Signal
import AmountWalk.Shell.System
import AmountWalk.Shell.Text

/-!
# What processes share

Files, the places in them at which they are open, pipes, and the processes themselves as far as others
can tell. A channel of a process leads to an opened file, and several channels may lead to the same
one: they read and write at one common place.

A pipe ends for its reader when no process can write to it any more, and a process that writes to a
pipe that nobody reads gets a signal. That makes it matter which process holds which channels, so they
are kept here.
-/

namespace AmountWalk.Shell

/-! ## Numbered things -/

/-- Things with numbers. -/
abbrev Numbered (α : Type) := List (Nat × α)

namespace Numbered

variable {α : Type}

def get? (things : Numbered α) (number : Nat) : Option α := things.lookup number

def put (things : Numbered α) (number : Nat) (thing : α) : Numbered α :=
  match things with
  | [] => [(number, thing)]
  | first :: rest =>
    if first.1 = number then (number, thing) :: rest else first :: put rest number thing

def erase (things : Numbered α) (number : Nat) : Numbered α := things.filter (·.1 ≠ number)

end Numbered

/-! ## Opened files -/

/-- What is read from or written to. -/
inductive Target where
  | file (location : Location)
  | device (device : Device)
  /-- A directory, which cannot be read as a file. -/
  | directory (location : Location)
  | pipe (number : Nat)
  deriving DecidableEq

/-- An opened file. -/
structure Opened where
  /-- What was opened. -/
  target : Target
  /-- How many bytes stand in front of the next one. -/
  offset : Nat
  /-- Whether everything is written at the end. -/
  atEnd : Bool
  reads : Bool
  writes : Bool

namespace Opened

def toRead (target : Target) : Opened := ⟨target, 0, false, true, false⟩

def toWrite (target : Target) : Opened := ⟨target, 0, false, false, true⟩

end Opened

structure Pipe where
  /-- The text that is read next. -/
  front : Text
  /-- The text behind it, last character first. -/
  back : Text
  /-- The length of the text. -/
  length : Nat
  /-- How much it holds before writers have to wait. Without a limit, somebody outside reads it. -/
  capacity : Option Nat

namespace Pipe

def ofText (text : Text) (capacity : Option Nat) : Pipe := ⟨text, [], text.length, capacity⟩

def text (pipe : Pipe) : Text := if pipe.back.isEmpty then pipe.front else pipe.front ++ pipe.back.reverse

def append (pipe : Pipe) (text : Text) : Pipe :=
  { pipe with back := text.reverse ++ pipe.back, length := pipe.length + text.length }

/-- The pipe with less text in front. -/
def drop (pipe : Pipe) (count : Nat) : Pipe :=
  { pipe with front := pipe.text.drop count, back := [], length := pipe.length - count }

/-- Whether writers have to wait. -/
def isFull (pipe : Pipe) : Bool := pipe.capacity.any (· < pipe.length)

end Pipe

/-- How much a pipe between processes holds. -/
def pipeCapacity : Nat := 65536

/-! ## Processes -/

/-- What others can tell of a process. -/
structure Process where
  /-- The process that has started it. -/
  parent : Nat
  /-- The opened files that its channels lead to. -/
  channels : Numbered Nat
  /-- The signals that it cannot but ignore. -/
  deaf : List Nat
  /-- The signals that it ignores. -/
  ignored : List Nat
  /-- The signals for which it has a command. -/
  caught : List Nat
  /-- The signals of these that have arrived. -/
  arrived : List Nat
  /-- The greatest number of bytes in a file that it writes. -/
  fileLimit : Option Nat
  /-- The pipe that was full when it wrote to it. -/
  stalled : Option Nat
  /-- The signal that will end it before it goes on. -/
  doomed : Option Nat
  /-- The time for which it waits. -/
  wakes : Option Nat
  /-- How it has ended, if it has. -/
  ending : Option ExitStatus

/-- What processes share. -/
structure World where
  files : Files
  /-- The opened files. -/
  opened : Numbered Opened
  pipes : Numbered Pipe
  /-- The processes that are running or have ended without anybody noticing. -/
  processes : Numbered Process
  /-- A number greater than those of all opened files and pipes. -/
  nextNumber : Nat
  /-- The number of the process that was started last. -/
  lastProcess : Nat
  /-- The time, in nanoseconds. It passes only while all processes wait. -/
  clock : Nat
  /-- When what stands at a place was changed, if it was. -/
  changes : List (Location × Nat)

namespace World

/-- A world in which only files are given. -/
def ofFiles (files : Files) (firstProcess : Nat) : World := ⟨files, [], [], [], 0, firstProcess, 0, []⟩

/-- A process that has not ended. -/
def running? (w : World) (process : Nat) : Option Process :=
  (w.processes.get? process).filter (·.ending.isNone)

/-- The world with something changed about a process that has not ended. -/
def change (w : World) (process : Nat) (f : Process → Process) : World :=
  match w.running? process with
  | some p => { w with processes := w.processes.put process (f p) }
  | none => w

/-! ### Channels -/

def channels (w : World) (process : Nat) : Numbered Nat :=
  ((w.running? process).map Process.channels).getD []

/-- Whether a process that is running has an opened file with a property. -/
def isOpen (w : World) (p : Opened → Bool) : Bool :=
  w.processes.any fun (_, process) =>
    process.ending.isNone && process.channels.any fun (_, number) => (w.opened.get? number).any p

/-- Whether somebody can still write to a pipe. -/
def hasWriter (w : World) (pipe : Nat) : Bool := w.isOpen fun o => o.target == .pipe pipe && o.writes

/-- Whether somebody can still read a pipe. -/
def hasReader (w : World) (pipe : Nat) : Bool :=
  (w.pipes.get? pipe).any (·.capacity.isNone) || w.isOpen fun o => o.target == .pipe pipe && o.reads

/-- The world without opened files that no channel leads to, and without pipes that are not open. -/
def swept (w : World) : World :=
  let opened := w.opened.filter fun (number, _) =>
    w.processes.any fun (_, process) => process.channels.any fun (_, n) => n == number
  let pipes := w.pipes.filter fun (number, pipe) =>
    pipe.capacity.isNone || opened.any fun (_, o) => o.target == .pipe number
  { w with opened, pipes }

/-- Let a channel of a process lead to an opened file, or nowhere. -/
def lead (w : World) (process channel : Nat) (number : Option Nat) : World :=
  let before := (w.channels process).get? channel
  let w := w.change process fun p =>
    { p with
      channels :=
        match number with
        | some number => p.channels.put channel number
        | none => p.channels.erase channel }
  if before.isSome then w.swept else w

/-- Let a channel of a process lead to what is opened now. -/
def openAt (w : World) (process channel : Nat) (file : Opened) : World :=
  let number := w.nextNumber
  { w with opened := w.opened.put number file, nextNumber := number + 1 }.lead process channel
    (some number)

/-- Make a pipe; its number. -/
def makePipe (w : World) (pipe : Pipe) : World × Nat :=
  ({ w with pipes := w.pipes.put w.nextNumber pipe, nextNumber := w.nextNumber + 1 }, w.nextNumber)

def pipeText (w : World) (number : Nat) : Text := ((w.pipes.get? number).map Pipe.text).getD []

def dropPipe (w : World) (number : Nat) : World := { w with pipes := w.pipes.erase number }

/-! ### Signals and ends -/

/-- End a process. The one that has started it is told so. -/
def finish (w : World) (process : Nat) (status : ExitStatus) : World :=
  match w.running? process with
  | none => w
  | some p =>
    let ended := { p with channels := [], ending := some status }
    let w := { w with processes := w.processes.put process ended }
    let w :=
      w.change p.parent fun parent =>
        if parent.caught.contains Signal.child then
          { parent with arrived := Signal.child :: parent.arrived.erase Signal.child }
        else parent
    w.swept

/-- Let a process send a signal to another one or to itself. Another process ends only when it would go
on. -/
def signal (w : World) (sender process signal : Nat) : World :=
  match w.running? process with
  | none => w
  | some p =>
    let strike (w : World) : World :=
      if sender = process then w.finish process (.killed signal)
      else w.change process fun p => { p with doomed := some (p.doomed.getD signal) }
    if signal = Signal.kill then strike w
    else if p.ignored.contains signal then w
    else if p.caught.contains signal then
      { w with
        processes :=
          w.processes.put process { p with arrived := signal :: p.arrived.erase signal } }
    else if Signal.isHarmless signal then w
    else strike w

/-- End the processes that were sent a signal that does so. -/
def struck (w : World) : World :=
  if w.processes.any fun (_, p) => p.doomed.isSome && p.ending.isNone then
    w.processes.foldl
      (fun w (process, p) =>
        match p.doomed with
        | some signal => w.finish process (.killed signal)
        | none => w)
      w
  else w

/-- How a process has ended, and the world in which that has been noticed. -/
def collect? (w : World) (process : Nat) : Option (ExitStatus × World) :=
  ((w.processes.get? process).bind Process.ending).map fun status =>
    (status, { w with processes := w.processes.erase process })

def hasEnded (w : World) (process : Nat) : Bool := (w.running? process).isNone

/-- Start a process with the channels of another one; its number. -/
def fork (w : World) (process : Nat) : World × Nat :=
  let number := w.lastProcess + 1
  match w.running? process with
  | none => (w, number)
  | some p =>
    let child :=
      { p with
        parent := process, caught := [], arrived := [], stalled := none, doomed := none, wakes := none }
    ({ w with processes := w.processes.put number child, lastProcess := number }, number)

/-- The world in which a process runs another program. It keeps the channels below a given number, and
ignores for ever what it ignores now. -/
def reborn (w : World) (process kept : Nat) : World :=
  (w.change process fun p =>
    { p with
      channels := p.channels.filter (·.1 < kept), deaf := p.ignored, caught := [], arrived := [] }).swept

/-! ### Time -/

/-- The world at the next time for which a process waits, if one does. -/
def later? (w : World) : Option World :=
  let times := w.processes.filterMap fun (_, p) => p.wakes.filter fun time => w.clock < time
  times.min?.map fun time => { w with clock := time }

/-- The world in which what stands at a place has just been changed. -/
def touch (w : World) (location : Location) : World :=
  { w with changes := (location, w.clock) :: w.changes.filter (·.1 ≠ location) }

/-- When what stands at a place was changed. What every system has is older than all else. -/
def changedAt? (w : World) (location : Location) : Option Nat :=
  match w.changes.lookup location with
  | some time => some time
  | none => if commonNodes.any (·.1 == location) then none else some 0

/-- Whether what stands at a place was changed later than what stands at another one. -/
def isNewer (w : World) (location other : Location) : Bool :=
  match w.changedAt? location, w.changedAt? other with
  | some time, some before => before < time
  | some _, none => true
  | none, _ => false

/-! ### Reading and writing -/

/-- The content of the file at a place. -/
def content (w : World) (location : Location) : Utf8.Bytes :=
  match w.files.node? location with
  | some (.file content _) => content
  | _ => []

/-- What can be read from an opened file, and whether nothing may follow it. -/
def available (w : World) (file : Opened) : Text × Bool :=
  if !file.reads then ([], true)
  else
    match file.target with
    | .pipe pipe => (w.pipeText pipe, !w.hasWriter pipe)
    | .file location => (Text.ofBytes ((w.content location).drop file.offset), true)
    | .device _ | .directory _ => ([], true)

/-- Whether something can be read from an opened file, if only that nothing is left. -/
def isReadable (w : World) (file : Opened) : Bool :=
  match file.target with
  | .pipe pipe => !file.reads || (w.pipes.get? pipe).any (0 < ·.length) || !w.hasWriter pipe
  | _ => true

/-- Read bytes from the opened file with a number. -/
def consume (w : World) (number count : Nat) : World :=
  match w.opened.get? number with
  | none => w
  | some file =>
    match file.target with
    | .pipe pipe =>
      match w.pipes.get? pipe with
      | some p => { w with pipes := w.pipes.put pipe (p.drop count) }
      | none => w
    | .file _ => { w with opened := w.opened.put number { file with offset := file.offset + count } }
    | .device _ | .directory _ => w

/-- Put a text into a file from a place on. -/
def overwrite (before : Utf8.Bytes) (offset : Nat) (text : Text) : Utf8.Bytes :=
  if before.length ≤ offset then
    before ++ List.replicate (offset - before.length) 0 ++ text.toBytes
  else before.take offset ++ text.toBytes ++ before.drop (offset + text.length)

/-- Let a process write a text to the opened file with a number, and tell whether it could. Writing to
a pipe that nobody reads and writing too much to a file is told by a signal too. -/
def write (w : World) (process number : Nat) (text : Text) : World × Bool :=
  match w.opened.get? number with
  | none => (w, false)
  | some file =>
    if !file.writes then (w, false)
    else
      match file.target with
      | .directory _ | .device .full | .device .terminal => (w, false)
      | .device _ => (w, true)
      | .pipe pipe =>
        match w.pipes.get? pipe with
        | none => (w, false)
        | some p =>
          if w.hasReader pipe then
            let p := p.append text
            let w := { w with pipes := w.pipes.put pipe p }
            (if p.isFull then w.change process fun q => { q with stalled := some pipe } else w, true)
          else (w.signal process process Signal.brokenPipe, false)
      | .file location =>
        let before := w.content location
        let offset := if file.atEnd then before.length else file.offset
        let room? := ((w.running? process).bind Process.fileLimit).map (· - offset)
        let fits : Bool := room?.all (text.length ≤ ·)
        let text := if fits then text else text.take (room?.getD 0)
        let w :=
          if text = [] then w
          else
            { w.touch location with
              files := w.files.putContent location (overwrite before offset text)
              opened := w.opened.put number { file with offset := offset + text.length } }
        if fits then (w, true) else (w.signal process process Signal.fileTooLong, false)

/-- Whether a process need not wait for a reader of what it has written. -/
def mayGoOn (w : World) (process : Nat) : Bool :=
  match (w.running? process).bind Process.stalled with
  | none => true
  | some pipe => !(w.pipes.get? pipe).any Pipe.isFull || !w.hasReader pipe

/-- A process goes on behind what it has written, if somebody reads it. -/
def goOn (w : World) (process : Nat) : World :=
  match (w.running? process).bind Process.stalled with
  | none => w
  | some pipe =>
    let w := w.change process fun p => { p with stalled := none }
    if w.hasReader pipe then w else w.signal process process Signal.brokenPipe

end World

end AmountWalk.Shell
