import AmountWalk.Shell.Run

/-!
# Programs from start to end

A program that somebody starts reads nothing, and all that it writes is collected. It has ended for the
one who waits for it when its process has, and when no other process can write more.
-/

namespace AmountWalk.Shell

/-- The greatest depth of commands and the greatest number of turns of a loop. -/
def maxSteps : Nat := 1000000

/-- The greatest number of turns that all processes take. -/
def maxTurns : Nat := 1000000000

/-- The greatest number of turns that are taken when nobody waits any more. -/
def maxLateTurns : Nat := 20000

/-- How a program has ended, what it has written as errors, and the files it has left. -/
structure ProgramEnd where
  /-- How it has ended. -/
  status : ExitStatus
  errors : Utf8.Bytes
  files : Files

/-- The number of the process that starts a program. -/
def firstProcess : Nat := 1000

/-- A process that waits for a program. -/
def Process.starter : Process where
  parent := 1
  channels := []
  deaf := []
  ignored := []
  caught := []
  arrived := []
  fileLimit := none
  stalled := none
  doomed := none
  wakes := none
  ending := none

/-- The variables that a program gets: the directories in which programs are searched, and the path of the
working directory. -/
def environment (searched directory : Text) : Named Text :=
  [("PATH".toList, searched), ("PWD".toList, directory)]

/-- Run a program to its end, with some directories to be searched for others. -/
def runImage (files : Files) (image : Image) (searched : Text) : ProgramEnd :=
  let world := World.ofFiles files firstProcess
  let world := { world with processes := [(firstProcess, Process.starter)] }
  let (world, process) := world.fork firstProcess
  let (world, output) := world.makePipe (.ofText [] none)
  let (world, errors) := world.makePipe (.ofText [] none)
  let world := world.openAt process 0 (.toRead (.device .null))
  let world := world.openAt process 1 (.toWrite (.pipe output))
  let world := world.openAt process 2 (.toWrite (.pipe errors))
  let directory := Builtin.pathOf files.workingDir
  let exported := (environment searched directory).map fun (name, value) =>
    (name, (⟨some value, true, false⟩ : Variable))
  let s := Session.start world process (image.arguments.map Text.ofBytes) exported files.workingDir
    0o022 Session.commonLimits
  let s := { s with path := directory }
  let start (world : World) : Activity :=
    runTool maxSteps image.tool (fun _ s => .ended s.world) { s with world }
  let isOver (world : World) : Bool :=
    world.hasEnded process && !world.hasWriter output && !world.hasWriter errors
  let (world, waiting) :=
    takeTurns isOver true maxTurns turnsAtOnce 0 world [⟨process, fun _ => true, start⟩]
  let (world, _) := takeTurns (fun _ => false) false maxLateTurns turnsAtOnce 0 world waiting
  { status := ((world.processes.get? process).bind Process.ending).getD (.exited 0)
    errors := (world.pipeText errors).toBytes
    files := { world.files with workingDir := files.workingDir } }

end AmountWalk.Shell
