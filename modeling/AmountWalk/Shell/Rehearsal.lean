import AmountWalk.Render
import AmountWalk.Shell.Program

/-!
# Rehearsals

A `Host` whose programs are small shell scripts, for trying out what a drawing program may do to a
rendering without starting one. Everything stands below one directory: the scripts in a directory of
their own, the only one in which programs are looked up by name, and beside it the working directory.

A rehearsal is one host among all: what is proved of renderings holds for any `Host`, and nothing
outside `Shell` depends on the shell that runs these scripts.
-/

namespace AmountWalk

/-- A place for rehearsals. -/
structure Rehearsal where
  /-- The path of the directory below which everything stands. -/
  base : String

namespace Rehearsal

variable (rehearsal : Rehearsal)

/-- The place of the working directory. -/
def workingDir : Location := PathText.location (rehearsal.base ++ "/work")

/-- The path of the directory of the scripts. -/
def programDir : String := rehearsal.base ++ "/bin"

/-- The first line of a script, which names the shell. -/
def firstLine : List Char := "#!/bin/sh\n".toList

/-- The number of bytes that programs have for their stacks. -/
def stackSize : Nat := 8388608

/-- The tree in which the scripts stand in their directory. -/
def install (scripts : List (String × List Char)) : Files :=
  let place := PathText.location rehearsal.programDir
  let files := (Shell.system rehearsal.workingDir).makeDirsFrom [] place
  scripts.foldl
    (fun files (name, script) =>
      files.put (place ++ [Utf8.ofString name])
        (.file (Utf8.encode (firstLine ++ script ++ ['\n'])) true))
    files

/-- The path that leads to the program with a name. -/
def pathOf (program : String) : String :=
  if program.toList.contains '/' then program else rehearsal.programDir ++ "/" ++ program

/-- The environment of programs. -/
def environment (files : Files) : List (Shell.Text × Shell.Text) :=
  Shell.environment (Shell.Text.ofString rehearsal.programDir)
    (Shell.Builtin.pathOf files.workingDir)

/-- What runs when a program is started by its name, or the refusal to start it. -/
def image (files : Files) (program : String) (arguments : List String) : Except IoError Shell.Image :=
  let name := Utf8.ofString program
  if (program :: arguments).any fun text => text.toList.contains '\x00' then
    .error .nulInArgument
  else if name = [] then .error .notFound
  else if PathText.maxComponent < name.length ∧ !name.contains PathText.slash then
    .error .nameTooLong
  else
    let path := Utf8.ofString (rehearsal.pathOf program)
    let arguments := name :: arguments.map Utf8.ofString
    let environment :=
      (rehearsal.environment files).map fun (name, value) => (name ++ '=' :: value).toBytes
    let isThere := files.locate path
    if isThere.toOption.isSome && !Shell.Image.fits (Shell.Image.roomIn (some stackSize)) path arguments environment then
      .error .argumentsTooLong
    else Shell.Image.start files path arguments

/-- Run a program to its end. -/
def launch (program : String) (arguments : List String) (files : Files) : Launch :=
  match rehearsal.image files program arguments with
  | .error error => .refused error
  | .ok image =>
    let done := Shell.runImage files image (Shell.Text.ofString rehearsal.programDir)
    .ended done.status done.errors done.files

/-- A host whose programs are the scripts. -/
def host : Host where
  run := rehearsal.launch
  spawn program arguments files :=
    match rehearsal.image files program arguments with
    | .error error => some error
    | .ok _ => none

end Rehearsal

end AmountWalk
