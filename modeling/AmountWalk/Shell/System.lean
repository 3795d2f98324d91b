import AmountWalk.Files

/-!
# The system around a shell

The programs and files that a shell finds in every system, and what a process can tell of directories
and devices. A program is known by its place: what stands there is a program as long as nobody has
written to it.
-/

namespace AmountWalk.Shell

/-- A program that every system has. -/
inductive Tool where
  | shell
  | success
  | failure
  /-- Writes its arguments. -/
  | echo
  /-- Writes the contents of files. -/
  | cat
  /-- Waits for some time. -/
  | sleep
  deriving DecidableEq

namespace Tool

/-- What stands in the file of such a program, as far as anybody looks at it. -/
def content : Utf8.Bytes := 0x7F :: Utf8.ofString "ELF"

/-- The programs that every system has, by their paths. -/
def common : List (String × Tool) :=
  [("/usr/bin/bash", .shell), ("/usr/bin/cat", .cat), ("/usr/bin/dash", .shell), ("/usr/bin/echo", .echo),
    ("/usr/bin/false", .failure), ("/usr/bin/sleep", .sleep), ("/usr/bin/true", .success)]

/-- The program whose file stands at a place. -/
def at? (files : Files) (location : Location) : Option Tool :=
  if files.node? location = some (.file content true) then
    (common.find? fun (path, _) => PathText.location path == location).map Prod.snd
  else none

end Tool

/-! ## Files -/

/-- The files that every system has besides programs, with their contents. -/
def commonFiles : List (String × String) :=
  [("/etc/group", "root:x:0:\n"), ("/etc/passwd", "root:x:0:0:root:/root:/bin/bash\n")]

/-- What stands where in every system in which a shell runs. -/
def commonNodes : List (Location × Node) :=
  Files.commonNodes
    ++ Tool.common.map (fun (path, _) => (PathText.location path, Node.file Tool.content true))
    ++ commonFiles.map fun (path, content) =>
      (PathText.location path, Node.file (Utf8.ofString content) false)

/-- The tree of such a system with an empty working directory. -/
def system (workingDir : Location) : Files := .makeDirsFrom ⟨commonNodes, workingDir⟩ [] workingDir

def placeOf (device : Device) : Location :=
  ((Files.commonDevices.find? (·.2 == device)).map fun (path, _) => PathText.location path).getD []

/-- The paths of the directories in which everybody may make files and nobody may remove those of others. -/
def stickyDirs : List String := ["/dev/shm", "/tmp", "/var/tmp"]

/-- Whether the directory at a place is such a directory. -/
def isSticky (place : Location) : Bool :=
  stickyDirs.any fun path => PathText.location path == place

end AmountWalk.Shell
