import AmountWalk.Text.Utf8

/-!
# Files

A tree of directories, files and devices as a value, with a working directory in it, and the ways in
which an operating system refuses a path.

## Paths

Paths and the names in them are bytes. A path is split at its slashes. Empty components and `.` stay
where they are, `..` goes to the parent. Every component but the last has to be a directory. A *link*
stands for another place, where the next link may be; a chain of too many of them is refused.
`Files.write` creates or replaces a file: a path that ends in a slash, in `.` or in `..` names a
directory, and so cannot be written.
-/

namespace AmountWalk

/-- Why the operating system refuses. -/
inductive IoError where
  /-- There is no such file or directory. -/
  | notFound
  /-- There is nothing behind a device. -/
  | noDevice
  /-- The arguments of a program are too long. -/
  | argumentsTooLong
  /-- The file is no program. -/
  | notAProgram
  /-- Nothing is open there. -/
  | notOpen
  /-- The file may not be used in this way. -/
  | permissionDenied
  /-- Something inside a path is a file. -/
  | notADirectory
  /-- The path names a directory. -/
  | isADirectory
  /-- A number is out of its bounds. -/
  | outOfBounds
  /-- Nothing more can be opened. -/
  | tooManyOpen
  /-- The file is that of a program that runs. -/
  | isRunning
  /-- There is no room for more. -/
  | noSpace
  /-- The path or a component of it is too long. -/
  | nameTooLong
  /-- A file refers to another one too many times. -/
  | tooManyLinks
  /-- A path holds a character that no path may hold. -/
  | nulInPath
  /-- A program or an argument holds a character that none may hold. -/
  | nulInArgument
  deriving DecidableEq

namespace IoError

/-- The number by which the operating system knows the error, and its words for it. The last two errors
never reach it. -/
def system? : IoError → Option (Nat × String)
  | notFound => some (2, "No such file or directory")
  | noDevice => some (6, "No such device or address")
  | argumentsTooLong => some (7, "Argument list too long")
  | notAProgram => some (8, "Exec format error")
  | notOpen => some (9, "Bad file descriptor")
  | permissionDenied => some (13, "Permission denied")
  | notADirectory => some (20, "Not a directory")
  | isADirectory => some (21, "Is a directory")
  | outOfBounds => some (22, "Invalid argument")
  | tooManyOpen => some (24, "Too many open files")
  | isRunning => some (26, "Text file busy")
  | noSpace => some (28, "No space left on device")
  | nameTooLong => some (36, "File name too long")
  | tooManyLinks => some (40, "Too many levels of symbolic links")
  | nulInPath | nulInArgument => none

/-- The error in words, with its number. -/
def message : IoError → String
  | nulInPath => "file name contained an unexpected NUL byte"
  | nulInArgument => "nul byte found in provided data"
  | error =>
    match error.system? with
    | some (number, words) => words ++ " (os error " ++ toString number ++ ")"
    | none => ""

def words (error : IoError) : String := (error.system?.map Prod.snd).getD error.message

end IoError

/-! ## Paths -/

/-- The name of a file in its directory. -/
abbrev FileName := Utf8.Bytes

/-- A place in the tree: the names that lead to it from the root. -/
abbrev Location := List FileName

namespace PathText

/-- The components of a path, between its slashes. -/
def components {α : Type} [DecidableEq α] (slash : α) : List α → List (List α)
  | [] => [[]]
  | item :: rest =>
    if item = slash then [] :: components slash rest
    else
      match components slash rest with
      | [] => [[item]]
      | first :: others => (item :: first) :: others

/-- The byte between two components. -/
def slash : UInt8 := 0x2F

/-- The component that stays where it is. -/
def here : FileName := [0x2E]

/-- The component that goes to the parent. -/
def parent : FileName := [0x2E, 0x2E]

/-- The greatest number of bytes in a component. -/
def maxComponent : Nat := 255

/-- The greatest number of bytes in a path. -/
def maxPath : Nat := 4095

/-- The greatest number of links that are followed one after the other. -/
def maxLinks : Nat := 40

/-- The place that the text of an absolute path without `..` leads to. -/
def location (path : String) : Location :=
  (components slash (Utf8.ofString path)).filter (· ≠ [])

end PathText

/-! ## The tree -/

/-- A file that is a device. -/
inductive Device where
  /-- Everything written is lost, and nothing is read. -/
  | null
  /-- Everything written is lost, and zeros are read. -/
  | zero
  /-- Nothing can be written. -/
  | full
  /-- A terminal, which is not there. -/
  | terminal
  deriving DecidableEq

/-- What stands at a place. -/
inductive Node where
  | directory
  | file (content : Utf8.Bytes) (isProgram : Bool)
  | device (device : Device)
  /-- A link, which stands for what is at another place. -/
  | link (place : Location)
  deriving DecidableEq

/-- A tree of directories and files, and a working directory. -/
structure Files where
  /-- What stands where, in the order in which it was made. The root is not listed. -/
  nodes : List (Location × Node)
  /-- Where relative paths start. -/
  workingDir : Location
  deriving DecidableEq

namespace Files

/-- What stands at a place. -/
def node? (files : Files) (location : Location) : Option Node :=
  if location = [] then some .directory
  else (files.nodes.find? (·.1 == location)).map Prod.snd

/-- The place that a chain of fewer than so many links leads to. -/
def follow (files : Files) : Nat → Location → Except IoError Location
  | 0, _ => .error .tooManyLinks
  | left + 1, location =>
    match files.node? location with
    | some (.link next) => files.follow left next
    | _ => .ok location

/-- The place that a place stands for: another one if a link is there. -/
def through (files : Files) (location : Location) : Except IoError Location :=
  files.follow (PathText.maxLinks + 1) location

/-- The tree with something else at a place. -/
def put (files : Files) (location : Location) (node : Node) : Files :=
  if files.nodes.any (·.1 == location) then
    { files with
      nodes := files.nodes.map fun entry => if entry.1 = location then (location, node) else entry }
  else { files with nodes := files.nodes ++ [(location, node)] }

/-- The tree with another content of the file at a place, which is made if it is missing. -/
def putContent (files : Files) (location : Location) (content : Utf8.Bytes) : Files :=
  match files.node? location with
  | some (.file _ isProgram) => files.put location (.file content isProgram)
  | _ => files.put location (.file content false)

/-- Whether the file at a place is a program. -/
def isProgram (files : Files) (location : Location) : Bool :=
  match files.node? location with
  | some (.file _ isProgram) => isProgram
  | _ => false

/-- The directory that components lead to from another one. -/
def descend (files : Files) : Location → List FileName → Except IoError Location
  | place, [] => .ok place
  | place, component :: rest =>
    if component = [] ∨ component = PathText.here then files.descend place rest
    else if component = PathText.parent then files.descend place.dropLast rest
    else if PathText.maxComponent < component.length then .error .nameTooLong
    else
      match files.through (place ++ [component]) with
      | .error cause => .error cause
      | .ok next =>
        match files.node? next with
        | none => .error .notFound
        | some .directory => files.descend next rest
        | some _ => .error .notADirectory

/-- Where a path starts, and its components, unless no file can have such a path. -/
def start (files : Files) (path : Utf8.Bytes) : Except IoError (Location × List FileName) :=
  if path.contains 0 then .error .nulInPath
  else if path = [] then .error .notFound
  else if PathText.maxPath < path.length then .error .nameTooLong
  else
    let place := if path.head? = some PathText.slash then [] else files.workingDir
    .ok (place, PathText.components PathText.slash path)

/-- The path of the directory in which a process finds what it has open, by the numbers of its channels. -/
def channelDir : String := "/proc/self/fd"

/-- The paths of the directories in which processes show what they do. Nothing can be made there. -/
def sealedDirs : List String := ["/proc", "/proc/self", channelDir]

/-- Whether nothing can be made in the directory at a place. -/
def isSealed (place : Location) : Bool :=
  sealedDirs.any fun path => PathText.location path == place

/-- The place where a path asks for a file to be created or replaced. -/
def target (files : Files) (path : Utf8.Bytes) : Except IoError Location := do
  let (place, components) ← files.start path
  let last := components.getLastD []
  -- A path that ends in slashes names a directory, the component before them.
  let inner :=
    if last = [] then (components.reverse.dropWhile List.isEmpty).reverse.dropLast
    else components.dropLast
  let parent ← files.descend place inner
  if last = [] ∨ last = PathText.here ∨ last = PathText.parent then throw .isADirectory
  else if PathText.maxComponent < last.length then throw .nameTooLong
  else
    let location ← files.through (parent ++ [last])
    match files.node? location with
    | some .directory => throw .isADirectory
    | some (.device .terminal) => throw .noDevice
    | some _ => return location
    | none =>
      -- A link may lead to where no directory is.
      match files.node? location.dropLast with
      | some .directory => if isSealed location.dropLast then throw .notFound else return location
      | some _ => throw .notADirectory
      | none => throw .notFound

/-- Create or replace the file at a path, or write to a device. -/
def write (files : Files) (path : Utf8.Bytes) (content : Utf8.Bytes) : Except IoError Files := do
  let location ← files.target path
  match files.node? location with
  | some (.device .full) => throw .noSpace
  | some (.device _) => return files
  | _ => return files.putContent location content

/-- The place that a path names, where something need not be. A link that is there is not followed. -/
def spot (files : Files) (path : Utf8.Bytes) : Except IoError Location := do
  let (place, components) ← files.start path
  let last := components.getLastD []
  let parent ← files.descend place components.dropLast
  if last = [] ∨ last = PathText.here then return parent
  else if last = PathText.parent then return parent.dropLast
  else if PathText.maxComponent < last.length then throw .nameTooLong
  else return parent ++ [last]

/-- The place that a path leads to, where something need not be. -/
def resolve (files : Files) (path : Utf8.Bytes) : Except IoError Location :=
  files.spot path >>= files.through

/-- The place that a path leads to, and what stands there. -/
def locate (files : Files) (path : Utf8.Bytes) : Except IoError (Location × Node) := do
  let location ← files.resolve path
  match files.node? location with
  | none => throw .notFound
  | some node => return (location, node)

/-- The content of the file at a path. -/
def read (files : Files) (path : Utf8.Bytes) : Except IoError Utf8.Bytes := do
  match ← files.locate path with
  | (_, .file content _) => return content
  | (_, .directory) => throw .isADirectory
  | (_, .device .terminal) => throw .noDevice
  | (_, .device _) | (_, .link _) => return []

/-- The tree with the directories that components name, where nothing stands yet. -/
def makeDirsFrom (files : Files) : Location → List FileName → Files
  | _, [] => files
  | place, component :: rest =>
    if component = [] ∨ component = PathText.here then files.makeDirsFrom place rest
    else if component = PathText.parent then files.makeDirsFrom place.dropLast rest
    else
      match files.through (place ++ [component]) with
      | .error _ => files
      | .ok next =>
        let files := if (files.node? next).isNone then files.put next .directory else files
        files.makeDirsFrom next rest

/-- The tree with a directory at a path and directories on the way to it. -/
def makeDirs (files : Files) (path : Utf8.Bytes) : Files :=
  files.makeDirsFrom (if path.head? = some PathText.slash then [] else files.workingDir)
    (PathText.components PathText.slash path)

/-- The names below a place, when another place lies there. -/
def below? : Location → Location → Option Location
  | [], location => some location
  | _ :: _, [] => none
  | name :: place, other :: location => if name = other then below? place location else none

/-- The files below the working directory, with their paths from there. -/
def listing (files : Files) : List (Utf8.Bytes × Utf8.Bytes) :=
  files.nodes.filterMap fun (location, node) =>
    match below? files.workingDir location, node with
    | some names, .file content _ => some ([PathText.slash].intercalate names, content)
    | _, _ => none

/-! ## The tree of a system -/

/-- The paths of the directories that every system has. -/
def commonDirs : List String :=
  ["/boot", "/dev", "/dev/pts", "/dev/shm", "/etc", "/home", "/media", "/mnt", "/opt", "/proc",
    "/proc/self", "/proc/self/fd", "/root", "/run", "/run/lock", "/srv", "/sys", "/tmp", "/usr",
    "/usr/bin", "/usr/lib", "/usr/lib64", "/usr/sbin", "/usr/share", "/usr/local", "/var", "/var/lib",
    "/var/log", "/var/tmp"]

/-- The paths of the links that every system has, and of the places that they stand for. -/
def commonLinks : List (String × String) :=
  [("/bin", "/usr/bin"), ("/lib", "/usr/lib"), ("/lib64", "/usr/lib64"), ("/sbin", "/usr/sbin"),
    ("/dev/fd", channelDir), ("/dev/stdin", channelDir ++ "/0"), ("/dev/stdout", channelDir ++ "/1"),
    ("/dev/stderr", channelDir ++ "/2"), ("/usr/bin/sh", "/usr/bin/dash"), ("/var/run", "/run"),
    ("/var/lock", "/run/lock")]

/-- The paths of the devices that every system has. -/
def commonDevices : List (String × Device) :=
  [("/dev/full", .full), ("/dev/null", .null), ("/dev/random", .zero), ("/dev/tty", .terminal),
    ("/dev/urandom", .zero), ("/dev/zero", .zero)]

/-- What stands where in every system. -/
def commonNodes : List (Location × Node) :=
  commonDirs.map (fun path => (PathText.location path, Node.directory))
    ++ commonLinks.map (fun (path, place) => (PathText.location path, Node.link (PathText.location place)))
    ++ commonDevices.map fun (path, device) => (PathText.location path, Node.device device)

/-- The tree of a system with an empty working directory. -/
def system (workingDir : Location) : Files := makeDirsFrom ⟨commonNodes, workingDir⟩ [] workingDir

end Files

end AmountWalk
