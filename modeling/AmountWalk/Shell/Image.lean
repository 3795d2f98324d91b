import AmountWalk.Shell.System

/-!
# Starting files as programs

What an operating system runs when a file is started. A file that begins with `#!` is a script: its first
line names the *interpreter*, a program that is given the path of the script, and perhaps one argument in
front of it. The interpreter may be a script too, but not over and over again.

Only the head of a file is looked at, which zeros fill up. So the first line may be cut off there: then the
path of the interpreter has to be complete, its argument need not be.
-/

namespace AmountWalk.Shell

/-- A program with its arguments, of which the first is its own name. -/
structure Image where
  /-- The program. -/
  tool : Tool
  arguments : List Utf8.Bytes

namespace Image

/-! ## Scripts -/

/-- What a script starts with. -/
def mark : Utf8.Bytes := Utf8.ofString "#!"

/-- The number of bytes in the head of a file. -/
def headSize : Nat := 256

/-- Whether a byte separates an interpreter from its argument. -/
def isGap (byte : UInt8) : Bool := byte == 0x20 || byte == 0x09

def endsPath (byte : UInt8) : Bool := isGap byte || byte == 0

/-- The line of an interpreter without its mark, from the head of a file behind the mark. -/
def line? (head : Utf8.Bytes) : Option Utf8.Bytes :=
  if head.contains 0x0A then
    some ((head.takeWhile (· ≠ 0x0A)).reverse.dropWhile isGap).reverse
  else
    let padded := head ++ List.replicate (headSize - mark.length - head.length) 0
    let path := padded.dropWhile isGap
    if path.any endsPath then some (padded.dropLast.reverse.dropWhile isGap).reverse else none

/-- The path of an interpreter and its argument, from its line. -/
def interpreterIn? (line : Utf8.Bytes) : Option (Utf8.Bytes × Option Utf8.Bytes) :=
  match line.dropWhile isGap with
  | [] => none
  | text =>
    let rest := text.dropWhile (!endsPath ·)
    let argument? :=
      if rest.head?.any isGap then some ((rest.dropWhile isGap).takeWhile (· ≠ 0)) else none
    some (text.takeWhile (!endsPath ·), argument?)

/-- The path of the interpreter of a script and its argument, from the content of the file. -/
def interpreter? (content : Utf8.Bytes) : Option (Utf8.Bytes × Option Utf8.Bytes) :=
  if mark.isPrefixOf content then
    (line? ((content.take headSize).drop mark.length)).bind interpreterIn?
  else none

/-! ## Arguments -/

/-- What a text among the arguments of a program must be shorter than. -/
def maxText : Nat := 131072

/-- The least room that there is for all of them. -/
def minRoom : Nat := 131072

/-- The greatest room that there is for all of them. -/
def maxRoom : Nat := 6291456

/-- How much room there is in a stack of a given size, if it has one. -/
def roomIn (stack? : Option Nat) : Nat :=
  max minRoom ((stack?.map fun stack => min maxRoom (stack / 4)).getD maxRoom)

/-- Whether the path of a program, its arguments and its environment have so much room. -/
def fits (room : Nat) (path : Utf8.Bytes) (arguments environment : List Utf8.Bytes) : Bool :=
  let texts := arguments ++ environment
  texts.all (·.length < maxText)
    && texts.foldl (fun sum text => sum + text.length + 9) (path.length + 1) ≤ room

/-! ## Starting -/

/-- How many files are looked at before one is no script. -/
def maxFiles : Nat := 6

/-- What runs when the file at a path is started with arguments, of which the first is the name for it.
A script gets its path in place of that name. -/
def startFrom (files : Files) : Nat → Utf8.Bytes → List Utf8.Bytes → Except IoError Image
  | fuel, path, arguments => do
    match ← files.locate path with
    | (location, .file content true) =>
      match fuel with
      | 0 => throw .tooManyLinks
      | fuel + 1 =>
        match Tool.at? files location, interpreter? content with
        | some tool, _ => return ⟨tool, arguments⟩
        | none, none => throw .notAProgram
        | none, some ([], _) => throw .permissionDenied
        | none, some (interpreter, argument?) =>
          startFrom files fuel interpreter
            (interpreter :: argument?.toList ++ path :: arguments.tail)
    | _ => throw .permissionDenied

/-- What runs when the file at a path is started with arguments, of which the first is the name for it. -/
def start (files : Files) (path : Utf8.Bytes) (arguments : List Utf8.Bytes) : Except IoError Image :=
  startFrom files maxFiles path arguments

end Image

end AmountWalk.Shell
