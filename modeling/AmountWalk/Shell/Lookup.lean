import AmountWalk.Shell.Session

/-!
# Looking up programs

The file that a name stands for is searched in the directories of a list, and the shell remembers in
which of them it has found it. Any regular file will do; whether it can be run is seen when it is.
-/

namespace AmountWalk.Shell

namespace Lookup

/-- The paths at which a name is searched. -/
def candidates (list name : Text) : List Text :=
  (list.splitOn ':').map fun entry => if entry = [] then name else entry ++ '/' :: name

/-- The place of the first candidate that is a program, from a place on. Where the name was found before,
absolute paths are not searched again. -/
def searchFrom (s : Session) (before? : Option Nat) :
    Nat → IoError → List Text → Except IoError Nat
  | _, error, [] => .error error
  | index, error, path :: rest =>
    let isKnown : Bool := path.head? == some '/' && before?.any (index ≤ ·)
    if isKnown then
      if before? = some index then .ok index else searchFrom s before? (index + 1) error rest
    else
      match s.target path with
      | .ok (.file location) =>
        if s.isProgram location then .ok index
        else searchFrom s before? (index + 1) .permissionDenied rest
      | .ok _ => searchFrom s before? (index + 1) .permissionDenied rest
      | .error .notFound | .error .notADirectory => searchFrom s before? (index + 1) error rest
      | .error other => searchFrom s before? (index + 1) other rest

/-- The directories that are searched. -/
def pathList (s : Session) : Text := s.valueOf "PATH"

/-- The directories that are searched for the programs that every system has. -/
def defaultList : Text := "/usr/local/sbin:/usr/local/bin:/usr/sbin:/usr/bin:/sbin:/bin".toList

/-- Where a program is among the directories that are searched; remember it. -/
def program (s : Session) (name : Text) : Session × Except IoError Nat :=
  let known? := s.found.get? name
  match known? with
  | some ⟨index, false⟩ => (s, .ok index)
  | _ =>
    match searchFrom s (known?.map Found.index) 0 .notFound (candidates (pathList s) name) with
    | .ok index => ({ s with found := s.found.replace name ⟨index, false⟩ }, .ok index)
    | .error error => ({ s with found := s.found.erase name }, .error error)

/-- The path of a program that was found. -/
def pathAt (s : Session) (name : Text) (index : Nat) : Text :=
  (candidates (pathList s) name).getD index name

/-- Why a program cannot be started, in the words of a shell. -/
def reason (error : IoError) : Text := Session.reason "not found" error

/-- The status of a command that cannot be run. -/
def statusOf : IoError → Nat
  | .notFound | .notADirectory | .nameTooLong | .tooManyLinks => 127
  | _ => 126

end Lookup

end AmountWalk.Shell
