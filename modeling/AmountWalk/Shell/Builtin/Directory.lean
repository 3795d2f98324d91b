import AmountWalk.Shell.Builtin.Basic

/-!
# Builtins for the working directory

`cd` and `pwd`. A shell remembers the path that has led to the working directory; a path that starts
from there is joined to it before it is used, so that `..` takes a name away.
-/

namespace AmountWalk.Shell.Builtin

/-- The path of a place. -/
def pathOf (location : Location) : Text :=
  '/' :: ['/'].intercalate (location.map Text.ofBytes)

/-- Whether a path is meant as the places are, and not as names; the letters toggle that. -/
def isPhysical (letters : List Char) : Bool :=
  (letters.foldl
    (fun (before, physical) letter => (letter, if letter = before then physical else !physical))
    ('L', false)).2

/-- The names that a path has after some others, of which `..` takes one away. -/
def joinedNames : List Text → List Text → List Text
  | names, [] => names
  | names, component :: rest =>
    if component = [] ∨ component = ['.'] then joinedNames names rest
    else if component = ['.', '.'] then joinedNames names.dropLast rest
    else joinedNames (names ++ [component]) rest

def namesOf (path : Text) : List Text := PathText.components '/' path

/-- Whether a path starts with exactly two slashes, which may mean something else than one. -/
def startsTwice : Text → Bool
  | '/' :: '/' :: rest => rest.head? != some '/'
  | _ => false

/-- The path that another one leads to from the current one. -/
def joinedPath (current path : Text) : Text :=
  let isAbsolute : Bool := path.head? == some '/'
  let isTwice := startsTwice (if isAbsolute then path else current)
  let names := joinedNames [] ((if isAbsolute then [] else namesOf current) ++ namesOf path)
  (if isTwice then ['/', '/'] else ['/']) ++ ['/'].intercalate names

def directory? (s : Session) (path : Text) : Option Location :=
  match s.target path with
  | .ok (.directory location) => some location
  | _ => none

/-- The session in another directory, in which the variables for it may be protected. -/
def enter (s : Session) (physical : Bool) (path : Text) : Option Session :=
  let joined := joinedPath s.path path
  (directory? s (if physical then path else joined)).map fun location =>
    let now := if physical then pathOf location else joined
    let s := { s with directory := location }
    match s.assignAs true "OLDPWD".toList s.path with
    | .error message => s.fail message
    | .ok s =>
      let s := { s with path := now }
      match s.assignAs true "PWD".toList now with
      | .error message => s.fail message
      | .ok s =>
        { s with found := s.found.map fun (name, found) => (name, { found with isStale := true }) }

/-- Whether a path is not searched in other directories. -/
def isFixed (path : Text) : Bool :=
  path.head? == some '/' || [['.'], ['.', '.']].contains ((namesOf path).headD [])

/-- The paths at which a wanted one is searched, each with whether it is told. -/
def searched (s : Session) (wanted : Text) : List (Text × Bool) :=
  let path := if wanted = [] then ['.'] else wanted
  let listed : List (Text × Bool) :=
    match (if isFixed wanted then none else s.value? "CDPATH".toList) with
    | none => []
    | some list =>
      (list.splitOn ':').filterMap fun entry =>
        let there := if entry = [] then path else entry ++ '/' :: path
        if (directory? s there).isSome then some (there, entry ≠ []) else none
  listed.take 1 ++ (if listed.isEmpty then [(path, false)] else [])

/-- Change the working directory. -/
def cd (s : Session) (arguments : List Text) : Session :=
  withOptions s "LP" arguments fun letters arguments =>
    let physical := isPhysical letters
    let goesBack : Bool := arguments.head? == some ['-']
    let wanted :=
      if goesBack then s.valueOf "OLDPWD"
      else
        match arguments with
        | path :: _ => path
        | [] => s.valueOf "HOME"
    match (searched s wanted).findSome? fun (there, isTold) =>
      (enter s physical there).map fun s => (s, isTold) with
    | some (s, isTold) =>
      if !s.isOn then s
      else if goesBack || isTold then (s.done 0).printLine s.path
      else s.done 0
    | none => s.fail ("can't cd to ".toList ++ wanted)

/-- Write the working directory. -/
def pwd (s : Session) (arguments : List Text) : Session :=
  withOptions s "LP" arguments fun letters _ =>
    (s.done 0).printLine (if isPhysical letters then pathOf s.directory else s.path)

end AmountWalk.Shell.Builtin
