import AmountWalk.Shell.Builtin.Basic
import AmountWalk.Shell.Escape
import AmountWalk.Shell.Lookup

/-!
# Builtins for the names of commands

`alias` and `unalias`, which give commands other names, `hash`, which remembers where programs are, and
`type`, which says what a name stands for.
-/

namespace AmountWalk.Shell.Builtin

/-! ## Other names -/

/-- The number of slots in the table of other names, which are listed slot by slot. -/
def aliasSlots : Nat := 39

/-- The line that lists another name. -/
def aliasLine (name value : Text) : Text := name ++ '=' :: quotedText value

/-- The other name and the command that an argument writes. -/
def aliasSetting? : Text → Option (Text × Text)
  | [] => none
  | first :: rest => (valueIn? rest).map fun value => (first :: rest.takeWhile (· ≠ '='), value)

/-- Set other names of commands, or list them. -/
def setAliases (s : Session) (arguments : List Text) : Session :=
  let s := s.done 0
  if arguments.isEmpty then
    s.printLines ((s.aliases.inSlots aliasSlots).map fun (name, value) => aliasLine name value)
  else
    arguments.foldl
      (fun s argument =>
        match aliasSetting? argument with
        | some (name, value) => { s with aliases := s.aliases.replace name value }
        | none =>
          match s.aliases.get? argument with
          | some value => s.printLine (aliasLine argument value)
          | none => (s.warn ("alias: ".toList ++ argument ++ " not found\n".toList)).done 1)
      s

/-- Remove other names of commands. -/
def removeAliases (s : Session) (arguments : List Text) : Session :=
  withOptions s "a" arguments fun letters names =>
    if letters.contains 'a' then { s with aliases := [] }.done 0
    else
      names.foldl
        (fun s name =>
          if (s.aliases.get? name).isSome then { s with aliases := s.aliases.erase name }
          else (s.warn ("unalias: ".toList ++ name ++ " not found\n".toList)).done 1)
        (s.done 0)

/-! ## Names of builtins -/

/-- The builtins. -/
def names : List Text :=
  [".", ":", "[", "alias", "bg", "break", "cd", "chdir", "command", "continue", "echo", "eval", "exec",
    "exit", "export", "false", "fg", "getopts", "hash", "jobs", "kill", "local", "printf", "pwd",
    "read", "readonly", "return", "set", "shift", "test", "times", "trap", "true", "type", "ulimit",
    "umask", "unalias", "unset", "wait"].map String.toList

def isBuiltin (name : Text) : Bool := names.contains name

/-! ## Places of programs -/

/-- The number of slots in the table of programs, which are listed slot by slot. -/
def programSlots : Nat := 31

/-- List the programs that were found, search some, or forget them all. -/
def hash (s : Session) (arguments : List Text) : Session :=
  withOptions s "r" arguments fun letters names =>
    let s := s.done 0
    if !letters.isEmpty then { s with found := [] }
    else if names.isEmpty then
      s.printLines <|
        (s.found.inSlots programSlots).map fun (name, found) =>
          Lookup.pathAt s name found.index ++ (if found.isStale then ['*'] else [])
    else
      names.foldl
        (fun s name =>
          if name.contains '/' || isBuiltin name || (s.functions.get? name).isSome then s
          else
            match Lookup.program { s with found := s.found.erase name } name with
            | (s, .ok _) => s
            | (s, .error error) =>
              (s.complain (name ++ ": ".toList ++ Lookup.reason error)).done 1)
        s

/-! ## What names stand for -/

/-- What a name stands for. -/
inductive Meaning where
  /-- A word that means something to the grammar. -/
  | keyword
  | alias (value : Text)
  | function
  | builtin
  | program (path : Text) (wasKnown : Bool)
  /-- Nothing. -/
  | nothing

/-- What a name stands for; a program that is found is remembered. -/
def meaning (s : Session) (isDefault : Bool) (name : Text) : Session × Meaning :=
  if reservedWords.contains name then (s, .keyword)
  else
    match s.aliases.get? name with
    | some value => (s, .alias value)
    | none =>
      if (s.functions.get? name).isSome then (s, .function)
      else
        match s.found.get? name with
        | some found => (s, .program (Lookup.pathAt s name found.index) true)
        | none =>
          if name.contains '/' then
            (s, if (s.target name).toOption.isSome then .program name false else .nothing)
          else if isBuiltin name then (s, .builtin)
          else if isDefault then
            let paths := Lookup.candidates Lookup.defaultList name
            match Lookup.searchFrom s none 0 .notFound paths with
            | .ok index => (s, .program (paths.getD index name) false)
            | .error _ => (s, .nothing)
          else
            match Lookup.program s name with
            | (s, .ok index) => (s, .program (Lookup.pathAt s name index) false)
            | (s, .error _) => (s, .nothing)

/-- Say what a name stands for. -/
def describe (isDefault : Bool) (s : Session) (name : Text) : Session :=
  let (s, meaning) := meaning s isDefault name
  let is (what : Text) : Session := s.printLine (name ++ " is ".toList ++ what)
  match meaning with
  | .keyword => is "a shell keyword".toList
  | .alias value => is ("an alias for ".toList ++ value)
  | .function => is "a shell function".toList
  | .builtin =>
    if specialBuiltins.contains name then is "a special shell builtin".toList
    else is "a shell builtin".toList
  | .program path wasKnown =>
    is (if wasKnown then "a tracked alias for ".toList ++ path else path)
  | .nothing => (s.printLine (name ++ ": not found".toList)).done 127

/-- Write what a name stands for in one word. -/
def describeBriefly (isDefault : Bool) (s : Session) (name : Text) : Session :=
  let (s, meaning) := meaning s isDefault name
  match meaning with
  | .keyword | .function | .builtin => s.printLine name
  | .alias value => s.printLine ("alias ".toList ++ aliasLine name value)
  | .program path _ => s.printLine path
  | .nothing => s.done 127

/-- Say what names stand for. -/
def type (s : Session) (names : List Text) : Session :=
  names.foldl (describe false) (s.done 0)

/-- Say what the name behind the options of `command` stands for. -/
def describeOne (s : Session) (arguments : List Text) : Session :=
  withOptions s "pvV" arguments fun letters names =>
    let s := s.done 0
    let isDefault := letters.contains 'p'
    match names with
    | [] => s
    | name :: _ =>
      if letters.contains 'V' then describe isDefault s name
      else if letters.contains 'v' then describeBriefly isDefault s name
      else s

end AmountWalk.Shell.Builtin
