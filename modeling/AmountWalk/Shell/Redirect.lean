import AmountWalk.Shell.Expand

/-!
# Redirection

Where the channels of a command lead. Paths are expanded before any file is opened, documents only when
their turn comes. Channels that are redirected are kept at numbers of their own, from which they are
taken back when the command has ended.
-/

namespace AmountWalk.Shell

namespace Redirect

/-- An opened file, as a mode asks for. -/
def openedAs (mode : OpenMode) (target : Target) : Opened :=
  match mode with
  | .read => .toRead target
  | .write | .overwrite => .toWrite target
  | .append => { Opened.toWrite target with atEnd := true }
  | .both => { Opened.toRead target with writes := true }

/-- Let a channel lead to a target. A file is made if it is missing, and may be emptied. -/
def leadToTarget (s : Session) (channel : Nat) (mode : OpenMode) (target : Target) : Session :=
  let empties : Bool :=
    match mode with
    | .write | .overwrite => true
    | _ => false
  let world :=
    match target with
    | .file location =>
      let isMissing := (s.world.files.node? location).isNone
      let world := if isMissing then s.world.touch location.dropLast else s.world
      if empties || isMissing then
        { world.touch location with files := s.world.files.putContent location [] }
      else world
    | _ => s.world
  { s with world }.openAt channel (openedAs mode target)

/-- What a path leads to for a writer, who makes the file that is missing. That of the shell cannot be
written, because the shell runs. -/
def targetToWrite (s : Session) (path : Text) : Except IoError Target :=
  match s.target path with
  | .ok (.directory _) => .error .isADirectory
  | .ok (.device .terminal) => .error .noDevice
  | .ok (.file location) =>
    if Tool.at? s.world.files location = some .shell then .error .isRunning
    else .ok (.file location)
  | .ok target => .ok target
  | .error _ => (s.files.target path.toBytes).map Target.file

/-- The session in which a file has been opened, and the channel that leads to it. -/
def openPath (s : Session) (mode : OpenMode) (path : Text) : Except Text (Session × Nat) :=
  let cannotOpen (error : IoError) : Except Text (Session × Nat) :=
    .error ("cannot open ".toList ++ path ++ ": ".toList ++ Session.reason "No such file" error)
  let cannotCreate (why : Text) : Except Text (Session × Nat) :=
    .error ("cannot create ".toList ++ path ++ ": ".toList ++ why)
  let known := s.target path
  let isKept : Bool := mode == .write && s.has 'C' && known.toOption.isSome
  match isKept, known with
  | true, .ok (.file _) => cannotCreate "File exists".toList
  | _, _ =>
    let opened : Except IoError (Session × Nat) := do
      let channel ← s.nextChannel
      let target ←
        match mode, known with
        | .read, .ok (.device .terminal) => .error .noDevice
        | .read, known => known
        | _, _ => targetToWrite s path
      return (leadToTarget s channel mode target, channel)
    match opened with
    | .ok result => .ok result
    | .error error =>
      if mode == .read || isKept then cannotOpen error
      else cannotCreate (Session.reason "Directory nonexistent" error)

/-! ## Openings -/

/-- A redirection whose paths have been expanded. -/
inductive Opening where
  /-- Let a channel lead to the file at a path. -/
  | file (channel : Nat) (mode : OpenMode) (path : Text)
  /-- Let a channel lead to where another one leads, or nowhere. -/
  | copy (channel : Nat) (other : Option Nat)
  /-- Let a channel read the document with a number. -/
  | document (channel : Nat) (number : Nat)

/-- The redirection with its path expanded. -/
def opening (run : Runner) : Redirect → Attempt Opening
  | .file channel mode path => return .file channel mode (← Expand.text run .ofText path)
  | .copy channel other => do
    match ← Expand.text run .ofText other with
    | ['-'] => return .copy channel none
    | [digit] =>
      if isDigit digit then return .copy channel (some (digitValue digit))
    | _ => pure ()
    modify fun s => { s with line := s.nextLine }
    Attempt.fail "Syntax error: Bad fd number".toList
  | .document channel number => return .document channel number

/-- The redirections with their paths expanded. -/
def openings (run : Runner) : List Redirect → Attempt (List Opening)
  | [] => return []
  | redirect :: rest => do
    let first ← redirect.opening run
    return first :: (← openings run rest)

/-! ## Keeping channels -/

/-- A channel that leads elsewhere, and the one at which it is kept if it led anywhere. -/
structure Kept where
  channel : Nat
  /-- Where it is kept. -/
  place : Option Nat

/-- Keep a channel, unless it is kept already, and let it lead nowhere. One that leads nowhere and shall
not lead anywhere is left alone. Without a place for it, it leads nowhere all the same. -/
def keep (kept : List Kept) (channel : Nat) (closes : Bool) (s : Session) :
    Session × Except Text (List Kept) :=
  if kept.any (·.channel == channel) then (s, .ok kept)
  else
    match s.channel? channel with
    | none => (s, .ok (if closes then kept else ⟨channel, none⟩ :: kept))
    | some number =>
      match s.nextPlace with
      | .ok place =>
        ((s.lead place (some number)).lead channel none, .ok (⟨channel, some place⟩ :: kept))
      | .error error =>
        (s.lead channel none, .error (digitsOf channel ++ ": ".toList ++ error.words.toList))

/-- The channels as they were, unless they are to stay. -/
def takeBack (stays : Bool) (kept : List Kept) (s : Session) : Session :=
  kept.foldl
    (fun s k =>
      let s := if stays then s else s.lead k.channel (k.place.bind s.channel?)
      match k.place with
      | some place => s.lead place none
      | none => s)
    s

/-- Let a channel lead to where another one leads, perhaps after keeping it; the channels that are kept,
and what is wrong if something is. -/
def leadToChannel (keeps : Bool) (kept : List Kept) (channel other : Nat) (s : Session) :
    Session × List Kept × Option Text :=
  let (s, result) := if keeps then keep kept channel false s else (s, .ok kept)
  match result with
  | .error message => (s, kept, some message)
  | .ok kept =>
    match s.channel? other, s.allows channel with
    | some number, true => (s.lead channel (some number), kept, none)
    | _, _ => (s, kept, some (digitsOf other ++ ": ".toList ++ IoError.notOpen.words.toList))

/-- Let a channel lead to what another one has been opened for, and close that one. If there is no place to
keep the channel, the other one stays open. A channel that there may not be is passed over. -/
def move (keeps : Bool) (kept : List Kept) (channel other : Nat) (s : Session) :
    Session × List Kept × Option Text :=
  if channel = other then
    (s, if keeps && !kept.any (·.channel == channel) then ⟨channel, none⟩ :: kept else kept, none)
  else
    let (s, result) := if keeps then keep kept channel false s else (s, .ok kept)
    match result with
    | .error message => (s, kept, some message)
    | .ok kept =>
      let s := if s.allows channel then s.lead channel (s.channel? other) else s
      (s.lead other none, kept, none)

/-- Let the channel of a redirection lead where it should, perhaps after keeping it; the channels that are
kept, and what is wrong if something is. What is opened gets a channel of its own first. -/
def Opening.apply (keeps : Bool) (kept : List Kept) (text : Text) (opening : Opening) (s : Session) :
    Session × List Kept × Option Text :=
  match opening with
  | .file channel mode path =>
    match openPath s mode path with
    | .ok (s, other) => move keeps kept channel other s
    | .error message => (s, kept, some message)
  | .document channel _ =>
    match s.mayMakePipe 0, s.freeFrom 0 1 with
    | true, [other] => move keeps kept channel other (s.leadToText other text)
    | _, _ => (s, kept, some "Pipe call failed".toList)
  | .copy channel none =>
    let (s, result) := if keeps then keep kept channel true s else (s, .ok kept)
    match result with
    | .ok kept => (s.lead channel none, kept, none)
    | .error message => (s, kept, some message)
  | .copy channel (some other) =>
    if other = channel then (s, kept, none) else leadToChannel keeps kept channel other s

/-- Open files and keep the channels, until something is wrong; also tell whether nothing was. -/
def openAll (run : Runner) (keeps : Bool) (kept : List Kept) :
    List Opening → Act (List Kept × Bool)
  | [] => return (kept, true)
  | opening :: rest => do
    let text? ←
      match opening with
      | .document _ number =>
        (Expand.text run .ofDocument ((← get).documents.getD number [])).run
      | _ => pure (some [])
    match text? with
    | none =>
      modify fun s => { s with flow := .on }
      return (kept, false)
    | some text =>
      let (s, kept, wrong?) := opening.apply keeps kept text (← get)
      match wrong? with
      | none =>
        set s
        openAll run keeps kept rest
      | some message =>
        set (s.complain message)
        return (kept, false)

end Redirect

end AmountWalk.Shell
