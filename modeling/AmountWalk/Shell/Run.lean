import AmountWalk.Shell.Image
import AmountWalk.Shell.Input
import AmountWalk.Shell.Invocation
import AmountWalk.Shell.Prepare
import AmountWalk.Shell.Tools

/-!
# Running shell scripts

What a process does that runs a command, a script or a program. Every call has one unit of fuel less than
its caller, and so has every turn of a loop; a script that uses all of it ends.

Where a command stands decides two things. With the option `e`, its failure ends the script, unless the
failure is *tested*: it decides what is run next. And when the process ends with the command, it needs no
other process for it.
-/

namespace AmountWalk.Shell

/-- Where a command stands. -/
structure Standing where
  /-- Whether its failure decides what is run next. -/
  tested : Bool
  /-- Whether the process ends with it. -/
  last : Bool

namespace Standing

/-- A command whose failure decides what is run next. -/
def test : Standing := ⟨true, false⟩

/-- A command of a script. -/
def plain : Standing := ⟨false, false⟩

/-- A command inside another one, behind which the process goes on. -/
def inner (standing : Standing) : Standing := { standing with last := false }

end Standing

/-! ## Parts of commands -/

/-- What a loop does after a turn. -/
inductive Turn where
  /-- It goes on. -/
  | next
  /-- It ends. -/
  | stop
  deriving DecidableEq

/-- What a loop does after a command in it. -/
def Session.turn (s : Session) : Turn × Session :=
  match s.flow with
  | .on => (.next, s)
  | .breaking (n + 2) => (.stop, { s with flow := .breaking (n + 1) })
  | .breaking _ => (.stop, { s with flow := .on })
  | .continuing (n + 2) => (.stop, { s with flow := .continuing (n + 1) })
  | .continuing _ => (.next, { s with flow := .on })
  | _ => (.stop, s)

/-- Whether a command is run at a signal or at the end. -/
def Session.hasTraps (s : Session) : Bool := s.traps.any fun (_, command) => !command.isEmpty

/-- The session as that of another process that goes on with the script. -/
def Session.cutOff (s : Session) : Session :=
  Session.withSignals { s with traps := s.traps.filter fun (_, command) => command = [] }

/-- Let a process in the background ignore a user at the terminal, and read nothing. -/
def intoBackground (isFirst : Bool) (process : Nat) (world : World) : World :=
  let world := world.change process fun p =>
    let deaf := [Signal.interrupt, Signal.quit]
    { p with deaf := deaf ++ p.deaf, ignored := deaf ++ p.ignored }
  if isFirst then world.openAt process 0 (.toRead (.device .null)) else world

/-- The program that a simple command runs, if its name is written out. -/
def Command.programName? : Command → Option Text
  | .simple _ _ (word :: _) _ => (Word.bare? word).filter isName
  | _ => none

/-- Remember where a program is before several processes look for it. -/
def Session.foreseeing (s : Session) (command : Command) : Session :=
  match command.programName? with
  | some name =>
    if Builtin.isBuiltin name || (s.functions.get? name).isSome then s
    else (Lookup.program s name).1
  | none => s

/-- Where `.` finds a script. -/
def scriptPath? (s : Session) (name : Text) : Option Text :=
  if name.contains '/' then some name
  else
    (Lookup.candidates (Lookup.pathList s) name).find? fun path =>
      match s.target path with
      | .ok (.file _) => true
      | _ => false

/-- The greatest number of functions that are run inside each other. -/
def maxDepth : Nat := 1000

/-- The greatest number of texts that are run inside each other. There is no room on the stack for more. -/
def maxTexts : Nat := 8000

/-- How often a shell that ignores the end of its script says so. -/
def maxIgnoredEnds : Nat := 50

/-! ## Programs -/

/-- The paths at which a program is searched when it is started. -/
def programPaths (s : Session) (isDefault : Bool) (index : Nat) (name : Text) : List Text :=
  if name.contains '/' then [name]
  else
    let list := if isDefault then Lookup.defaultList else Lookup.pathList s
    (Lookup.candidates list name).drop index

/-- The variables that programs get. -/
def Session.exported (s : Session) : Named Variable :=
  s.bindings.filter fun (_, binding) => binding.exported && binding.value.isSome

/-- How many bytes of a file are looked at to tell whether it may be a script. -/
def glimpse : Nat := 128

/-- Whether the first line of a file, as far as it is looked at, holds characters that no script has. -/
def isNoScript (content : Utf8.Bytes) : Bool :=
  ((content.take glimpse).takeWhile (· ≠ 0x0A)).any fun byte =>
    byte == 127 || byte < 9 || (15 < byte && byte < 32 && byte != 27)

/-- The path of the shell that runs a script that names no interpreter. -/
def shellPath : Text := "/bin/sh".toList

/-- What runs when the file at a path is started under a name with arguments. -/
def Session.image (s : Session) (path name : Text) (arguments : List Text) : Except IoError Image := do
  let environment :=
    s.exported.map fun (name, binding) => (name ++ '=' :: binding.value.getD []).toBytes
  let stack? := (s.limits.lookup 's').bind Limit.soft
  let start (path : Text) (arguments : List Text) : Except IoError Image :=
    let arguments := arguments.map Text.toBytes
    match s.target path with
    | .ok (.file _) =>
      if Image.fits (Image.roomIn stack?) path.toBytes arguments environment then
        Image.start s.files path.toBytes arguments
      else .error .argumentsTooLong
    | .ok _ => .error .permissionDenied
    | .error error => .error error
  match start path (name :: arguments) with
  | .error .notAProgram =>
    let content :=
      match s.target path with
      | .ok (.file location) => s.world.content location
      | _ => []
    if isNoScript content then throw .notAProgram
    else start shellPath (shellPath :: path :: arguments)
  | result => result

/-- What runs when the first of some paths is started at which a program is that can be run, or why there is
none. -/
def firstImage (s : Session) (name : Text) (arguments : List Text) (error : IoError) :
    List Text → Except IoError Image
  | [] => .error error
  | path :: rest =>
    match s.image path name arguments with
    | .ok image => .ok image
    | .error .notFound | .error .notADirectory => firstImage s name arguments error rest
    | .error other => firstImage s name arguments other rest

/-- What a program says behind its name when it cannot open what it needs. -/
def unableToStart : Text :=
  (": error while loading shared libraries: libc.so.6: cannot open shared object file: Error 24\n").toList

/-- The session of a program that the process of a shell goes on with. -/
def Session.program (s : Session) (arguments : List Text) : Session :=
  let given := s.exported.map fun (name, binding) => (name, { binding with readOnly := false })
  let world := s.world.reborn s.process Session.firstPlace
  let s := Session.start world s.process arguments given s.directory s.mask s.limits
  let directory := Builtin.pathOf s.directory
  let isThere (path : Text) : Bool :=
    path.head? == some '/' && Builtin.directory? s path == some s.directory
  let path := ((s.value? "PWD".toList).filter isThere).getD directory
  { s with path }.bind "PWD".toList ⟨some path, true, false⟩

mutual

/-- Run a script line by line; the status of the last line. The script is read from a channel, if there
is one, and then its lines may be shown. With the last line of another script the process may end. -/
def runLines : Nat → Standing → Option Nat → Nat → Reader → Act Nat
  | 0, _, _, status, _ => do
    modify fun s => { s with flow := .exiting }
    return status
  | fuel + 1, standing, channel?, status, reader => do
    let s ← get
    if !s.isOn then return status
    let known := { reader with documents := s.documents, aliases := s.aliases, replaced := [] }
    let showRead (after : Reader) (s : Session) : Session :=
      if channel?.isSome && s.has 'v' then
        let count := reader.left - after.left
        let more := (reader.rest.drop count).takeWhile (· ≠ '\n')
        let behind := if count = 0 ∨ reader.rest[count - 1]? = some '\n' then [] else more ++ ['\n']
        s.warn (reader.rest.take count ++ behind)
      else s
    match readLine.run known with
    | .error .starved =>
      let block ←
        match channel? with
        | some channel => readBlock maxWaits channel
        | none => pure []
      runLines fuel standing channel? status (reader.extend block)
    | .error (.flaw message after) =>
      modify fun s =>
        (showRead after { s with line := after.line, isAhead := after.isAhead }).fail message
      return status
    | .ok ((none, _), after) =>
      modify fun s => { showRead after s with isAhead := true }
      return status
    | .ok ((some command, hasEnded), after) =>
      set
        { showRead after s with
          documents := after.documents, nextLine := after.line, isAhead := hasEnded }
      -- The command may make the script longer.
      let after := { after with isOpen := after.isOpen || channel?.isSome }
      match command with
      | .nothing => runLines fuel standing channel? status after
      | _ =>
        run fuel { standing with last := standing.last && hasEnded } command
        runLines fuel standing channel? (← get).status after

/-- Run a script inside of another one: what is left of a text, or what can be read from a channel. -/
def runScript (fuel : Nat) (standing : Standing) (channel? : Option Nat) (reader : Reader) :
    Act Unit := do
  match fuel with
  | 0 => modify fun s => { s with flow := .exiting }
  | fuel + 1 =>
    let line := (← get).nextLine
    let status ← runLines fuel standing channel? 0 reader
    modify fun s =>
      let s := { s with nextLine := line }
      match s.flow with
      | .failed | .exiting => s
      | _ => s.done status

/-- Run a text as a script of its own, or end the process if too many of them are being run. -/
def runText (fuel : Nat) (standing : Standing) (text : Text) : Act Unit :=
  match fuel with
  | 0 => modify fun s => { s with flow := .exiting }
  | fuel + 1 => do
    let texts := (← get).texts
    if maxTexts ≤ texts then Act.stop (.killed Signal.badAddress)
    else
      modify fun s => { s with texts := texts + 1 }
      runScript fuel standing none (.ofText text)
      modify fun s => { s with texts }

/-- Run a shell, from its invocation to the end of the process. -/
def runShell (fuel : Nat) : Act Unit := do
  match fuel with
  | 0 => pure ()
  | fuel + 1 =>
    let invocation ← modifyGet Session.invoked
    if (← get).isOn then
      match invocation.command? with
      | some text => runText fuel ⟨false, invocation.channel?.isNone⟩ text
      | none => pure ()
    match (← get).isOn, invocation.channel? with
    | true, some channel =>
      let _ ← runLines fuel .plain (some channel) 0 .unread
      modify fun s =>
        if s.isOn && s.has 'I' then
          (List.range maxIgnoredEnds).foldl
            (fun s _ => s.warn "\nUse \"exit\" to leave shell.\n".toList) s
        else s
    | _, _ => pure ()
    conclude fuel

/-- Run a program, to the end of the process. It starts with opening what it needs, and ends when it may
not. -/
def runTool : Nat → Tool → Act Unit
  | 0, _ => Act.stop (.exited 0)
  | fuel + 1, tool => do
    if (← get).nextChannel.toOption.isNone then
      modify fun s => s.warn (s.script ++ unableToStart)
      Act.stop (.exited 127)
    match tool with
    | .shell => runShell fuel
    | .success => Act.stop (.exited 0)
    | .failure => Act.stop (.exited 1)
    | .echo => Tools.echo
    | .cat => Tools.cat
    | .sleep => Tools.sleep

/-- End a process: run what was to be run at its end. -/
def conclude : Nat → Act Unit
  | 0 => Act.stop (.exited 0)
  | fuel + 1 => do
    let s ← get
    match s.traps.get? 0 with
    | none => pure ()
    | some command =>
      set
        { s with
          traps := s.traps.erase 0, flow := .on, loops := 0, builtin := none
          statusBefore := some s.status }
      runText fuel .plain command
      modify fun after =>
        match after.flow with
        | .failed | .exiting => after
        | _ => after.done s.status
    Act.stop (.exited (UInt8.ofNat (← get).status))

/-- Run the commands for the signals that have arrived, in the order of their numbers. -/
def takeSignals : Nat → Act Unit
  | 0 => pure ()
  | fuel + 1 => do
    let s ← get
    match (Builtin.arrived s).min? with
    | none => pure ()
    | some signal =>
      if s.isOn then
        let world := s.world.change s.process fun p => { p with arrived := p.arrived.erase signal }
        set { s with world, statusBefore := some (s.statusBefore.getD s.status) }
        runText fuel .plain ((s.traps.get? signal).getD [])
        modify fun after =>
          let after := { after with statusBefore := s.statusBefore }
          match after.flow with
          | .failed | .exiting | .returning true => after
          | _ => after.done s.status
        takeSignals fuel

def run : Nat → Standing → Command → Act Unit
  | 0, _, _ => modify fun s => { s with flow := .exiting }
  | fuel + 1, standing, command => do
    takeSignals fuel
    let s ← get
    if s.isOn then
      let mayFail ← if s.has 'n' then pure false else runOne fuel standing command
      takeSignals fuel
      modify fun s =>
        let fails : Bool := mayFail && !standing.tested && s.has 'e' && s.status != 0
        let ends : Bool := fails || (standing.last && s.isOn)
        if ends && s.flow != .failed then { s with flow := .exiting } else s

/-- Run a command; also tell whether its failure counts. -/
def runOne : Nat → Standing → Command → Act Bool
  | 0, _, _ => return false
  | fuel + 1, standing, command => do
    let runner : Runner := fun command => do
      run fuel ⟨false, true⟩ command
      conclude fuel
    match command with
    | .nothing => return false
    | .simple line settings words redirects =>
      modify fun s => { s with line }
      runSimple fuel standing settings words redirects
      modify Session.collectAll
      Act.pause
      return true
    | .sequence first second =>
      run fuel standing.inner first
      run fuel standing second
      return false
    | .ifSucceeds first second =>
      run fuel .test first
      if (← get).status = 0 then run fuel standing second
      return false
    | .ifFails first second =>
      run fuel .test first
      if (← get).status ≠ 0 then run fuel standing second
      return false
    | .invert command =>
      run fuel .test command
      modify fun s => if s.isOn then s.verdict (s.status ≠ 0) else s
      return false
    | .pipeline commands isBackground =>
      let (job, s) := (← get).makeJob
      set s
      runStages fuel standing.tested isBackground true job none commands
      if !(← get).isOn then return true
      if isBackground then
        modify fun s =>
          let last? := (s.job? job).bind fun j => j.processes.getLast?.map (·.1)
          { s with background := last? }.done 0
      else
        let status ← Act.finishJob job
        modify (·.done status)
      Act.pause
      return true
    | .background line command redirects =>
      modify fun s => { s with line }
      match ← (Redirect.openings runner redirects).run with
      | none => return true
      | some openings =>
        let (job, s) := (← get).makeJob
        set s
        let process ← Act.forkFor job (intoBackground true) do
          runApart fuel false openings command
          conclude fuel
        modify fun s => { s with background := some process }.done 0
        Act.pause
        return true
    | .subshell line command redirects =>
      modify fun s => { s with line }
      match ← (Redirect.openings runner redirects).run with
      | none => return true
      | some openings =>
        if standing.last && !(← get).hasTraps then
          modify Session.cutOff
          runApart fuel standing.tested openings command
        else
          let (job, s) := (← get).makeJob
          set s
          let _ ← Act.forkFor job (fun _ world => world) do
            runApart fuel standing.tested openings command
            conclude fuel
          let status ← Act.finishJob job
          modify (·.done status)
        Act.pause
        return true
    | .loop wanted test body =>
      let loops := (← get).loops
      modify fun s => { s with loops := loops + 1 }
      runLoop fuel standing.tested wanted test body 0
      modify fun s => { s with loops }
      return false
    | .branch test yes no =>
      run fuel .test test
      let s ← get
      if s.isOn then
        if s.status = 0 then run fuel standing yes
        else
          match no with
          | .nothing => modify (·.done 0)
          | _ => run fuel standing no
      return false
    | .each line name items body =>
      modify fun s => { s with line }
      match ← (Expand.allFields runner items).run with
      | none => return false
      | some values =>
        let loops := (← get).loops
        modify fun s => { s with loops := loops + 1 }
        runEach fuel standing.tested name body values 0
        modify fun s => { s with loops }
        return false
    | .choose line subject arms =>
      modify fun s => { s with line }
      match ← (Expand.text runner .ofText subject).run with
      | none => return false
      | some text =>
        runArms fuel standing text arms
        return false
    | .define name body =>
      modify fun s =>
        { s with
          functions := s.functions.put name body, found := s.found.erase name }.done 0
      return false
    | .redirected line command redirects =>
      modify fun s => { s with line }
      match ← (Redirect.openings runner redirects).run with
      | none => return false
      | some openings =>
        let (kept, success) ← Redirect.openAll runner true [] openings
        if success then run fuel standing.inner command
        else modify (·.done 2)
        modify (Redirect.takeBack false kept)
        return !success

/-- Run a command in a process of its own, whose channels need not be kept. -/
def runApart (fuel : Nat) (tested : Bool) (openings : List Redirect.Opening) (command : Command) :
    Act Unit := do
  match fuel with
  | 0 => modify fun s => { s with flow := .exiting }
  | fuel + 1 =>
    let runner : Runner := fun command => do
      run fuel ⟨false, true⟩ command
      conclude fuel
    let (_, success) ← Redirect.openAll runner false [] openings
    if success then run fuel ⟨tested, true⟩ command
    else modify fun s => { s.done 2 with flow := .failed }

/-- Start processes of which each reads what the one before it writes. -/
def runStages : Nat → Bool → Bool → Bool → Nat → Option Nat → List Command → Act Unit
  | 0, _, _, _, _, _, _ => pure ()
  | _ + 1, _, _, _, _, _, [] => pure ()
  | fuel + 1, tested, isBackground, isFirst, job, input?, command :: rest => do
    modify (·.foreseeing command)
    let isPossible : Bool :=
      rest.isEmpty || (← get).mayMakePipe (if input?.isSome then 1 else 0)
    if !isPossible then modify (·.fail "Pipe call failed".toList)
    let output? ←
      if rest.isEmpty || !isPossible then pure none
      else
        let s ← get
        let (world, pipe) := s.world.makePipe (.ofText [] (some pipeCapacity))
        set { s with world }
        pure (some pipe)
    let prepare (process : Nat) (world : World) : World :=
      let world :=
        match output? with
        | some pipe => world.openAt process 1 (.toWrite (.pipe pipe))
        | none => world
      let world := if isBackground then intoBackground isFirst process world else world
      match input? with
      | some pipe => world.openAt process 0 (.toRead (.pipe pipe))
      | none => world
    if isPossible then
      let _ ← Act.forkFor job prepare do
        run fuel ⟨tested, true⟩ command
        conclude fuel
      runStages fuel tested isBackground false job output? rest

/-- Repeat a body while a test has the wanted outcome. -/
def runLoop : Nat → Bool → Bool → Command → Command → Nat → Act Unit
  | 0, _, _, _, _, _ => modify fun s => { s with flow := .exiting }
  | fuel + 1, tested, wanted, test, body, last => do
    run fuel .test test
    let status := (← get).status
    let isContinued : Bool := !(← get).isOn
    match ← modifyGet Session.turn with
    | .stop =>
      modify fun s =>
        match s.flow with
        | .failed | .exiting | .returning true => s
        | _ => s.done last
    | .next =>
      if isContinued then runLoop fuel tested wanted test body last
      else if (status = 0) = wanted then
        run fuel ⟨tested, false⟩ body
        match ← modifyGet Session.turn with
        | .stop => pure ()
        | .next => runLoop fuel tested wanted test body (← get).status
      else modify (·.done last)

/-- Run a body once for each value of a variable. -/
def runEach : Nat → Bool → Text → Command → List Text → Nat → Act Unit
  | 0, _, _, _, _, _ => modify fun s => { s with flow := .exiting }
  | _ + 1, _, _, _, [], last => modify (·.done last)
  | fuel + 1, tested, name, body, value :: values, _ => do
    modify (·.set name value)
    if (← get).isOn then
      run fuel ⟨tested, false⟩ body
      match ← modifyGet Session.turn with
      | .stop => pure ()
      | .next => runEach fuel tested name body values (← get).status

/-- Run the command behind the first pattern that matches. -/
def runArms : Nat → Standing → Text → List (List Word × Command) → Act Unit
  | 0, _, _, _ => modify fun s => { s with flow := .exiting }
  | _ + 1, _, _, [] => modify (·.done 0)
  | fuel + 1, standing, text, (patterns, body) :: arms => do
    match ← (matchesOne fuel text patterns).run with
    | none => pure ()
    | some true =>
      match body with
      | .nothing => modify (·.done 0)
      | _ => run fuel standing body
    | some false => runArms fuel standing text arms

/-- Whether one of some patterns matches a text. -/
def matchesOne : Nat → Text → List Word → Attempt Bool
  | 0, _, _ => return false
  | _ + 1, _, [] => return false
  | fuel + 1, text, word :: words => do
    let runner : Runner := fun command => do
      run fuel ⟨false, true⟩ command
      conclude fuel
    if Pattern.accepts (← Expand.pattern runner word) text then return true
    else matchesOne fuel text words

/-- Set variables, run a builtin, a function or a program, and redirect its channels. -/
def runSimple : Nat → Standing → List (Text × Word) → List Word → List Redirect → Act Unit
  | 0, _, _, _, _ => modify fun s => { s with flow := .exiting }
  | fuel + 1, standing, settings, words, redirects => do
    let runner : Runner := fun command => do
      run fuel ⟨false, true⟩ command
      conclude fuel
    modify fun s => { s with substituted := 0 }
    match ← (prepare runner words).run with
    | none => pure ()
    | some (p, fields) =>
      let frames := (← get).frames.length
      let errors? := (← get).channel? 2
      if p.restores then modify fun s => { s with frames := [] :: s.frames }
      match ← (Redirect.openings runner redirects).run with
      | none => pure ()
      | some openings =>
        let (kept, success) ← Redirect.openAll runner true [] openings
        if !success then
          modify fun s =>
            { s.done 2 with flow := if p.isSpecial = some true then .failed else .on }
        else
          let isExec := p.isExec fields
          match ← (assignAll runner p.restores (isExec && p.skipped + 1 < fields.length) settings).run with
          | none => pure ()
          | some values =>
            if (← get).has 'x' && !(← get).isListing then trace runner errors? (values ++ fields)
            runPrepared fuel standing p (fields.drop p.skipped)
        modify (Redirect.takeBack (success && p.isExec fields) kept)
        modify fun s =>
          match s.flow with
          | .failed | .exiting => s
          | _ => s.leaveFrames frames
where
  /-- Set variables, perhaps only for the command or for programs too; the texts that say so. -/
  assignAll (runner : Runner) (restores isExported : Bool) :
      List (Text × Word) → Attempt (List Text)
    | [] => return []
    | (name, word) :: rest => do
      let value ← Expand.text runner .ofSetting word
      if restores then modify (·.saveVariable name)
      let s ← Attempt.orFail ((← get).assignAs (restores || isExported) name value)
      set s
      return (name ++ '=' :: value) :: (← assignAll runner restores isExported rest)
  /-- Write what is run, behind a prompt that may be computed. If it cannot be computed, it is written as it
  is, and the command finds that something has failed. -/
  trace (runner : Runner) (errors? : Option Nat) (texts : List Text) : Act Unit := do
    modify fun s => { s with isListing := true }
    let s ← get
    let raw := s.valueOf "PS4"
    let ahead := if s.isAhead then some Token.scriptEnd else none
    let (prompt?, line) ←
      match readTemplate.run { Reader.ofText raw with again := ahead } with
      | .error .starved => pure (none, s.line)
      | .error (.flaw message reader) =>
        modify fun s => { s with line := reader.line, isAhead := reader.isAhead }.complain message
        pure (none, reader.line)
      | .ok (word, after) =>
        modify fun s => { s with documents := after.documents, isAhead := after.isAhead }
        pure (← (Expand.text runner .ofDocument word).run, s.line)
    modify fun after =>
      let status := if prompt?.isSome then s.status else 2
      let flow := if prompt?.isSome then after.flow else .on
      let after :=
        { after with isListing := false, documents := s.documents, line, status, flow }
      (after.writeTo errors? (prompt?.getD raw ++ [' '].intercalate texts ++ ['\n'])).1

/-- Run what was prepared, with its name and its arguments. -/
def runPrepared : Nat → Standing → Prepared → List Text → Act Unit
  | 0, _, _, _ => modify fun s => { s with flow := .exiting }
  | fuel + 1, standing, p, fields => do
    let name := fields.headD []
    let arguments := fields.tail
    match p.target with
    | .nothing => modify fun s => s.done s.substituted
    | .builtin => runBuiltin fuel standing (p.isSpecial = some true) name arguments
    | .function body => runFunction fuel standing.tested body arguments
    | .program => runProgram fuel standing p.isDefault name arguments

def runBuiltin : Nat → Standing → Bool → Text → List Text → Act Unit
  | 0, _, _, _, _ => modify fun s => { s with flow := .exiting }
  | fuel + 1, standing, isSpecial, name, arguments => do
    let before := (← get).builtin
    modify fun s => { s with builtin := some name }
    match Builtin.table.lookup (String.ofList name) with
    | some builtin => modify fun s => builtin s arguments
    | none => runSteering fuel standing (String.ofList name) arguments
    modify fun s =>
      let (s, success) := s.passOn
      let s :=
        if success || s.flow == .failed then s
        else
          let name := s.builtin.getD name
          (s.complain (name ++ ": I/O error".toList)).done (s.status ||| 1)
      let s := { s with builtin := before }
      if s.flow = .failed ∧ !isSpecial then { s with flow := .on } else s

/-- Run a builtin that runs other commands or waits. -/
def runSteering : Nat → Standing → String → List Text → Act Unit
  | 0, _, _, _ => modify fun s => { s with flow := .exiting }
  | fuel + 1, standing, name, arguments => do
    match name with
    | "read" => Builtin.read arguments
    | "wait" => Builtin.wait arguments
    | "eval" =>
      if arguments.isEmpty then modify (·.done 0)
      else runText fuel standing.inner ([' '].intercalate arguments)
    | "." =>
      match Builtin.options ⟨"", ""⟩ arguments with
      | .error message => modify (·.fail message)
      | .ok (_, []) => modify (·.done 0)
      | .ok (_, name :: _) =>
        let s ← get
        match scriptPath? s name with
        | none => modify (·.fail (name ++ ": not found".toList))
        | some path =>
          match s.openScript path with
          | .error message => modify (·.fail message)
          | .ok (s, channel) =>
            set { s with builtin := some path }
            runScript fuel .plain (some channel) .unread
            modify fun s =>
              let s := s.closeScript channel
              match s.flow with
              | .returning _ => { s with flow := .on }
              | _ => s
    | "exec" =>
      match arguments with
      | [] => modify (·.done 0)
      | program :: arguments =>
        execute fuel (programPaths (← get) false 0 program) program arguments
        modify fun s => { s with flow := .exiting }
    | _ => pure ()

def runFunction : Nat → Bool → Command → List Text → Act Unit
  | 0, _, _, _ => modify fun s => { s with flow := .exiting }
  | fuel + 1, tested, body, arguments => do
    let s ← get
    if maxDepth ≤ s.depth then
      modify (·.fail "Maximum function recursion depth (1000) reached".toList)
    else
      set
        { s with
          arguments, loops := 0, depth := s.depth + 1, optionIndex := 1, optionOffset := none }
      run fuel ⟨tested, false⟩ body
      modify fun after =>
        { after with
          arguments := s.arguments
          loops := s.loops
          depth := s.depth
          optionIndex := s.optionIndex
          optionOffset := s.optionOffset
          flow :=
            match after.flow with
            | .returning _ => .on
            | flow => flow }

/-- Run a program, in a process of its own unless this one ends with it. -/
def runProgram : Nat → Standing → Bool → Text → List Text → Act Unit
  | 0, _, _, _, _ => modify fun s => { s with flow := .exiting }
  | fuel + 1, standing, isDefault, name, arguments => do
    let s ← get
    let (s, index) :=
      if name.contains '/' then (s, .ok 0)
      else if isDefault then
        (s, Lookup.searchFrom s none 0 .notFound (Lookup.candidates Lookup.defaultList name))
      else Lookup.program s name
    set s
    match index with
    | .error error =>
      modify fun s => (s.complain (name ++ ": ".toList ++ Lookup.reason error)).done 127
    | .ok index =>
      let paths := programPaths s isDefault index name
      if standing.last && !s.hasTraps then
        execute fuel paths name arguments
        modify fun s => { s with flow := .exiting }
      else
        let (job, s) := s.makeJob
        set s
        let _ ← Act.forkFor job (fun _ world => world) do
          execute fuel paths name arguments
          Act.stop (.exited (UInt8.ofNat (← get).status))
        let status ← Act.finishJob job
        modify (·.done status)

/-- Let the process go on with the first program that can be run, or tell why there is none. -/
def execute : Nat → List Text → Text → List Text → Act Unit
  | 0, _, _, _ => modify fun s => { s with flow := .exiting }
  | fuel + 1, paths, name, arguments => do
    let s ← get
    match firstImage s name arguments .notFound paths with
    | .error error =>
      modify fun s =>
        (s.complain (name ++ ": ".toList ++ Lookup.reason error)).done (Lookup.statusOf error)
    | .ok image =>
      Act.become (s.program (image.arguments.map Text.ofBytes)) (runTool fuel image.tool)

end

end AmountWalk.Shell
