import AmountWalk.Shell.Activity
import AmountWalk.Shell.Sum
import AmountWalk.Shell.Trim

/-!
# Expansion of words

What the signs of a word stand for. A word is gone through from left to right, because taking the output
of a command and setting variables change the session. What belongs to a parameter or an expression is
expanded by a call of its own, which ends behind the sign that closes it. The caller says how a process
runs a command to its end.
-/

namespace AmountWalk.Shell

/-- How a process that has been started runs a command to its end. -/
abbrev Runner := Command → Act Unit

/-- Something that a shell does and that may fail. -/
abbrev Attempt := OptionT Act

namespace Attempt

def fail {α : Type} (message : Text) : Attempt α := do
  modify (·.fail message)
  failure

/-- Do something, or fail with a message. -/
def orFail {α : Type} : Except Text α → Attempt α
  | .ok a => return a
  | .error message => fail message

end Attempt

/-! ## Processes that are waited for -/

/-- Say that a signal has ended a process that was waited for, if that is said at all. -/
def Session.mourn (s : Session) : ExitStatus → Session
  | .exited _ => s
  | .killed signal =>
    if Signal.isQuiet signal then s else s.warn ((Signal.description signal).toList ++ ['\n'])

namespace Act

/-- Wait until the processes of a job have ended, and note how others have. -/
def waitForJob (number : Nat) : Act Unit := do
  let running (s : Session) : List Nat :=
    ((s.job? number).map fun job => (job.processes.filter (·.2.isNone)).map (·.1)).getD []
  let processes := running (← get)
  await fun world => processes.all world.hasEnded
  modify Session.collectAll
  let job? := (← get).job? number
  for process in processes do
    match (job?.bind (·.processes.get? process)).join with
    | some ending => modify (·.mourn ending)
    | none => pure ()

/-- Wait until the processes of a job have ended, and forget it; the status of the last one. -/
def finishJob (number : Nat) : Act Nat := do
  waitForJob number
  let s ← get
  set (s.dropJob number)
  return (((s.job? number).bind Job.ending?).map Session.codeOf).getD 0

/-- Start another process for a job; its number. -/
def forkFor (job : Nat) (prepare : Nat → World → World) (child : Act Unit) : Act Nat := do
  let process ← fork prepare child
  modify (·.changeJob job fun j => { j with processes := j.processes ++ [(process, none)] })
  return process

end Act

namespace Session

/-! ## Values -/

/-- The name of a parameter in messages. -/
def paramName : Param → Text
  | .named name => name
  | .position digits => digits
  | .all => ['@']
  | .joined => ['*']
  | .count => ['#']
  | .status => ['?']
  | .process => ['$']
  | .background => ['!']
  | .options => ['-']

/-- The argument with a number, or the name of the script. -/
def argument? (s : Session) : Nat → Option Text
  | 0 => some s.script
  | n + 1 => s.arguments[n]?

/-- The text of a parameter's value, if it has one. Between arguments stands a given text. -/
def paramText? (s : Session) (between : Text) : Param → Option Text
  | .named name => s.value? name
  | .position digits => s.argument? (numberOf 10 digits)
  | .all | .joined => some (between.intercalate s.arguments)
  | .count => some (digitsOf s.arguments.length)
  | .status => some (digitsOf s.status)
  | .process => some (digitsOf s.shell)
  | .background => s.background.map digitsOf
  | .options => some s.options

/-- The first separator, if there is any. -/
def separator (s : Session) : Text := s.separators.take 1

/-- The variables as arithmetic expressions use them. -/
def store : Sum.Store Session where
  get name s := s.value? name
  set name value s := s.assign name value

/-! ## Home directories -/

/-- The home directories of the users that every system has. -/
def homes : List (String × String) :=
  [("root", "/root"), ("daemon", "/usr/sbin"), ("bin", "/bin"), ("sys", "/dev"), ("sync", "/bin"),
    ("games", "/usr/games"), ("man", "/var/cache/man"), ("lp", "/var/spool/lpd"),
    ("mail", "/var/mail"), ("news", "/var/spool/news"), ("uucp", "/var/spool/uucp"),
    ("proxy", "/bin"), ("www-data", "/var/www"), ("backup", "/var/backups"), ("list", "/var/list"),
    ("irc", "/run/ircd"), ("_apt", "/nonexistent"), ("nobody", "/nonexistent")]

/-- The home directory of a user, or of the one who runs the shell. -/
def home? (s : Session) (user : Text) : Option Text :=
  if user = [] then s.value? "HOME".toList
  else (homes.lookup (String.ofList user)).map String.toList

end Session

/-! ## Atoms -/

/-- What a word is expanded for. -/
structure Manner where
  /-- Whether it becomes any number of fields. -/
  fields : Bool
  /-- Whether all of it counts as quoted. -/
  isQuoted : Bool
  /-- Whether `~` stands for a directory behind a colon as well. -/
  colons : Bool
  /-- Whether it takes the place of a value. -/
  isValue : Bool
  /-- Whether what becomes of it carries marks. -/
  hasMarks : Bool

namespace Manner

/-- A word that becomes any number of fields. -/
def ofFields : Manner := ⟨true, false, false, false, true⟩

/-- A word that becomes one text. -/
def ofText : Manner := ⟨false, false, false, false, false⟩

/-- A word that becomes a pattern. -/
def ofPattern : Manner := ⟨false, false, false, false, true⟩

/-- A word that becomes the value of a variable. -/
def ofSetting : Manner := ⟨false, false, true, false, false⟩

def ofDocument : Manner := ⟨false, true, false, false, false⟩

end Manner

namespace Expand

/-- Atoms, the last one first. -/
abbrev Atoms := List Atom

def pushChars (atoms : Atoms) (isEscaped : Char → Bool) (inRegion : Bool) (text : Text) : Atoms :=
  text.foldl (fun atoms ch => .char ch (isEscaped ch) inRegion :: atoms) atoms

/-- Atoms with a text in which no character has any other meaning. -/
def pushQuoted (atoms : Atoms) (text : Text) : Atoms :=
  pushChars atoms (fun ch => needsEscape ch || ch == '\\') false text

def pushRegion (atoms : Atoms) (text : Text) : Atoms :=
  pushChars (.region false :: atoms) (fun _ => false) true text

def pushValue (atoms : Atoms) (inQuotes : Bool) (text : Text) : Atoms :=
  if inQuotes then pushQuoted atoms text else pushRegion atoms text

/-- Atoms with a value that holds a mark for each gap, which is a region of its own. -/
def pushGaps (atoms : Atoms) (inQuotes : Bool) (text : Text) : Atoms :=
  text.foldl
    (fun atoms ch =>
      if ch = '\x00' then .gap :: atoms
      else .char ch (inQuotes && (needsEscape ch || ch == '\\')) true :: atoms)
    (.region inQuotes :: atoms)

/-- What stands between arguments, a mark if they become fields. -/
def between (s : Session) (manner : Manner) (inQuotes : Bool) (param : Param) : Text :=
  let hasSeparators : Bool := (s.value? "IFS".toList).isSome
  if manner.fields && inQuotes && param == .all then ['\x00']
  else if manner.fields && !inQuotes && hasSeparators then ['\x00']
  else if manner.fields && !inQuotes then [' ']
  else s.separator

/-- Atoms with the value of a parameter. -/
def pushParam (s : Session) (atoms : Atoms) (inQuotes : Bool) (param : Param) (text : Text) :
    Atoms :=
  let isMany : Bool := param == .all || param == .joined
  if !isMany then pushValue atoms inQuotes text
  else if inQuotes then
    if param == .all && !s.arguments.isEmpty then pushGaps atoms true text
    else pushQuoted atoms text
  else pushGaps atoms false text

/-- The signs behind the one that closes what a parameter or an expression has, from inside so many more
of them on. -/
def skipInner (depth : Nat) : Word → Word
  | [] => []
  | sign :: rest =>
    match sign with
    | .paramEnd | .sumEnd => if depth = 0 then rest else skipInner (depth - 1) rest
    | .sum => skipInner (depth + 1) rest
    | .param _ .value _ => skipInner depth rest
    | .param _ _ _ => skipInner (depth + 1) rest
    | _ => skipInner depth rest

/-- The characters at the beginning of a word, as long as no home directory may be named behind them,
and what follows. -/
def spanChars (colons : Bool) : Word → Text × Word
  | .char ch :: rest =>
    let stopsHere : Bool :=
      colons && ch == ':' &&
        match rest with
        | .char '~' :: _ => true
        | _ => false
    if stopsHere then ([ch], rest)
    else
      let (text, rest) := spanChars colons rest
      (ch :: text, rest)
  | word => ([], word)

/-- The user whose home directory is named behind a `~`, and what follows, unless the word goes on in
another way. -/
def spanUser (colons : Bool) : Word → Option (Text × Word)
  | [] => some ([], [])
  | .paramEnd :: rest => some ([], .paramEnd :: rest)
  | .char ch :: rest =>
    if ch = '/' ∨ (colons ∧ ch = ':') then some ([], .char ch :: rest)
    else (spanUser colons rest).map fun (name, rest) => (ch :: name, rest)
  | _ => none

/-- The home directory that is named at the beginning of a word, and what follows. -/
def home? (s : Session) (colons : Bool) : Word → Option (Text × Word)
  | .char '~' :: rest => do
    let (user, rest) ← spanUser colons rest
    return (← s.home? user, rest)
  | _ => none

/-! ## Outputs and sums -/

def withoutLineEnds (text : Text) : Text := (text.reverse.dropWhile (· = '\n')).reverse

/-- The output of a command, without the line ends at its end. -/
def outputOf (run : Runner) (command : Command) : Attempt Text := do
  match command with
  | .nothing => return []
  | _ =>
    if !(← get).mayMakePipe 0 then Attempt.fail "Pipe call failed".toList
    let s ← get
    let (job, s) := s.makeJob
    let (world, pipe) := s.world.makePipe (.ofText [] none)
    set { s with world }
    let prepare (process : Nat) (world : World) : World :=
      world.openAt process 1 (.toWrite (.pipe pipe))
    let _ ← (Act.forkFor job prepare (run command) : Act Nat)
    (Act.await fun world => !world.hasWriter pipe : Act Unit)
    let text := (← get).world.pipeText pipe
    modify fun s => { s with world := s.world.dropPipe pipe }
    let status ← (Act.finishJob job : Act Nat)
    modify fun s => { s with substituted := status }
    return withoutLineEnds (text.filter (· ≠ '\x00'))

/-- A text without what could be taken for a mark. The character behind a mark stays in any case. -/
def withoutMarks : Text → Text
  | [] => []
  | [ch] => if ch = quoteCell ∨ ch = escapeCell then [] else [ch]
  | ch :: next :: rest =>
    if ch = quoteCell then withoutMarks (next :: rest)
    else if ch = escapeCell then next :: withoutMarks rest
    else ch :: withoutMarks (next :: rest)

/-- The value of an arithmetic expression. -/
def sumOf (text : Text) : Attempt Text := do
  match (Sum.ofText text).value Session.store (← get) with
  | .ok (n, s) =>
    set s
    return digitsOfInt n
  | .error (.refused message) => Attempt.fail message
  | .error (.mistaken message) =>
    Attempt.fail ("arithmetic expression: ".toList ++ message ++ ": \"".toList ++ text ++ ['"'])
  | .error .overflow => OptionT.lift (Act.stop (.killed Signal.arithmetic))

/-! ## Words -/

/-- What was made of signs: atoms, and the signs that are left. -/
abbrev Expanded := Atoms × Word

/-- Fail because a parameter has no value. -/
def missing {α : Type} (param : Param) (cause : Text) : Attempt α :=
  Attempt.fail (Session.paramName param ++ ": ".toList ++ cause)

mutual

/-- Go on with signs up to the one that closes what they belong to, at whose beginning a home directory
may be named. -/
def expandHome (run : Runner) : Nat → Manner → Atoms → Word → Attempt Expanded
  | 0, _, atoms, _ => return (atoms, [])
  | fuel + 1, manner, atoms, word => do
    match home? (← get) manner.colons word with
    | some (home, rest) => expand run fuel manner false (pushQuoted atoms home) rest
    | none => expand run fuel manner false atoms word

/-- Go on with signs up to the one that closes what they belong to. -/
def expand (run : Runner) : Nat → Manner → Bool → Atoms → Word → Attempt Expanded
  | 0, _, _, atoms, _ => return (atoms, [])
  | fuel + 1, manner, inQuotes, atoms, word => do
    let quoted := manner.isQuoted || inQuotes
    let go (atoms : Atoms) (rest : Word) : Attempt Expanded :=
      expand run fuel manner inQuotes atoms rest
    match word with
    | [] => return (atoms, [])
    | .paramEnd :: rest | .sumEnd :: rest => return (atoms, rest)
    | .char first :: others =>
      let (text, rest) := spanChars manner.colons (.char first :: others)
      let atoms :=
        if manner.isValue && !quoted then pushRegion atoms text
        else pushChars atoms (fun _ => false) false text
      let s ← get
      match (if text.getLast? = some ':' then home? s manner.colons rest else none) with
      | some (home, rest) => go (pushQuoted atoms home) rest
      | none => go atoms rest
    | .escaped ch :: rest => go (.char ch true false :: atoms) rest
    | .quote :: .param .all .value false :: .quote :: rest =>
      if inQuotes then expand run fuel manner false (.mark :: atoms) (word.drop 1)
      else
        let s ← get
        let text := (s.paramText? (between s manner true .all) .all).getD []
        go (pushParam s atoms true .all text) rest
    | .quote :: rest => expand run fuel manner (!inQuotes) (.mark :: atoms) rest
    | .param param form emptyToo :: rest =>
      let (atoms, rest) ← expandParam run fuel manner quoted param form emptyToo atoms rest
      go atoms rest
    | .output command :: rest =>
      let text ← outputOf run command
      go (pushValue atoms quoted text) rest
    | .sum :: rest =>
      let (inner, rest) ← expand run fuel .ofText false [] rest
      let sum := Atom.text inner.reverse
      let text ← sumOf (if manner.hasMarks then withoutMarks sum else sum)
      go (pushValue atoms quoted text) rest

/-- Go on with a parameter and what belongs to it. -/
def expandParam (run : Runner) : Nat → Manner → Bool → Param → Form → Bool → Atoms → Word →
    Attempt Expanded
  | 0, _, _, _, _, _, atoms, _ => return (atoms, [])
  | fuel + 1, manner, quoted, param, form, emptyToo, atoms, rest => do
    let s ← get
    let text? := s.paramText? (between s manner quoted param) param
    let there? := text?.filter fun text => !(emptyToo && text.isEmpty)
    let push (text : Text) : Atoms := pushParam s atoms quoted param text
    let skipped := skipInner 0 rest
    match form with
    | .malformed => Attempt.fail "Bad substitution".toList
    | .value =>
      match text? with
      | some text => return (push text, rest)
      | none => if s.has 'u' then missing param "parameter not set".toList else return (atoms, rest)
    | .length =>
      match s.paramText? s.separator param with
      | some text => return (pushValue atoms quoted (digitsOf text.length), rest.drop 1)
      | none =>
        if s.has 'u' then missing param "parameter not set".toList
        else return (pushValue atoms quoted ['0'], rest.drop 1)
    | .default =>
      match there? with
      | some text => return (push text, skipped)
      | none => expandHome run fuel { manner with isQuoted := quoted, isValue := true } atoms rest
    | .alternative =>
      match there? with
      | some _ => expandHome run fuel { manner with isQuoted := quoted, isValue := true } atoms rest
      | none => return (if quoted then atoms else .region false :: atoms, skipped)
    | .assign =>
      match there? with
      | some text => return (push text, skipped)
      | none =>
        let (inner, rest) ← expandHome run fuel .ofText [] rest
        match param with
        | .named name =>
          let s ← Attempt.orFail ((← get).assign name (Atom.text inner.reverse))
          set s
          return (pushValue atoms quoted ((s.value? name).getD []), rest)
        | _ => missing param "bad variable name".toList
    | .error =>
      match there? with
      | some text => return (push text, skipped)
      | none =>
        let isBare : Bool :=
          match rest with
          | .paramEnd :: _ => true
          | _ => false
        let (inner, _) ← expandHome run fuel .ofText [] rest
        missing param <|
          if !isBare then Atom.text inner.reverse
          else if emptyToo then "parameter not set or null".toList
          else "parameter not set".toList
    | .trim atEnd longest =>
      match text? with
      | none => if s.has 'u' then missing param "parameter not set".toList else return (atoms, skipped)
      | some text =>
        let (inner, rest) ← expandHome run fuel .ofPattern [] rest
        return (push (trimmed quoted atEnd longest inner.reverse text), rest)

end

def atoms (run : Runner) (manner : Manner) (word : Word) : Attempt (List Atom) := do
  let (atoms, _) ←
    if manner.isQuoted then expand run (2 * word.length + 4) manner false [] word
    else expandHome run (2 * word.length + 4) manner [] word
  return atoms.reverse

def fields (run : Runner) (word : Word) : Attempt (List Text) := do
  let atoms ← atoms run .ofFields word
  let s ← get
  let split := splitFields s.separators atoms
  if s.has 'f' then return split.map Atom.text else return split.flatMap (fieldPaths s.filesListed)

def allFields (run : Runner) : List Word → Attempt (List Text)
  | [] => return []
  | word :: words => do
    let first ← fields run word
    return first ++ (← allFields run words)

/-- The text of a word that is not split. -/
def text (run : Runner) (manner : Manner) (word : Word) : Attempt Text := do
  return Atom.text (← atoms run manner word)

/-- The pattern that a word writes. -/
def pattern (run : Runner) (word : Word) : Attempt Text := do
  return Atom.pattern (← atoms run .ofPattern word)

end Expand

end AmountWalk.Shell
