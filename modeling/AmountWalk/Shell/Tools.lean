import AmountWalk.Shell.Escape
import AmountWalk.Shell.Floating
import AmountWalk.Shell.Input

/-!
# The programs that every system has

What the small programs do that come with every system: they write texts, copy files, or wait. Each one
finds its name and its arguments in its session and ends its process.
-/

namespace AmountWalk.Shell

namespace Tools

/-! ## Messages -/

/-- Whether a character can be seen, or is a space. -/
def isPrintable (ch : Char) : Bool := ' ' ≤ ch && ch ≤ '~'

/-- Whether a character stands for itself wherever it stands. -/
def isPlain (ch : Char) : Bool := continuesName ch || "%+,-./@]".toList.contains ch

/-- Whether a shell reads a name as it is. -/
def isPlainName (name : Text) : Bool :=
  let isPlainLater (ch : Char) : Bool := isPlain ch || "#~\x7b\x7d".toList.contains ch
  match name with
  | [] => false
  | [ch] => isPlain ch
  | first :: rest => (isPlain first || first == '\x7b' || first == '\x7d') && rest.all isPlainLater

/-- Whether a name that holds a quote may stand between double quotes. -/
def isApostrophized (name : Text) : Bool :=
  let isPlainHere (ch : Char) : Bool := isPlain ch || ch == ' ' || ch == ':' || ch == '\''
  match name with
  | [] => false
  | first :: rest =>
    name.contains '\'' && (isPlainHere first || first == '#' || first == '~') && rest.all isPlainHere

/-- What a backslash and some characters stand for, by the character. -/
def afterBackslash (ch : Char) : Text :=
  match [('\x07', 'a'), ('\x08', 'b'), ('\x09', 't'), ('\n', 'n'), ('\x0b', 'v'), ('\x0c', 'f'),
    ('\r', 'r')].lookup ch with
  | some letter => [letter]
  | none => octalOf ch
where
  /-- Three octal digits. -/
  octalOf (ch : Char) : Text :=
    [ch.toNat / 64, ch.toNat / 8 % 8, ch.toNat % 8].flatMap digitsOf

/-- The rest of a name between single quotes, and the quote that closes it. Characters that cannot be seen stand
between quotes of their own, which may be open. -/
def quotedFrom : Bool → Text → Text
  | _, [] => ['\'']
  | isOpen, ch :: rest =>
    if ch = '\'' then "'\\''".toList ++ quotedFrom false rest
    else if isPrintable ch then (if isOpen then ['\'', '\''] else []) ++ ch :: quotedFrom false rest
    else (if isOpen then [] else "'$'".toList) ++ '\\' :: afterBackslash ch ++ quotedFrom true rest

/-- A name as messages show it: so that a shell would read it as the name. One that holds a quote and ends
with a character that cannot be seen begins as if quotes for such characters were open. -/
def quoted (name : Text) : Text :=
  if isPlainName name then name
  else if isApostrophized name then '"' :: name ++ ['"']
  else '\'' :: quotedFrom (name.contains '\'' && name.getLast?.any (!isPrintable ·)) name

/-- A text between quotes, in which quotes and backslashes have a backslash and all characters can be seen. -/
def escaped (text : Text) : Text :=
  let signs := text.flatMap fun ch =>
    if ch = '\'' ∨ ch = '\\' then ['\\', ch]
    else if isPrintable ch then [ch]
    else '\\' :: afterBackslash ch
  '\'' :: signs ++ ['\'']

/-- What is wrong with an option that is written with a word. -/
def unknownWord (name : Text) : Text := "unrecognized option '--".toList ++ name ++ ['\'']

/-- What is wrong with an option that is written with a letter. -/
def unknownLetter (letter : Char) : Text := "invalid option -- '".toList ++ [letter, '\'']

/-- The arguments of a program that has no options. -/
def operandsOf : List Text → Except Text (List Text)
  | [] => .ok []
  | argument :: rest =>
    match argument with
    | ['-', '-'] => .ok rest
    | '-' :: '-' :: name => .error (unknownWord name)
    | '-' :: letter :: _ => .error (unknownLetter letter)
    | _ => (operandsOf rest).map (argument :: ·)

/-- Write a message behind the name of the program. -/
def complain (s : Session) (message : Text) : Session :=
  s.warn (s.script ++ ": ".toList ++ message ++ ['\n'])

/-- Write a message about arguments that make no sense, and where to learn more. -/
def misused (s : Session) (message : Text) : Session :=
  let s := complain s message
  s.warn ("Try '".toList ++ s.script ++ " --help' for more information.\n".toList)

/-- End the process. -/
def exit (status : UInt8) : Act Unit := Act.stop (.exited status)

/-- Write to the output; the error if that was not possible. -/
def put (text : Text) : Act (Option IoError) := do
  let s ← get
  match s.channel? 1 with
  | none => return (if text.isEmpty then none else some .notOpen)
  | some number =>
    let (s', success) := if text.isEmpty then (s, true) else s.writeTo (some number) text
    set s'
    Act.pause
    if success then return none
    else
      match (s.world.opened.get? number).map Opened.target with
      | some (.device .full) => return some .noSpace
      | _ => return some .notOpen

/-! ## Writing texts -/

/-- Write the arguments, separated by blanks. -/
def echo : Act Unit := do
  let isOption (text : Text) : Bool :=
    match text with
    | '-' :: letter :: letters => (letter :: letters).all fun ch => ['n', 'e', 'E'].contains ch
    | _ => false
  let arguments := (← get).arguments
  let options := (arguments.takeWhile isOption).flatMap List.tail
  let text := [' '].intercalate (arguments.dropWhile isOption)
  let readsEscapes : Bool := (options.filter (· ≠ 'n')).getLast? == some 'e'
  let result := if readsEscapes then unescape text else ⟨text, false⟩
  match ← put (result.text ++ if result.ended || options.contains 'n' then [] else ['\n']) with
  | none => exit 0
  | some error =>
    modify (complain · ("write error: ".toList ++ error.words.toList))
    exit 1

/-! ## Copying files -/

/-- What is changed about contents that are copied. -/
structure Copying where
  /-- Whether lines are numbered. -/
  numbers : Bool
  /-- Whether lines are numbered that are not empty, and only these. -/
  numbersFull : Bool
  /-- Whether empty lines behind an empty line are left out. -/
  squeezes : Bool
  /-- Whether the ends of lines are shown. -/
  showsEnds : Bool
  showsTabs : Bool
  /-- Whether other characters are shown that cannot be seen. -/
  showsOthers : Bool

namespace Copying

/-- Nothing is changed. -/
def exact : Copying := ⟨false, false, false, false, false, false⟩

/-- What an option asks for, if there is such an option. -/
def withLetter? (copying : Copying) : Char → Option Copying
  | 'A' => some { copying with showsEnds := true, showsTabs := true, showsOthers := true }
  | 'b' => some { copying with numbers := true, numbersFull := true }
  | 'e' => some { copying with showsEnds := true, showsOthers := true }
  | 'E' => some { copying with showsEnds := true }
  | 'n' => some { copying with numbers := true }
  | 's' => some { copying with squeezes := true }
  | 't' => some { copying with showsTabs := true, showsOthers := true }
  | 'T' => some { copying with showsTabs := true }
  | 'u' => some copying
  | 'v' => some { copying with showsOthers := true }
  | _ => none

/-- The letters of the options with names. -/
def letters : List (String × Char) :=
  [("show-all", 'A'), ("number-nonblank", 'b'), ("show-ends", 'E'), ("number", 'n'),
    ("squeeze-blank", 's'), ("show-tabs", 'T'), ("show-nonprinting", 'v')]

/-- Whether nothing is changed. -/
def isExact (c : Copying) : Bool :=
  !(c.numbers || c.squeezes || c.showsEnds || c.showsTabs || c.showsOthers)

def shown (c : Copying) (ch : Char) : Text :=
  if ch = '\t' then (if c.showsTabs then "^I".toList else [ch])
  else if !c.showsOthers then [ch]
  else
    let low (n : Nat) : Text :=
      if n < 32 then ['^', Char.ofNat (n + 64)] else if n = 127 then "^?".toList else [Char.ofNat n]
    if ch.toNat < 128 then low ch.toNat else "M-".toList ++ low (ch.toNat - 128)

/-- The lines of a text, each with its end if it has one. -/
def lines : Text → List Text
  | [] => []
  | ch :: rest =>
    if ch = '\n' then [ch] :: lines rest
    else
      match lines rest with
      | [] => [[ch]]
      | first :: others => (ch :: first) :: others

/-- Go through lines with the number of the next one, behind an empty one or not. -/
def fromLine (c : Copying) : Nat → Bool → List Text → Text
  | _, _, [] => []
  | number, isBehindEmpty, line :: rest =>
    let isEmpty : Bool := line == ['\n']
    if isEmpty && isBehindEmpty && c.squeezes then c.fromLine number true rest
    else
      let isNumbered : Bool := c.numbers && !(c.numbersFull && isEmpty)
      let digits := digitsOf number
      let head :=
        if isNumbered then List.replicate (6 - digits.length) ' ' ++ digits ++ ['\t'] else []
      let body := (line.filter (· ≠ '\n')).flatMap c.shown
      let tail := if line.contains '\n' then (if c.showsEnds then ['$', '\n'] else ['\n']) else []
      head ++ body ++ tail ++ c.fromLine (if isNumbered then number + 1 else number) isEmpty rest

/-- What is written in place of a text. -/
def apply (c : Copying) (text : Text) : Text :=
  if c.isExact then text else c.fromLine 1 false (lines text)

end Copying

/-- What the arguments of a program that copies files ask for, and the other arguments. -/
def copyingOf (copying : Copying) : List Text → Except Text (Copying × List Text)
  | [] => .ok (copying, [])
  | argument :: rest =>
    match argument with
    | ['-', '-'] => .ok (copying, rest)
    | '-' :: '-' :: name =>
      match (Copying.letters.lookup (String.ofList name)).bind copying.withLetter? with
      | some copying => copyingOf copying rest
      | none => .error (unknownWord name)
    | '-' :: letter :: letters =>
      match turn copying (letter :: letters) with
      | .ok copying => copyingOf copying rest
      | .error unknown => .error (unknownLetter unknown)
    | _ => (copyingOf copying rest).map fun (copying, others) => (copying, argument :: others)
where
  /-- What letters ask for, or the first one that is no option. -/
  turn (copying : Copying) : Text → Except Char Copying
    | [] => .ok copying
    | letter :: letters =>
      match copying.withLetter? letter with
      | some copying => turn copying letters
      | none => .error letter

/-- Whether a file is copied to its own end. -/
def isOwnOutput (s : Session) (file : Opened) : Bool :=
  match file.target, (s.channel? 1).bind s.world.opened.get? with
  | .file location, some output =>
    output.target == .file location && file.offset < (s.world.content location).length
  | _, _ => false

/-- Copy what is left to be read from a channel, block by block; what was read, if it is to be changed
first. -/
def copyChannel (isExact : Bool) : Nat → Nat → Text → Act Text
  | 0, _, read => return read
  | fuel + 1, channel, read => do
    let block ← readBlock maxWaits channel
    if block.isEmpty then return read
    else if isExact then
      match ← put block with
      | none => copyChannel isExact fuel channel read
      | some error =>
        modify (complain · ("write error: ".toList ++ error.words.toList))
        Act.stop (.exited 1)
    else copyChannel isExact fuel channel (read ++ block)

/-- Copy files one after another; what was read from them, if it is to be changed first, and whether
nothing was wrong. -/
def copyFiles (isExact : Bool) : List Text → Text → Bool → Act (Text × Bool)
  | [], read, success => return (read, success)
  | name :: rest, read, success => do
    let s ← get
    let failed (error : IoError) : Act (Text × Bool) := do
      modify (complain · (quoted name ++ ": ".toList ++ error.words.toList))
      copyFiles isExact rest read false
    let opened : Except IoError (Session × Nat) :=
      if name = ['-'] then (if (s.channel? 0).isSome then .ok (s, 0) else .error .notOpen)
      else do
        let channel ← s.nextChannel
        match ← s.target name with
        | .device .terminal => .error .noDevice
        | target => .ok (s.openAt channel (.toRead target), channel)
    match opened with
    | .error error => failed error
    | .ok (s, channel) =>
      match (s.channel? channel).bind s.world.opened.get? with
      | none => failed .notOpen
      | some file =>
        match file.target with
        | .directory _ => failed .isADirectory
        | _ =>
          if isOwnOutput s file then
            modify (complain · (quoted name ++ ": input file is output file".toList))
            copyFiles isExact rest read false
          else
            set s
            let read ← copyChannel isExact maxWaits channel read
            modify fun s => if channel = 0 then s else s.lead channel none
            copyFiles isExact rest read success

/-- Write the contents of files, or what can be read. -/
def cat : Act Unit := do
  let s ← get
  match copyingOf .exact s.arguments with
  | .error message =>
    modify (misused · message)
    exit 1
  | .ok (copying, names) =>
    if (s.channel? 1).isNone then
      modify (complain · ("standard output: ".toList ++ IoError.notOpen.words.toList))
      exit 1
    let names := if names.isEmpty then [['-']] else names
    let (read, success) ← copyFiles copying.isExact names [] true
    match ← put (copying.apply read) with
    | none =>
      if names.contains ['-'] && ((← get).channel? 0).isNone then
        modify (complain · ("closing standard input: ".toList ++ IoError.notOpen.words.toList))
      exit (if success then 0 else 1)
    | some error =>
      modify (complain · ("write error: ".toList ++ error.words.toList))
      exit 1

/-! ## Waiting -/

/-- The number of seconds in a unit of time. -/
def unit? : Text → Option Nat
  | [] | ['s'] => some 1
  | ['m'] => some 60
  | ['h'] => some 3600
  | ['d'] => some 86400
  | _ => none

/-- A number of nanoseconds that nobody waits for. -/
def forever : Nat := Nat.pow 10 30

/-- The number of nanoseconds that an argument writes. -/
def duration? (text : Text) : Option Nat := do
  let text := text.dropWhile isNumberBlank
  let (isNegative, text) :=
    match text with
    | '-' :: rest => (true, rest)
    | '+' :: rest => (false, rest)
    | _ => (false, text)
  let (amount, rest) ← Amount.leading? text
  let unit ← unit? rest
  match amount with
  | .finite f =>
    if isNegative && f.num ≠ 0 then none
    else return min forever (f.num * unit * Nat.pow 10 9 / f.den)
  | .infinite => if isNegative then none else return forever
  | .undefined => none

/-- Wait for as long as the arguments say together. -/
def sleep : Act Unit := do
  match operandsOf (← get).arguments with
  | .error message =>
    modify (misused · message)
    exit 1
  | .ok [] =>
    modify (misused · "missing operand".toList)
    exit 1
  | .ok texts =>
    let durations := texts.map fun text => (text, duration? text)
    if durations.any (·.2.isNone) then
      for (text, duration?) in durations do
        if duration?.isNone then
          modify (complain · ("invalid time interval ".toList ++ escaped text))
      modify fun s => s.warn ("Try '".toList ++ s.script ++ " --help' for more information.\n".toList)
      exit 1
    else
      Act.sleep (durations.foldl (fun sum (_, duration?) => sum + duration?.getD 0) 0)
      exit 0

end Tools

end AmountWalk.Shell
