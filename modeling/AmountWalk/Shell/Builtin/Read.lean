import AmountWalk.Shell.Builtin.Jobs

/-!
# Reading input

`read`, which reads a line character by character, so that it takes nothing behind the line, and splits
it into fields.
-/

namespace AmountWalk.Shell.Builtin

/-- A part of a line of input. -/
inductive LinePart where
  | plain (ch : Char)
  /-- A character behind a backslash, which separates nothing. -/
  | escaped (ch : Char)
  /-- The place at which two lines were joined. -/
  | joint

/-- How the next character of a line is to be read. -/
inductive Reading where
  /-- As it is. -/
  | raw
  /-- Perhaps as a backslash that takes the meaning from the next one. -/
  | attentive
  | behindBackslash
  deriving DecidableEq

/-- A line that is being read. -/
structure InputLine where
  /-- How the next character is to be read. -/
  reading : Reading
  /-- Its parts, last first. -/
  parts : List LinePart
  /-- The number of characters that were read. -/
  length : Nat
  /-- Whether its end was read. -/
  isComplete : Bool

namespace InputLine

/-- A line of which nothing was read. -/
def start (isRaw : Bool) : InputLine := ⟨if isRaw then .raw else .attentive, [], 0, false⟩

/-- The line with what follows in a text, up to its end. -/
def extend (line : InputLine) : Text → InputLine
  | [] => line
  | ch :: rest =>
    let next (reading : Reading) (parts : List LinePart) : InputLine :=
      { line with reading, parts := parts ++ line.parts, length := line.length + 1 }
    if ch = '\x00' then (next line.reading []).extend rest
    else if line.reading = .behindBackslash then
      (next .attentive [if ch = '\n' then .joint else .escaped ch]).extend rest
    else if ch = '\n' then { next line.reading [] with isComplete := true }
    else if ch = '\\' ∧ line.reading = .attentive then (next .behindBackslash []).extend rest
    else (next line.reading [.plain ch]).extend rest

end InputLine

/-- A line that is being split into a number of fields. The last field takes what is left, without the
blank separators behind it, and if it is a single field also without the one that ends it. -/
structure LineSplitter where
  /-- The fields that have ended, last first. -/
  fields : List Text
  /-- The characters of the field that has begun, last first. -/
  current : Text
  /-- How many fields may still end; none, when the last one has ended for the first time. -/
  left : Nat
  /-- Whether blank separators stand directly before. -/
  afterBlank : Bool
  /-- The length that the last field has without what may be left out at its end. -/
  cut : Option Nat

namespace LineSplitter

/-- The splitter behind a character of the field. -/
def push (s : LineSplitter) (ch : Char) : LineSplitter := { s with current := ch :: s.current }

/-- The splitter behind a character that may separate fields. -/
def plain (separators : Text) (s : LineSplitter) (ch : Char) : LineSplitter :=
  let separates := separators.contains ch
  let blank := separates && isFieldBlank ch
  if s.left = 0 then
    if blank then { s with cut := some (s.cut.getD s.current.length) }.push ch
    else
      { s with
        cut := if separates && s.afterBlank then s.cut else none, afterBlank := false }.push ch
  else if !separates then { s with afterBlank := false }.push ch
  else if s.afterBlank then { s with afterBlank := blank }
  else if blank && s.current.isEmpty then s
  else if s.left = 1 then
    { s with left := 0, afterBlank := blank, cut := some s.current.length }.push ch
  else
    { s with
      fields := s.current.reverse :: s.fields, current := [], left := s.left - 1
      afterBlank := blank }

def step (separators : Text) (s : LineSplitter) : LinePart → LineSplitter
  | .plain ch => s.plain separators ch
  | .escaped ch => { s with afterBlank := false }.push ch
  | .joint => { s with afterBlank := false }

/-- All fields. -/
def result (s : LineSplitter) : List Text :=
  let last := s.current.reverse
  (last.take (s.cut.getD last.length) :: s.fields).reverse

end LineSplitter

/-- At most so many fields of a line. -/
def InputLine.fields (separators : Text) (count : Nat) (line : InputLine) : List Text :=
  (line.parts.reverse.foldl (LineSplitter.step separators) ⟨[], [], count, false, none⟩).result

/-- Give values to variables, and nothing to those for which there is none. -/
def assignFields : List Text → List Text → Session → Session
  | [], _, s => s
  | argument :: names, values, s =>
    let s := withVariable s argument fun name => orFail s (s.assign name (values.headD []))
    if s.isOn then assignFields names values.tail s else s

/-- Read a line, unless a signal arrives before its end. Every turn but the last reads something. -/
def readLine : Nat → InputLine → Act InputLine
  | 0, line => return line
  | fuel + 1, line => do
    let s ← get
    match s.channel? 0 with
    | none => return line
    | some number =>
      match s.world.opened.get? number with
      | none => return line
      | some file =>
        let (text, isAll) := s.world.available file
        let longer := line.extend text
        set { s with world := s.world.consume number (longer.length - line.length) }
        if longer.isComplete || isAll then return longer
        else if !(arrived s).isEmpty then return longer
        else
          let process := s.process
          Act.await fun world =>
            world.isReadable file
              || ((world.running? process).map Process.arrived).any fun arrived => !arrived.isEmpty
          readLine fuel longer

/-- Read a line into variables. -/
def read (arguments : List Text) : Act Unit := do
  match options ⟨"r", "p"⟩ arguments with
  | .error message => modify (·.fail message)
  | .ok (_, []) => modify (·.fail "arg count".toList)
  | .ok (given, names) =>
    let line ← readLine maxWaits (.start (given.any (·.letter == 'r')))
    modify fun s =>
      assignFields names (line.fields s.separators names.length) (s.verdict line.isComplete)

end AmountWalk.Shell.Builtin
