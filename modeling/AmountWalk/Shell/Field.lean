import AmountWalk.Files
import AmountWalk.Shell.Pattern

/-!
# Fields

What a word gives is a list of atoms: characters, some of them without any other meaning, marks for
quotes, and the beginnings of regions with the gaps between arguments. Regions hold what was computed,
or stands for what was not there. Atoms are split into fields at the separators in regions, and a field
with a pattern stands for the paths that it matches.
-/

namespace AmountWalk.Shell

/-- A part of what a word gives. -/
inductive Atom where
  /-- A character, perhaps without any other meaning, perhaps in a region. -/
  | char (ch : Char) (isEscaped inRegion : Bool)
  /-- The beginning or the end of a quoted text. -/
  | mark
  /-- The end of one argument and the beginning of the next one, in a region. -/
  | gap
  /-- The beginning of a region, whether only its gaps separate fields or not. -/
  | region (gapsOnly : Bool)
  deriving DecidableEq

namespace Atom

def text (atoms : List Atom) : Text :=
  atoms.filterMap fun
    | char ch _ _ => some ch
    | _ => none

/-- The pattern that atoms write: behind a backslash stands what has no other meaning. A backslash that
has its own meaning takes the place of that one, except between quotes. -/
def patternFrom (inQuotes afterBackslash : Bool) : List Atom → Text
  | [] => []
  | mark :: rest => patternFrom (!inQuotes) false rest
  | char ch true _ :: rest =>
    (if !afterBackslash then ['\\', ch] else if inQuotes then ['\\', '\\', ch] else [ch])
      ++ patternFrom inQuotes false rest
  | char ch false _ :: rest => ch :: patternFrom inQuotes (ch == '\\') rest
  | gap :: _ => []
  | region _ :: rest => patternFrom inQuotes afterBackslash rest

/-- Whether an atom is nothing but a character. -/
def isPlain : Atom → Bool
  | char _ isEscaped _ => !isEscaped
  | region _ => true
  | _ => false

/-- The pattern that atoms write. What comes before all quotes stands as it is. -/
def pattern (atoms : List Atom) : Text :=
  text (atoms.takeWhile isPlain) ++ patternFrom false false (atoms.dropWhile isPlain)

end Atom

/-! ## Splitting -/

/-- A list of fields that is being made. A region forgets what the one before it ended with. -/
structure Splitter where
  /-- The fields that have ended, last first. -/
  fields : List (List Atom)
  /-- The atoms of the field that has begun, last first. -/
  current : List Atom
  /-- Whether blank separators stand directly before. -/
  afterBlank : Bool
  /-- Whether only gaps separate fields here. -/
  gapsOnly : Bool
  /-- Whether only gaps separated fields in the region before this one. -/
  wereGapsOnly : Bool

namespace Splitter

/-- No field has begun. -/
def start : Splitter := ⟨[], [], false, false, false⟩

/-- Go on with an atom of a field. -/
def push (s : Splitter) (atom : Atom) : Splitter :=
  { s with current := atom :: s.current, afterBlank := false }

/-- Go on with a separator. Blank ones count only between fields, and take one other with them. -/
def separate (s : Splitter) (isBlank : Bool) : Splitter :=
  if s.afterBlank then { s with afterBlank := isBlank }
  else
    let isBlank := isBlank && !s.gapsOnly && !s.wereGapsOnly
    if isBlank && s.current.isEmpty then s
    else { s with fields := s.current.reverse :: s.fields, current := [], afterBlank := isBlank }

/-- Go on with an atom. -/
def step (separators : Text) (s : Splitter) (atom : Atom) : Splitter :=
  match atom with
  | .region gapsOnly => { s with afterBlank := false, gapsOnly, wereGapsOnly := s.gapsOnly }
  | .gap => s.separate true
  | .char ch _ true =>
    if !s.gapsOnly && separators.contains ch then s.separate (isFieldBlank ch) else s.push atom
  | _ => s.push atom

/-- All fields. An empty one at the end counts only behind arguments. -/
def result (s : Splitter) : List (List Atom) :=
  (if s.current.isEmpty && !s.gapsOnly then s.fields else s.current.reverse :: s.fields).reverse

end Splitter

def splitFields (separators : Text) (atoms : List Atom) : List (List Atom) :=
  (atoms.foldl (Splitter.step separators) .start).result

/-! ## Paths that match -/

/-- Texts in order, byte by byte. -/
def sortTexts (texts : List Text) : List Text := texts.mergeSort fun a b => !decide (b < a)

def namesIn (files : Files) (directory : Location) : List Text :=
  files.nodes.filterMap fun (location, _) =>
    match location.getLast? with
    | some name => if location.dropLast = directory then some (Text.ofBytes name) else none
    | none => none

/-- A text without the backslashes that take the meaning from other characters. -/
def withoutEscapes : Text → Text
  | '\\' :: ch :: rest => ch :: withoutEscapes rest
  | ch :: rest => ch :: withoutEscapes rest
  | [] => []

/-- Whether a bracket that was opened in front of a text is closed before the next slash. -/
def isClosed (text : Text) : Bool :=
  go (if text.head? = some '!' then text.drop 1 else text)
where
  /-- Go on behind the first character in the brackets or in front of it. -/
  go : Text → Bool
    | '\\' :: '/' :: _ | '/' :: _ => false
    | '\\' :: _ :: ']' :: _ => true
    | '\\' :: _ :: rest => go rest
    | _ :: ']' :: _ => true
    | _ :: rest => go rest
    | [] => false

/-- The first component of a path that is a pattern. -/
structure PathSplit where
  /-- The path of its directory, last character first. -/
  before : Text
  /-- The component, last character first. -/
  component : Text
  /-- What follows its slash, if it has one. -/
  after? : Option Text

/-- Find the first component that is a pattern, from a place in a path on. -/
def splitAtPattern (found : Bool) (before component : Text) : Text → Option PathSplit
  | [] => if found then some ⟨before, component, none⟩ else none
  | '\\' :: '/' :: rest | '/' :: rest =>
    if found then some ⟨before, component, some rest⟩
    else splitAtPattern false ('/' :: (withoutEscapes component.reverse).reverse ++ before) [] rest
  | '\\' :: ch :: rest => splitAtPattern found before (ch :: '\\' :: component) rest
  | ch :: rest =>
    let isSpecial : Bool := ch == '*' || ch == '?' || (ch == '[' && isClosed rest)
    splitAtPattern (found || isSpecial) before (ch :: component) rest

/-- The paths that a pattern matches behind the path of a directory. Names that begin with a point are
matched only by a component that does. -/
def matchingPaths (files : Files) : Nat → Text → Text → List Text
  | 0, _, _ => []
  | fuel + 1, directory, pattern =>
    match splitAtPattern false [] [] pattern with
    | none =>
      let path := directory ++ withoutEscapes pattern
      match directory, files.locate path.toBytes with
      | _ :: _, .ok _ => [path]
      | _, _ => []
    | some split =>
      let directory := directory ++ split.before.reverse
      match files.locate (if directory = [] then PathText.here else directory.toBytes) with
      | .ok (location, .directory) =>
        let component := split.component.reverse
        let pointed : Bool := (withoutEscapes component).head? == some '.'
        let names := (if pointed then [['.'], ['.', '.']] else []) ++ namesIn files location
        let matching := names.filter fun name =>
          (pointed || name.head? != some '.') && Pattern.accepts component name
        match split.after? with
        | none => matching.map (directory ++ ·)
        | some after =>
          matching.flatMap fun name => matchingPaths files fuel (directory ++ name ++ ['/']) after
      | _ => []

/-- The paths that a field stands for, or its text. -/
def fieldPaths (files : Files) (field : List Atom) : List Text :=
  let text := Atom.text field
  if text.any fun ch => ch == '*' || ch == '?' || ch == '[' then
    let pattern := Atom.pattern field
    match matchingPaths files (pattern.length + 1) [] pattern with
    | [] => [text]
    | paths => sortTexts paths
  else [text]

end AmountWalk.Shell
