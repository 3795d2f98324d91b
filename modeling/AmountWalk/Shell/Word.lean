import AmountWalk.Shell.Reader

/-!
# Reading words

A word is read character by character. What a character means depends on the quotes and brackets around
it. Curly brackets and arithmetic expressions may open a *level* with quotes of its own, and the levels
around it wait until it ends. A document is read like a text between double quotes that ends with a
line. A command inside a word is read by a parser that the caller supplies.
-/

namespace AmountWalk.Shell

/-- How a text is quoted. -/
inductive Quotes where
  /-- Not at all. -/
  | none
  /-- By double quotes. -/
  | double
  /-- By single quotes. -/
  | single
  /-- As an arithmetic expression. -/
  | sum
  deriving DecidableEq

/-- A part of a word with quotes and brackets of its own. -/
structure Level where
  /-- How the text is quoted here. -/
  quotes : Quotes
  /-- Whether double quotes stand around all of it. -/
  isDouble : Bool
  /-- Whether a double quote is open inside the curly brackets. -/
  isInner : Bool
  /-- Whether the level ends with its outermost curly bracket. -/
  endsWithBraces : Bool
  /-- The number of open curly brackets. -/
  braces : Nat
  /-- The number of these that stand between double quotes. -/
  doubleBraces : Nat
  /-- The number of open brackets of an expression. -/
  brackets : Nat

namespace Level

/-- A level in which nothing is open. -/
def start (quotes : Quotes) (isDouble endsWithBraces : Bool) : Level :=
  ⟨quotes, isDouble, false, endsWithBraces, 0, 0, 0⟩

/-- The level behind a double quote. -/
def toggled (l : Level) : Level := if 0 < l.braces then { l with isInner := !l.isInner } else l

/-- Whether a backslash in front of a character stands for itself as well. -/
def keepsBackslash (l : Level) (inDocument : Bool) (ch : Char) : Bool :=
  let isOutside : Bool := l.braces == 0
  l.isDouble && ch != '\\' && ch != '\x60' && ch != '$' && (ch != '"' || (inDocument && isOutside))
    && (ch != '}' || isOutside)

end Level

/-- What kind of text is read. -/
inductive Purpose where
  /-- A word of the script. -/
  | word
  /-- A word that ends a document, in which dollar signs and backquotes stand for themselves. -/
  | delimiter
  /-- A document, which ends with a line. -/
  | document (delimiter : Text) (dropTabs : Bool)
  /-- A text without an end of its own. -/
  | template

namespace Purpose

/-- Whether a text is read like a document, in which only what is computed has a meaning. -/
def isDocument : Purpose → Bool
  | word | delimiter => false
  | document _ _ | template => true

end Purpose

/-- A reader of commands: up to the bracket that closes them, which is skipped, or as far as they go. -/
abbrev CommandReader := Bool → Parser Command

/-- A word that is being read. -/
structure WordDraft where
  /-- The level of the next character. -/
  level : Level
  /-- The levels around it. -/
  outer : List Level
  /-- The signs so far, last first. -/
  signs : Word
  isQuoted : Bool

namespace WordDraft

def put (d : WordDraft) (sign : Sign) : WordDraft := { d with signs := sign :: d.signs }

def char (d : WordDraft) (ch : Char) : WordDraft := d.put (.char ch)

/-- The draft with one more character without any other meaning. -/
def escaped (d : WordDraft) (ch : Char) : WordDraft := d.put (.escaped ch)

/-- The draft with a mark for a quote, which a document does not need. -/
def mark (d : WordDraft) (purpose : Purpose) : WordDraft :=
  if purpose.isDocument then d else d.put .quote

/-- The draft at a new level. -/
def push (d : WordDraft) (level : Level) : WordDraft :=
  { d with level, outer := d.level :: d.outer }

/-- The draft at the level around this one. -/
def pop (d : WordDraft) : WordDraft :=
  match d.outer with
  | [] => d
  | level :: outer => { d with level, outer }

end WordDraft

/-! ## Characters -/

/-- Whether a character ends a word outside of quotes. -/
def endsWord (ch : Char) : Bool := isBlank ch || ";&|<>()".toList.contains ch

/-- Whether a quoted character needs a mark so that it has no other meaning. -/
def needsEscape (ch : Char) : Bool := "!*?[=~:/-]".toList.contains ch

/-- The parameter that a character after a dollar sign stands for. -/
def specialParam? (ch : Char) : Option Param :=
  match ch with
  | '@' => some .all
  | '*' => some .joined
  | '#' => some .count
  | '?' => some .status
  | '$' => some .process
  | '!' => some .background
  | '-' => some .options
  | _ => if isDigit ch then some (.position [ch]) else none

/-- What is done about a missing value, by the character that says so. -/
def missingForm? (ch : Char) : Option Form :=
  match ch with
  | '}' => some .value
  | '-' => some .default
  | '+' => some .alternative
  | '?' => some .error
  | '=' => some .assign
  | _ => none

/-! ## Parameters in curly brackets -/

/-- What was read behind a dollar sign and an opening curly bracket. -/
structure ParamHead where
  param : Param
  form : Form
  /-- Whether an empty value counts as missing. -/
  emptyToo : Bool

/-- A parameter in a form that there is not. -/
def ParamHead.malformed : ParamHead := ⟨.count, .malformed, false⟩

/-- Read the operator behind a parameter. One that is none is skipped too. -/
def readForm (param : Param) : Parser ParamHead := do
  let missing (emptyToo : Bool) : Parser ParamHead := do
    match ← Parser.peek with
    | none => return .malformed
    | some ch =>
      Parser.skipUncounted
      match missingForm? ch with
      | some form => return ⟨param, form, emptyToo⟩
      | none => return { ParamHead.malformed with emptyToo }
  match ← Parser.peek with
  | some ':' =>
    Parser.skip
    missing true
  | some '%' =>
    Parser.skip
    return ⟨param, .trim true (← Parser.skip? '%'), false⟩
  | some '#' =>
    Parser.skip
    return ⟨param, .trim false (← Parser.skip? '#'), false⟩
  | _ => missing false

/-- Read the name or number at the beginning of a text, if there is one. -/
def readNamed? (fuel : Nat) : Parser (Option Param) := do
  match ← Parser.peek with
  | none => return none
  | some ch =>
    if startsName ch then return some (.named (← Parser.takeWhile continuesName fuel))
    else if isDigit ch then return some (.position (← Parser.takeWhile isDigit fuel))
    else return none

/-- Read the name or number whose length is asked for, in front of the closing bracket. -/
def readLength (fuel : Nat) : Parser ParamHead := do
  match ← readNamed? fuel with
  | none => return .malformed
  | some param => if (← Parser.peek) = some '}' then return ⟨param, .length, false⟩ else return .malformed

/-- Read what follows a dollar sign and an opening curly bracket, up to the word that belongs to the
parameter or, if none does, the closing bracket. -/
def readHead (fuel : Nat) : Parser ParamHead := do
  match ← readNamed? fuel with
  | some param => readForm param
  | none =>
    match ← Parser.peek with
    | none | some '}' => return .malformed
    | some '#' =>
      Parser.skip
      match ← Parser.peek with
      | none => return .malformed
      | some next =>
        if continuesName next then readLength fuel
        else
          -- The length of a special parameter, unless this one is about `#` itself.
          let before ← get
          Parser.skipUncounted
          if next ≠ '}' ∧ (← Parser.peek) = some '}' then
            match specialParam? next with
            | some param => return ⟨param, .length, false⟩
            | none => return .malformed
          else
            set before
            readForm .count
    | some ch =>
      Parser.skipUncounted
      match specialParam? ch with
      | some param => readForm param
      | none => return .malformed

/-! ## Commands in backquotes -/

/-- Read the text of a command in backquotes and the one that closes it. -/
def readBackquoted (isDouble : Bool) : Nat → Parser Text
  | 0 => Parser.fail "EOF in backquote substitution"
  | fuel + 1 => do
    match ← Parser.peek with
    | none => Parser.fail "EOF in backquote substitution"
    | some ch =>
      Parser.skip
      if ch = '\x60' then return []
      else if ch = '\\' then
        match ← Parser.peekRaw with
        | none => Parser.fail "EOF in backquote substitution"
        | some next =>
          Parser.skip
          let rest ← readBackquoted isDouble fuel
          if next = '\\' ∨ next = '\x60' ∨ next = '$' ∨ (isDouble ∧ next = '"') then
            return next :: rest
          else return '\\' :: next :: rest
      else return ch :: (← readBackquoted isDouble fuel)

/-! ## Words -/

namespace WordDraft

/-- The draft behind a parameter, whose word may stand at a level of its own. -/
def withParam (d : WordDraft) (head : ParamHead) : WordDraft :=
  let sign : Sign := .param head.param head.form head.emptyToo
  if head.form = .value ∧ !head.emptyToo then d.put sign
  else
    let isTrim : Bool :=
      match head.form with
      | .trim _ _ => true
      | _ => false
    let quotes : Quotes :=
      if isTrim then .none else if d.level.quotes = .sum then .double else d.level.quotes
    let d :=
      if quotes ≠ d.level.quotes ∨ d.level.isInner then
        d.push (.start quotes (quotes ≠ .none) true)
      else d
    let l := d.level
    { d.put sign with
      level :=
        { l with
          braces := l.braces + 1
          doubleBraces := if l.isDouble then l.doubleBraces + 1 else l.doubleBraces } }

/-- The draft behind a closing curly bracket. -/
def closeBrace (d : WordDraft) : WordDraft :=
  let l := d.level
  if l.isInner ∨ l.braces = 0 then d.char '}'
  else
    let after : WordDraft := { d with level := { l with braces := l.braces - 1 } }
    let after :=
      if l.braces = 1 ∧ l.endsWithBraces then after.pop
      else { after with level := { after.level with doubleBraces := l.doubleBraces - 1 } }
    after.put .paramEnd

/-- The draft behind the quote that ends a quoted text. -/
def closeQuote (d : WordDraft) (purpose : Purpose) (quote : Char) : WordDraft :=
  let l := d.level
  if purpose.isDocument ∧ l.braces = 0 then d.char quote
  else
    let l := if l.doubleBraces = 0 then { l with quotes := .none, isDouble := false } else l
    let l := if quote = '"' then l.toggled else l
    { d with level := l, isQuoted := true }.mark purpose

end WordDraft

/-- Read what follows a dollar sign. -/
def readDollar (commands : CommandReader) (fuel : Nat) (purpose : Purpose) (d : WordDraft) :
    Parser WordDraft := do
  let isDelimiter : Bool :=
    match purpose with
    | .delimiter => true
    | _ => false
  if isDelimiter then return d.char '$'
  match ← Parser.peek with
  | some '(' =>
    Parser.skip
    if (← Parser.skip? '(') then return (d.put .sum).push (.start .sum true false)
    else return d.put (.output (← Parser.apart (commands true)))
  | some '\x7b' =>
    Parser.skip
    return d.withParam (← readHead fuel)
  | some ch =>
    if startsName ch then
      return d.put (.param (.named (← Parser.takeWhile continuesName fuel)) .value false)
    else
      match specialParam? ch with
      | some param =>
        Parser.skip
        return d.put (.param param .value false)
      | none => return d.char '$'
  | none => return d.char '$'

/-- Read what follows a backslash. -/
def readEscaped (purpose : Purpose) (d : WordDraft) : Parser WordDraft := do
  match ← Parser.peekRaw with
  | none => return d.escaped '\\'
  | some ch =>
    Parser.skip
    let d := if d.level.keepsBackslash purpose.isDocument ch then d.escaped '\\' else d
    return { d.escaped ch with isQuoted := true }

/-- The draft behind a character that was skipped. -/
def readSign (commands : CommandReader) (fuel : Nat) (purpose : Purpose) (d : WordDraft)
    (ch : Char) : Parser WordDraft := do
  let l := d.level
  let backquotes : Parser WordDraft := do
    match purpose with
    | .delimiter => return d.char '\x60'
    | _ =>
      let text ← readBackquoted l.isDouble fuel
      return d.put (.output (← Parser.within text (Parser.apart (commands false))))
  let escapedHere (also : Char → Bool) : WordDraft :=
    if (needsEscape ch || also ch) && (!purpose.isDocument || l.isDouble || 0 < l.braces) then
      d.escaped ch
    else d.char ch
  match l.quotes with
  | .single =>
    if ch = '\'' then return d.closeQuote purpose ch else return escapedHere (· == '\\')
  | .none =>
    match ch with
    | '\\' => readEscaped purpose d
    | '\'' => return { d with level := { l with quotes := .single } }.mark purpose
    | '"' =>
      return { d with level := { l with quotes := .double, isDouble := true }.toggled }.mark purpose
    | '\x60' => backquotes
    | '$' => readDollar commands fuel purpose d
    | '\x7d' => return d.closeBrace
    | _ => return d.char ch
  | .double =>
    match ch with
    | '\\' => readEscaped purpose d
    | '"' => return d.closeQuote purpose ch
    | '\x60' => backquotes
    | '$' => readDollar commands fuel purpose d
    | '\x7d' => return d.closeBrace
    | _ => return escapedHere fun _ => false
  | .sum =>
    match ch with
    | '\\' => readEscaped purpose d
    | '\x60' => backquotes
    | '$' => readDollar commands fuel purpose d
    | '\x7d' => return d.closeBrace
    | '(' => return { d with level := { l with brackets := l.brackets + 1 } }.char ch
    | ')' =>
      if 0 < l.brackets then return { d with level := { l with brackets := l.brackets - 1 } }.char ch
      else if (← Parser.skip? ')') then return d.pop.put .sumEnd
      else return d.char ch
    | _ => return d.char ch

/-- Skip the line that ends a document, if it comes next. It counts as a line, even if the script ends with
it. Also tell whether the next character is to be read as it is, because tabs were dropped in front of it. -/
def skipDelimiter (delimiter : Text) (dropTabs isRaw : Bool) : Parser (Bool × Bool) := do
  let _ ← if isRaw then Parser.peekRaw else Parser.peek
  Parser.need (·.contains '\n')
  let r ← get
  let tabs := if dropTabs then (r.rest.takeWhile (· = '\t')).length else 0
  set (r.behind tabs)
  let text := (← get).rest
  if delimiter.isPrefixOf text then
    match text.drop delimiter.length with
    | [] =>
      modify fun r => { r.behind delimiter.length with line := r.line + 1 }
      return (true, false)
    | '\n' :: _ =>
      modify (·.behind (delimiter.length + 1))
      return (true, false)
    | _ => return (false, 0 < tabs)
  else return (false, 0 < tabs)

/-- Read the signs of a word or a text up to its end. -/
def readSigns (commands : CommandReader) (purpose : Purpose) :
    Nat → Bool → Bool → WordDraft → Parser WordDraft
  | 0, _, _, _ => Parser.fail "Word too long"
  | fuel + 1, atLineStart, isRaw, d => do
    let isSingle := d.level.quotes = .single
    let (hasEnded, isRaw) ←
      match purpose, atLineStart with
      | .document delimiter dropTabs, true => skipDelimiter delimiter dropTabs isSingle
      | _, _ => pure (false, isRaw)
    if hasEnded then return d
    let next ← if isSingle || isRaw then Parser.peekRaw else Parser.peek
    match next with
    | none => return d
    | some ch =>
      let isOpen : Bool := d.level.quotes == .none && d.level.braces == 0
      if isOpen && (endsWord ch || ch == '\n') then return d
      Parser.skip
      if ch = '\n' then readSigns commands purpose fuel true false (d.char ch)
      else readSigns commands purpose fuel false false (← readSign commands fuel purpose d ch)

/-- Read the signs of a word or a text, which has to be complete. -/
def readComplete (commands : CommandReader) (fuel : Nat) (purpose : Purpose) (quotes : Quotes) :
    Parser WordDraft := do
  let d ← readSigns commands purpose fuel true false ⟨.start quotes (quotes = .double) false, [], [], false⟩
  let l := d.level
  if l.quotes = .sum then Parser.fail "Missing '))'"
  else if l.quotes ≠ .none ∧ !purpose.isDocument then Parser.fail "Unterminated quoted string"
  else if 0 < l.braces then Parser.fail "Missing '\x7d'"
  else
    let word := d.signs.reverse
    return { d with signs := word }

def readDocument (commands : CommandReader) (fuel : Nat) (a : Announced) : Parser Unit := do
  let d ← readComplete commands fuel (.document a.delimiter a.dropTabs)
    (if a.isLiteral then .single else .double)
  modify fun r => { r with documents := r.documents.setIfInBounds a.number d.signs, lastWord := d.signs }

/-- Read the documents that were announced. -/
def readDocuments (commands : CommandReader) (fuel : Nat) : Parser Unit := do
  let announced := (← get).announced
  modify fun r => { r with announced := [] }
  announced.forM (readDocument commands fuel)

end AmountWalk.Shell
