import AmountWalk.Shell.Word

/-!
# Grammar of shell scripts

Commands are read by recursive descent, one line of a script at a time, because a shell runs a line
before it reads the next one. A token that does not belong to a command is put back. Every call has one
unit of fuel less than its caller; `readLine` gives more than any script of that length can use.

Whoever reads a token says what may stand there: line ends that mean nothing, words with a meaning of
their own, names for which another text stands.
-/

namespace AmountWalk.Shell

/-- What may stand at the place of a token. -/
structure Checks where
  /-- Line ends that mean nothing. -/
  lineEnds : Bool
  /-- Words that mean something to the grammar. -/
  keywords : Bool
  /-- Names for which another text stands. -/
  aliases : Bool

namespace Checks

/-- Nothing but the token itself. -/
def none : Checks := ⟨false, false, false⟩

/-- Everything that may stand in front of a command. -/
def all : Checks := ⟨true, true, true⟩

end Checks

/-! ## Tokens -/

/-- Give up because fuel has run out. -/
def tooLong {α : Type} : Parser α := Parser.fail "Script too long"

def putBack (token : Token) : Parser Unit := modify fun r => { r with again := some token }

/-- Read the operator of a redirection. -/
def readLeading (channel? : Option Nat) : Parser Token := do
  let redirect (default : Nat) (leading : Leading) : Token :=
    .redirect (channel?.getD default) leading
  if (← Parser.skip? '>') then
    if (← Parser.skip? '>') then return redirect 1 (.file .append)
    else if (← Parser.skip? '|') then return redirect 1 (.file .overwrite)
    else if (← Parser.skip? '&') then return redirect 1 .copy
    else return redirect 1 (.file .write)
  else
    Parser.skip
    if (← Parser.skip? '<') then return redirect 0 (.document (← Parser.skip? '-'))
    else if (← Parser.skip? '&') then return redirect 0 .copy
    else if (← Parser.skip? '>') then return redirect 0 (.file .both)
    else return redirect 0 (.file .read)

/-- Read a word, or the beginning of a redirection behind at most one digit. -/
def readWord (commands : CommandReader) (fuel : Nat) (purpose : Purpose) : Parser Token := do
  let d ← readComplete commands fuel purpose .none
  let redirects : Bool := (← get).rest.head?.any fun ch => ch == '<' || ch == '>'
  let word : Parser Token := do
    modify fun r => { r with lastWord := d.signs }
    return .word d.signs d.isQuoted
  if d.isQuoted || !redirects then word
  else
    match d.signs with
    | [] => readLeading none
    | [.char ch] => if isDigit ch then readLeading (some (digitValue ch)) else word
    | _ => word

/-- Read the next token as it is. -/
def readRaw (commands : CommandReader) (purpose : Purpose) : Nat → Parser Token
  | 0 => tooLong
  | fuel + 1 => do
    let r ← get
    match r.again with
    | some token =>
      set { r with again := none }
      return token
    | none =>
      let operator (text : String) : Parser Token := return .operator text.toList
      match ← Parser.peek with
      | none => return .scriptEnd
      | some ch =>
        match ch with
        | ' ' | '\t' =>
          Parser.skip
          readRaw commands purpose fuel
        | '#' =>
          Parser.need (·.contains '\n')
          let r ← get
          set (r.behind (r.rest.takeWhile (· ≠ '\n')).length)
          readRaw commands purpose fuel
        | '\n' =>
          Parser.skip
          return .lineEnd
        | '&' =>
          Parser.skip
          if (← Parser.skip? '&') then operator "&&" else operator "&"
        | '|' =>
          Parser.skip
          if (← Parser.skip? '|') then operator "||" else operator "|"
        | ';' =>
          Parser.skip
          if (← Parser.skip? ';') then operator ";;" else operator ";"
        | '(' | ')' =>
          Parser.skip
          return .operator [ch]
        | _ => readWord commands fuel purpose

/-- Skip line ends, which come before documents, from a token on. -/
def skipLineEnds (commands : CommandReader) : Nat → Token → Parser Token
  | 0, _ => tooLong
  | fuel + 1, token => do
    match token with
    | .lineEnd =>
      readDocuments commands fuel
      modify fun r => { r with mayReplace := false }
      skipLineEnds commands fuel (← readRaw commands .word fuel)
    | _ => return token

/-- The text that stands for a name, unless the name is a part of that text. -/
def replacement? (name : Text) (r : Reader) : Option Text :=
  if r.replaced.any fun text => text.name == name && text.left ≤ r.left then none
  else r.aliases.lookup name

/-- The reader with a text put in place of a name that was read. -/
def Reader.replace (r : Reader) (name text : Text) : Reader :=
  if text = [] then r
  else
    { r with
      rest := text ++ r.rest, left := r.left + text.length
      replaced := ⟨name, r.left, text.getLast?.any isBlank, false⟩ :: r.replaced }

/-- Read the next token. -/
def readToken (commands : CommandReader) : Nat → Checks → Parser Token
  | 0, _ => tooLong
  | fuel + 1, checks => do
    let token ← readRaw commands .word fuel
    let token ← if checks.lineEnds then skipLineEnds commands fuel token else pure token
    let r ← get
    let aliases := checks.aliases || r.mayReplace
    set { r with mayReplace := false }
    match token with
    | .word word false =>
      match word.bare? with
      | none => return token
      | some text =>
        if checks.keywords && reservedWords.contains text then return .keyword text
        else
          match (if aliases then replacement? text r else none) with
          | none => return token
          | some other =>
            modify (·.replace text other)
            readToken commands fuel { checks with aliases }
    | _ => return token

/-- Skip an operator that must come next. -/
def expectOperator (commands : CommandReader) (fuel : Nat) (text : String) : Parser Unit := do
  let token ← readToken commands fuel .none
  if !token.isOperator text then unexpected token (Token.inQuotes text.toList)

/-- Skip a word with a meaning that must come next. -/
def expectKeyword (commands : CommandReader) (fuel : Nat) (checks : Checks) (text : String) :
    Parser Unit := do
  let token ← readToken commands fuel checks
  if !token.isKeyword text then unexpected token (Token.inQuotes text.toList)

/-! ## Redirections -/

/-- Announce a document; its number. -/
def announce (delimiter : Word) (isLiteral dropTabs : Bool) : Parser Nat := do
  let r ← get
  let number := r.documents.size
  let announced := r.announced ++ [⟨number, delimiter.literal, dropTabs, isLiteral⟩]
  set { r with announced, documents := r.documents.push [] }
  return number

/-- Read the word of a redirection. -/
def readRedirect (commands : CommandReader) (fuel channel : Nat) (leading : Leading) :
    Parser Redirect := do
  let token ←
    match leading with
    | .document _ => readRaw commands .delimiter fuel
    | _ => readToken commands fuel .none
  modify fun r => { r with mayReplace := false }
  match token with
  | .word word isQuoted =>
    match leading with
    | .file mode => return .file channel mode word
    | .copy => return .copy channel word
    | .document dropTabs => return .document channel (← announce word isQuoted dropTabs)
  | _ => unexpected token []

/-- Read the redirections that come next. -/
def readRedirects (commands : CommandReader) : Nat → Checks → Parser (List Redirect)
  | 0, _ => tooLong
  | fuel + 1, checks => do
    match ← readToken commands fuel checks with
    | .redirect channel leading =>
      let redirect ← readRedirect commands fuel channel leading
      return redirect :: (← readRedirects commands fuel .none)
    | token =>
      putBack token
      return []

/-! ## Commands -/

/-- A command that is not waited for. -/
def Command.inBackground (line : Nat) : Command → Command
  | .pipeline commands _ => .pipeline commands true
  | .redirected line command redirects => .background line command redirects
  | command => .background line command []

/-- A command behind others, if there are any. -/
def Command.behind (before? : Option Command) (command : Command) : Command :=
  match before? with
  | none => command
  | some before => .sequence before command

/-- The parts of a simple command. -/
structure SimpleParts where
  /-- The variables to set, last first. -/
  settings : List (Text × Word)
  /-- The words, last first. -/
  words : List Word
  /-- The redirections, last first. -/
  redirects : List Redirect

/-- Read the words up to another token. -/
def readWords (commands : CommandReader) : Nat → Parser (List Word)
  | 0 => tooLong
  | fuel + 1 => do
    match ← readToken commands fuel .none with
    | .word word _ => return word :: (← readWords commands fuel)
    | token =>
      putBack token
      return []

mutual

/-- Read commands inside of brackets, up to the one that closes them, or as far as they go. -/
def readInside : Nat → CommandReader
  | 0, _ => tooLong
  | fuel + 1, isClosed => do
    let command? ← readList fuel true none
    if isClosed then expectOperator (readInside fuel) fuel ")"
    return command?.getD .nothing

/-- Read commands up to what ends a list, behind some that were read. The list may end if there is one,
or if it may be empty. -/
def readList : Nat → Bool → Option Command → Parser (Option Command)
  | 0, _, _ => tooLong
  | fuel + 1, mayEnd, before? => do
    let token ← readToken (readInside fuel) fuel .all
    match token with
    | .scriptEnd =>
      readDocuments (readInside fuel) fuel
      putBack token
      return before?
    | _ =>
      putBack token
      if mayEnd && token.endsList then return before?
      let command ← readChain fuel
      let token ← readToken (readInside fuel) fuel .none
      let line := (← get).line
      let command := if token.isOperator "&" then command.inBackground line else command
      let all := some (Command.behind before? command)
      match token with
      | .lineEnd | .scriptEnd =>
        putBack token
        readList fuel true all
      | _ =>
        if token.isOperator "&" || token.isOperator ";" then readList fuel true all
        else
          putBack token
          return all

/-- Read commands up to what ends a list, at least one unless the script ends. -/
def readBody : Nat → Parser Command
  | 0 => tooLong
  | fuel + 1 => return (← readList fuel false none).getD .nothing

/-- Read commands between `&&` and `||`. -/
def readChain : Nat → Parser Command
  | 0 => tooLong
  | fuel + 1 => do
    let first ← readPipeline fuel .none
    readLinks fuel first

/-- Read the rest of such commands. -/
def readLinks : Nat → Command → Parser Command
  | 0, _ => tooLong
  | fuel + 1, first => do
    let token ← readToken (readInside fuel) fuel .none
    if token.isOperator "&&" then
      readLinks fuel (.ifSucceeds first (← readPipeline fuel .all))
    else if token.isOperator "||" then
      readLinks fuel (.ifFails first (← readPipeline fuel .all))
    else
      putBack token
      return first

/-- Read commands between `|`. -/
def readPipeline : Nat → Checks → Parser Command
  | 0, _ => tooLong
  | fuel + 1, checks => do
    let token ← readToken (readInside fuel) fuel checks
    if token.isKeyword "!" then return .invert (← readStages fuel ⟨false, true, true⟩)
    else
      putBack token
      readStages fuel .none

/-- Read commands between `|`, none of them inverted. -/
def readStages : Nat → Checks → Parser Command
  | 0, _ => tooLong
  | fuel + 1, checks => do
    let first ← readCommand fuel checks
    match ← readMoreStages fuel with
    | [] => return first
    | others => return .pipeline (first :: others) false

/-- Read the commands after each `|`. -/
def readMoreStages : Nat → Parser (List Command)
  | 0 => tooLong
  | fuel + 1 => do
    let token ← readToken (readInside fuel) fuel .none
    if token.isOperator "|" then
      let next ← readCommand fuel .all
      return next :: (← readMoreStages fuel)
    else
      putBack token
      return []

def readCommand : Nat → Checks → Parser Command
  | 0, _ => tooLong
  | fuel + 1, checks => do
    let line := (← get).line
    let closed (command : Command) (keyword : String) : Parser Command := do
      if keyword ≠ "" then expectKeyword (readInside fuel) fuel .none keyword
      match ← readRedirects (readInside fuel) fuel ⟨false, true, true⟩ with
      | [] => return command
      | redirects => return .redirected line command redirects
    let token ← readToken (readInside fuel) fuel checks
    match token with
    | .word _ _ | .redirect _ _ =>
      putBack token
      readSimple fuel (← get).line ⟨[], [], []⟩ ⟨false, false, true⟩
    | .operator ['('] =>
      let command ← readBody fuel
      expectOperator (readInside fuel) fuel ")"
      return .subshell line command (← readRedirects (readInside fuel) fuel ⟨false, true, true⟩)
    | .keyword text =>
      match String.ofList text with
      | "\x7b" => closed (← readBody fuel) "\x7d"
      | "if" => closed (← readBranches fuel) "fi"
      | "while" => closed (← readLoop fuel true) "done"
      | "until" => closed (← readLoop fuel false) "done"
      | "for" => closed (← readEach fuel line) "done"
      | "case" => closed (← readChoice fuel line) ""
      | _ => unexpected token []
    | _ => unexpected token []

/-- Read the rest of a simple command, or the definition of a function. -/
def readSimple : Nat → Nat → SimpleParts → Checks → Parser Command
  | 0, _, _, _ => tooLong
  | fuel + 1, line, parts, checks => do
    let token ← readToken (readInside fuel) fuel checks
    match token with
    | .word word _ =>
      match (if checks.aliases then word.setting? else none) with
      | some setting =>
        readSimple fuel line { parts with settings := setting :: parts.settings } checks
      | none => readSimple fuel line { parts with words := word :: parts.words } .none
    | .redirect channel leading =>
      let redirect ← readRedirect (readInside fuel) fuel channel leading
      readSimple fuel line { parts with redirects := redirect :: parts.redirects } checks
    | _ =>
      match token.isOperator "(", parts with
      | true, ⟨[], [name], []⟩ =>
        expectOperator (readInside fuel) fuel ")"
        let text := name.bare?.getD []
        if !isName text || specialBuiltins.contains text then Parser.fail "Bad function name"
        return .define text (← readCommand fuel .all)
      | _, ⟨settings, words, redirects⟩ =>
        putBack token
        return .simple line settings.reverse words.reverse redirects.reverse

/-- Read a test, its commands and the other branches. -/
def readBranches : Nat → Parser Command
  | 0 => tooLong
  | fuel + 1 => do
    let test ← readBody fuel
    expectKeyword (readInside fuel) fuel .none "then"
    let yes ← readBody fuel
    let token ← readToken (readInside fuel) fuel .none
    if token.isKeyword "elif" then return .branch test yes (← readBranches fuel)
    else if token.isKeyword "else" then return .branch test yes (← readBody fuel)
    else
      putBack token
      return .branch test yes .nothing

/-- Read the test and the body of a loop. -/
def readLoop : Nat → Bool → Parser Command
  | 0, _ => tooLong
  | fuel + 1, wanted => do
    let test ← readBody fuel
    expectKeyword (readInside fuel) fuel .none "do"
    return .loop wanted test (← readBody fuel)

/-- Read the variable, the words and the body of a loop over fields. -/
def readEach : Nat → Nat → Parser Command
  | 0, _ => tooLong
  | fuel + 1, line => do
    let name ←
      match ← readToken (readInside fuel) fuel .none with
      | .word word false => pure (word.bare?.getD [])
      | _ => pure []
    if !isName name then Parser.fail "Bad for loop variable"
    let token ← readToken (readInside fuel) fuel .all
    let items ←
      if token.isKeyword "in" then
        let items ← readWords (readInside fuel) fuel
        match ← readToken (readInside fuel) fuel .none with
        | .lineEnd => pure ()
        | token => if !token.isOperator ";" then unexpected token []
        pure items
      else
        if !token.isOperator ";" then putBack token
        pure [Word.allArguments]
    expectKeyword (readInside fuel) fuel .all "do"
    return .each line name items (← readBody fuel)

/-- Read the subject and the arms of a choice. -/
def readChoice : Nat → Nat → Parser Command
  | 0, _ => tooLong
  | fuel + 1, line => do
    match ← readToken (readInside fuel) fuel .none with
    | .word subject _ =>
      expectKeyword (readInside fuel) fuel .all "in"
      return .choose line subject (← readArms fuel)
    | token => unexpected token "word".toList

/-- Read the arms of a choice. -/
def readArms : Nat → Parser (List (List Word × Command))
  | 0 => tooLong
  | fuel + 1 => do
    let token ← readToken (readInside fuel) fuel ⟨true, true, false⟩
    if token.isKeyword "esac" then return []
    if token.isOperator "(" then
      let _ ← readToken (readInside fuel) fuel .none
    let patterns ← readPatterns fuel
    let body := (← readList fuel true none).getD .nothing
    let token ← readToken (readInside fuel) fuel ⟨true, true, false⟩
    if token.isKeyword "esac" then return [(patterns, body)]
    else if token.isOperator ";;" then return (patterns, body) :: (← readArms fuel)
    else unexpected token (Token.inQuotes ";;".toList)

/-- Read the patterns of an arm, of which the first was read, and the bracket behind them. Whatever
token stands for a pattern, the pattern is the word that was read last. -/
def readPatterns : Nat → Parser (List Word)
  | 0 => tooLong
  | fuel + 1 => do
    let word := (← get).lastWord
    let token ← readToken (readInside fuel) fuel .none
    if token.isOperator "|" then
      let _ ← readToken (readInside fuel) fuel .none
      return word :: (← readPatterns fuel)
    else if token.isOperator ")" then return [word]
    else unexpected token (Token.inQuotes [')'])

end

def readLineFrom : Nat → Option Command → Parser (Option Command)
  | 0, _ => tooLong
  | fuel + 1, before? => do
    let token ← readToken (readInside fuel) fuel ⟨false, true, true⟩
    match token with
    | .lineEnd =>
      readDocuments (readInside fuel) fuel
      return before?
    | .scriptEnd =>
      readDocuments (readInside fuel) fuel
      putBack token
      return before?
    | _ =>
      putBack token
      let command ← readChain fuel
      let token ← readToken (readInside fuel) fuel .none
      let line := (← get).line
      let command := if token.isOperator "&" then command.inBackground line else command
      let all := some (Command.behind before? command)
      match token with
      | .lineEnd | .scriptEnd =>
        putBack token
        readLineFrom fuel all
      | _ =>
        if token.isOperator "&" || token.isOperator ";" then readLineFrom fuel all
        else unexpected token []

/-- The fuel for a script of a reader, in which every character may be a name for which a text stands. -/
def Reader.fuel (r : Reader) : Nat :=
  16 * (r.left + 4) * r.aliases.foldl (fun sum (_, text) => sum + text.length) 1

/-- Read the commands of the next line, which may be empty, unless the script has ended; also tell whether
the script ends with this line. -/
def readLine : Parser (Option Command × Bool) := do
  modify fun r => { r with announced := [], again := none, mayReplace := false }
  let r ← get
  let command? ← readLineFrom r.fuel none
  let hasEnded := (← get).isAhead
  if command?.isNone && hasEnded then return (none, true)
  else return (some (command?.getD .nothing), hasEnded)

/-- The word of a text without an end of its own, which is read like a document. -/
def readTemplate : Parser Word := do
  let fuel := (← get).fuel
  return (← readComplete (readInside fuel) fuel .template .double).signs

end AmountWalk.Shell
