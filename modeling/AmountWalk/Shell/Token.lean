import AmountWalk.Shell.Command

/-!
# Tokens

What a script consists of for its grammar: words, words that mean something to the grammar, operators,
the beginnings of redirections, and the ends of lines.
-/

namespace AmountWalk.Shell

/-- Where the channel of a redirection leads, before its word is read. -/
inductive Leading where
  | file (mode : OpenMode)
  /-- To where another channel leads. -/
  | copy
  /-- From a document, whose lines may lose their tabs. -/
  | document (dropTabs : Bool)
  deriving DecidableEq

/-- A part of a script. -/
inductive Token where
  | scriptEnd
  | lineEnd
  | word (word : Word) (isQuoted : Bool)
  /-- A word that means something to the grammar. -/
  | keyword (text : Text)
  | operator (text : Text)
  /-- The beginning of a redirection. -/
  | redirect (channel : Nat) (leading : Leading)

/-- The words that mean something to the grammar. -/
def reservedWords : List Text :=
  ["!", "case", "do", "done", "elif", "else", "esac", "fi", "for", "if", "in", "then", "until",
    "while", "\x7b", "\x7d"].map String.toList

/-- The builtins that no function may have the name of, and whose errors end a shell. -/
def specialBuiltins : List Text :=
  [".", ":", "break", "continue", "eval", "exec", "exit", "export", "local", "readonly",
    "return", "set", "shift", "times", "trap", "unset"].map String.toList

namespace Token

def isOperator (token : Token) (text : String) : Bool :=
  match token with
  | .operator known => known == text.toList
  | _ => false

/-- Whether a token is a word that means something to the grammar. -/
def isKeyword (token : Token) (text : String) : Bool :=
  match token with
  | .keyword known => known == text.toList
  | _ => false

/-- A text between double quotes. -/
def inQuotes (text : Text) : Text := '"' :: text ++ ['"']

/-- How a token is called in a message. -/
def name : Token → Text
  | scriptEnd => "end of file".toList
  | lineEnd => "newline".toList
  | word _ _ => "word".toList
  | keyword text | operator text => inQuotes text
  | redirect _ _ => "redirection".toList

/-- Whether a list of commands ends in front of a token. -/
def endsList : Token → Bool
  | scriptEnd => true
  | operator text => [[')'], [';', ';']].contains text
  | keyword text =>
    (["do", "done", "elif", "else", "esac", "fi", "then", "\x7d"].map String.toList).contains text
  | _ => false

end Token

end AmountWalk.Shell
