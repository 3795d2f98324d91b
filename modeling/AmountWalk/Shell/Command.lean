import AmountWalk.Shell.Text

/-!
# Shell commands

The commands of a POSIX shell, in which stand-ins for drawing programs are written.

A word is a flat list of signs. It keeps the marks at which quotes begin and end, because only what
stands outside of quotes is split into fields, and remembers which characters lose their meaning in a
pattern. What a parameter or an expression has in its brackets follows its sign, up to the sign that
closes it.
-/

namespace AmountWalk.Shell

/-- What a parameter stands for. -/
inductive Param where
  /-- A variable. -/
  | named (name : Text)
  /-- The argument with the number that these digits write; zero is the name of the script. -/
  | position (digits : Text)
  /-- All arguments, a field each when quoted. -/
  | all
  /-- All arguments, joined when quoted. -/
  | joined
  /-- The number of arguments. -/
  | count
  /-- The status of the last command. -/
  | status
  /-- The number of the shell's process. -/
  | process
  /-- The number of the last process in the background. -/
  | background
  | options
  deriving DecidableEq

/-- What is made of a parameter's value. -/
inductive Form where
  /-- The value itself. -/
  | value
  /-- The length of the value. -/
  | length
  /-- A word in place of a missing value. -/
  | default
  /-- A word in place of a missing value, to which the variable is set. -/
  | assign
  /-- An error when the value is missing. -/
  | error
  /-- A word in place of a value that is there. -/
  | alternative
  /-- The value without the shortest or longest text at its beginning or end that matches. -/
  | trim (atEnd longest : Bool)
  /-- A form that there is not. -/
  | malformed
  deriving DecidableEq

/-- How a file is opened. -/
inductive OpenMode where
  | read
  /-- To be written from its beginning, emptied. -/
  | write
  /-- To be written from its beginning, emptied even if that is forbidden. -/
  | overwrite
  /-- To be written at its end. -/
  | append
  /-- To be read and written. -/
  | both
  deriving DecidableEq

mutual

/-- A part of a word. -/
inductive Sign where
  | char (ch : Char)
  /-- A character without any other meaning. -/
  | escaped (ch : Char)
  /-- The beginning or the end of a quoted text. -/
  | quote
  /-- A parameter, for which an empty value may count as missing. -/
  | param (param : Param) (form : Form) (emptyToo : Bool)
  /-- The end of what belongs to a parameter. -/
  | paramEnd
  | output (command : Command)
  /-- The beginning of an arithmetic expression. -/
  | sum
  /-- The end of an arithmetic expression. -/
  | sumEnd

/-- Where a channel of a command leads. -/
inductive Redirect where
  | file (channel : Nat) (mode : OpenMode) (path : List Sign)
  /-- To where another channel leads, or nowhere. -/
  | copy (channel : Nat) (other : List Sign)
  /-- From a text that stands in the script: the document with this number. -/
  | document (channel : Nat) (number : Nat)

inductive Command where
  /-- Nothing. -/
  | nothing
  /-- Set variables and run what the first word names. -/
  | simple (line : Nat) (settings : List (Text × List Sign)) (words : List (List Sign))
      (redirects : List Redirect)
  | sequence (first second : Command)
  | ifSucceeds (first second : Command)
  | ifFails (first second : Command)
  /-- Succeed if the command fails. -/
  | invert (command : Command)
  /-- Commands of which each reads what the one before it writes. They may not be waited for. -/
  | pipeline (commands : List Command) (isBackground : Bool)
  /-- A command in another process that is not waited for. -/
  | background (line : Nat) (command : Command) (redirects : List Redirect)
  /-- A command in another process. -/
  | subshell (line : Nat) (command : Command) (redirects : List Redirect)
  /-- Repeat the body while the test has the wanted outcome. -/
  | loop (wanted : Bool) (test body : Command)
  /-- One of two commands, by the outcome of a test. -/
  | branch (test yes no : Command)
  /-- Repeat the body for every field of the words. -/
  | each (line : Nat) (name : Text) (items : List (List Sign)) (body : Command)
  /-- The command behind the first pattern that matches a word. -/
  | choose (line : Nat) (subject : List Sign) (arms : List (List (List Sign) × Command))
  /-- Define a function. -/
  | define (name : Text) (body : Command)
  /-- A command with its channels redirected. -/
  | redirected (line : Nat) (command : Command) (redirects : List Redirect)

end

abbrev Word := List Sign

namespace Word

/-- The quoted arguments, a field each. -/
def allArguments : Word := [.quote, .param .all .value false, .quote]

/-- The text of a word that is nothing but characters. -/
def bare? : Word → Option Text
  | [] => some []
  | .char ch :: rest => (bare? rest).map (ch :: ·)
  | _ :: _ => none

/-- The text of a word without its marks, parameters and commands left out. -/
def literal (word : Word) : Text :=
  word.filterMap fun
    | .char ch | .escaped ch => some ch
    | _ => none

/-- The name and the value of a word that sets a variable. -/
def setting? (word : Word) : Option (Text × Word) :=
  go [] word
where
  /-- Go on behind the beginning of a name, last character first. -/
  go (name : Text) : Word → Option (Text × Word)
    | .char ch :: rest =>
      if ch = '=' ∧ name ≠ [] then some (name.reverse, rest)
      else if (if name = [] then startsName ch else continuesName ch) then go (ch :: name) rest
      else none
    | _ => none

end Word

end AmountWalk.Shell
