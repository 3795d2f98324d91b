import AmountWalk.Shell.Text

/-!
# Escapes and quotes

The backslash escapes that `echo` and `printf` resolve, and the quoted form in which a shell lists the
values of variables.
-/

namespace AmountWalk.Shell

/-- The character that a one-letter escape stands for. -/
def letterEscape? (letter : Char) : Option Char :=
  match letter with
  | 'a' => some '\x07'
  | 'b' => some '\x08'
  | 'e' => some '\x1b'
  | 'f' => some '\x0c'
  | 'n' => some '\n'
  | 'r' => some '\r'
  | 't' => some '\t'
  | 'v' => some '\x0b'
  | '\\' => some '\\'
  | _ => none

/-- The character that up to three octal digits at the beginning of a text stand for, and the rest. -/
def octalEscape (text : Text) : Char × Text :=
  let digits := (text.take 3).takeWhile (digitValue · < 8)
  (Char.ofNat (numberOf 8 digits % 256), text.drop digits.length)

/-- The character that the text behind a backslash stands for, and the rest. An unknown escape is the
backslash itself. -/
def resolveEscape (text : Text) : Char × Text :=
  match text with
  | [] => ('\\', [])
  | ch :: rest =>
    if digitValue ch < 8 then octalEscape text
    else
      match letterEscape? ch with
      | some letter => (letter, rest)
      | none => ('\\', text)

/-- The text of arguments, and whether `\c` ends all output. -/
structure Unescaped where
  text : Text
  /-- Whether the output ends with it. -/
  ended : Bool

/-- Resolve the escapes of an argument, behind a text that is there already, last character first. A
zero may stand before three octal digits. -/
def unescapeAfter : Nat → Text → Text → Unescaped
  | 0, before, _ => ⟨before.reverse, false⟩
  | _ + 1, before, [] => ⟨before.reverse, false⟩
  | _ + 1, before, '\\' :: 'c' :: _ => ⟨before.reverse, true⟩
  | fuel + 1, before, '\\' :: rest =>
    let digits :=
      match rest with
      | '0' :: next :: more => if digitValue next < 8 then next :: more else rest
      | _ => rest
    let (ch, rest) := resolveEscape digits
    unescapeAfter fuel (ch :: before) rest
  | fuel + 1, before, ch :: rest => unescapeAfter fuel (ch :: before) rest

/-- Resolve the escapes of an argument. -/
def unescape (text : Text) : Unescaped := unescapeAfter (text.length + 1) [] text

/-! ## Quotes -/

/-- A text in quotes, from which a shell reads it back. Single quotes stand in double quotes. -/
def quotedFrom : Nat → Text → Text
  | 0, _ => []
  | fuel + 1, text =>
    let plain := text.takeWhile (· ≠ '\'')
    let rest := text.dropWhile (· ≠ '\'')
    let quotes := rest.takeWhile (· = '\'')
    let first := '\'' :: plain ++ ['\'']
    if quotes = [] then first
    else
      let second := '"' :: quotes ++ ['"']
      match rest.drop quotes.length with
      | [] => first ++ second
      | more => first ++ second ++ quotedFrom fuel more

def quotedText (text : Text) : Text := quotedFrom (text.length + 1) text

end AmountWalk.Shell
