import AmountWalk.Shell.Escape
import AmountWalk.Shell.Floating

/-!
# Formats

The `printf` of a shell. Escapes and directives of a format are gone through from left to right, each
directive takes its arguments, and the format is used again while there are arguments left.
-/

namespace AmountWalk.Shell

/-- The flags, the width and the precision of a directive. -/
structure Directive where
  /-- The characters between the percent sign and the width. -/
  flags : Text
  /-- The least number of characters. -/
  width : Nat
  /-- The number of digits or the greatest number of characters. -/
  precision : Option Nat

namespace Directive

/-- Whether the width or the precision is greater than any text may be long. -/
def isTooLong (d : Directive) : Bool := maxCount < d.width || d.precision.any (maxCount < ·)

def has (d : Directive) (flag : Char) : Bool := d.flags.contains flag

/-- A text of the width of a directive. -/
def pad (d : Directive) (text : Text) : Text :=
  let blanks := List.replicate (d.width - text.length) ' '
  if d.has '-' then text ++ blanks else blanks ++ text

/-- A sign or mark and digits of the width of a directive. -/
def padNumber (d : Directive) (zeros : Bool) (sign digits : Text) : Text :=
  if zeros ∧ d.has '0' ∧ !d.has '-' then
    sign ++ List.replicate (d.width - sign.length - digits.length) '0' ++ digits
  else d.pad (sign ++ digits)

/-- The sign of a number. -/
def sign (d : Directive) (negative : Bool) : Text :=
  if negative then ['-'] else if d.has '+' then ['+'] else if d.has ' ' then [' '] else []

/-- Digits with zeros in front of them, as many as the precision asks for. -/
def digits (d : Directive) (base : Nat) (n : Nat) : Text :=
  let text := Nat.toDigits base n
  match d.precision with
  | none => text
  | some least =>
    if n = 0 ∧ least = 0 then []
    else List.replicate (least - text.length) '0' ++ text

/-- A text cut to the precision. -/
def text (d : Directive) (text : Text) : Text :=
  d.pad (match d.precision with
    | none => text
    | some most => text.take most)

/-- A signed number. -/
def signed (d : Directive) (n : Int) : Text :=
  d.padNumber d.precision.isNone (d.sign (n < 0)) (d.digits 10 n.natAbs)

/-- A number without a sign, by the letter of its base. -/
def unsigned (d : Directive) (letter : Char) (n : Nat) : Text :=
  let plain := d.padNumber d.precision.isNone
  match letter with
  | 'o' =>
    let digits := d.digits 8 n
    plain [] (if d.has '#' ∧ digits.head? ≠ some '0' then '0' :: digits else digits)
  | 'x' => plain (if d.has '#' ∧ n ≠ 0 then ['0', 'x'] else []) (d.digits 16 n)
  | 'X' =>
    plain (if d.has '#' ∧ n ≠ 0 then ['0', 'X'] else []) ((d.digits 16 n).map Char.toUpper)
  | _ => plain [] (d.digits 10 n)

/-- A floating number, by the letter of its form. -/
def floating (d : Directive) (letter : Char) (negative : Bool) (amount : Amount) : Text :=
  let sign := d.sign negative
  let word (text : String) : Text :=
    d.pad (sign ++ text.toList.map fun ch => if letter.isUpper then ch.toUpper else ch)
  match amount.toBinary with
  | .infinite => word "inf"
  | .undefined => word "nan"
  | .finite f =>
    let places := d.precision.getD 6
    let digits :=
      match letter with
      | 'e' | 'E' => f.scientific letter places (d.has '#')
      | 'g' => f.general 'e' places (d.has '#')
      | 'G' => f.general 'E' places (d.has '#')
      | 'a' => f.hexadecimal d.precision (d.has '#')
      | 'A' => (f.hexadecimal d.precision (d.has '#')).map Char.toUpper
      | _ => f.fixed places (d.has '#')
    let mark := if letter = 'a' then ['0', 'x'] else if letter = 'A' then ['0', 'X'] else []
    d.padNumber true (sign ++ mark) digits

end Directive

/-- What `printf` has done so far. -/
structure Printing where
  /-- The arguments that are left. -/
  arguments : List Text
  /-- The output, last character first. -/
  output : Text
  /-- What was wrong with arguments, last first. -/
  complaints : List Text
  /-- Whether the output is complete. -/
  ended : Bool
  /-- What is wrong with the format, if something is. -/
  flaw : Option Text

namespace Printing

/-- Go no further because of a flaw. -/
def stop (p : Printing) (flaw : Text) : Printing := { p with flaw := some flaw }

/-- The next argument, empty if there is none. -/
def argument (p : Printing) : Text × Printing :=
  (p.arguments.headD [], { p with arguments := p.arguments.tail })

/-- Go on behind more output. -/
def put (p : Printing) (text : Text) : Printing := { p with output := text.reverse ++ p.output }

/-- Go on behind the text of a directive, unless nothing of its size can be written. -/
def putBy (p : Printing) (d : Directive) (text : Unit → Text) : Printing :=
  if d.isTooLong then p.stop "xvsnprintf failed".toList else p.put (text ())

/-- Go on behind a complaint. -/
def complain (p : Printing) (argument : Text) (what : String) : Printing :=
  { p with complaints := (argument ++ ": ".toList ++ what.toList) :: p.complaints }

/-- Complain about an argument that is no number, or not only one. -/
def check (p : Printing) (argument : Text) (rest : Option Text) (inRange : Bool) : Printing :=
  match rest with
  | none =>
    if argument = [] then p else p.complain argument "expected numeric value"
  | some rest =>
    if rest ≠ [] then p.complain argument "not completely converted"
    else if inRange then p
    else p.complain argument "Numerical result out of range"

/-- The number behind a sign that a text may have, and the rest. -/
def signedNat? (text : Text) : Option (Bool × Nat × Text) :=
  let read (negative : Bool) (text : Text) : Option (Bool × Nat × Text) :=
    (leadingNat? text).map fun (n, rest) => (negative, n, rest)
  match text.dropWhile isNumberBlank with
  | '-' :: rest => read true rest
  | '+' :: rest => read false rest
  | rest => read false rest

/-- The code of the character behind a quote. -/
def quotedCode? (text : Text) : Option Nat :=
  match text with
  | quote :: rest =>
    if quote = '\'' ∨ quote = '"' then some ((rest.head?.map Char.toNat).getD 0) else none
  | [] => none

/-- The next argument as a signed number. -/
def int (p : Printing) : Int × Printing :=
  let (argument, p) := p.argument
  match quotedCode? argument with
  | some code => (code, p)
  | none =>
    match signedNat? argument with
    | none => (0, p.check argument none true)
    | some (negative, n, rest) =>
      let value : Int := if negative then -n else n
      (clampInt value, p.check argument (some rest) (clampInt value = value))

/-- The next argument as a number without a sign. -/
def nat (p : Printing) : Nat × Printing :=
  let (argument, p) := p.argument
  match quotedCode? argument with
  | some code => (code, p)
  | none =>
    match signedNat? argument with
    | none => (0, p.check argument none true)
    | some (negative, n, rest) =>
      let inRange : Bool := n < Nat.pow 2 64
      let n := min n (Nat.pow 2 64 - 1)
      let value := if negative ∧ inRange then (Nat.pow 2 64 - n) % Nat.pow 2 64 else n
      (value, p.check argument (some rest) inRange)

/-- The next argument as a floating number: its sign and its amount. -/
def float (p : Printing) : Bool × Amount × Printing :=
  let (argument, p) := p.argument
  match quotedCode? argument with
  | some code => (false, .finite ⟨code, 1⟩, p)
  | none =>
    let (negative, digits) :=
      match argument.dropWhile isNumberBlank with
      | '-' :: rest => (true, rest)
      | '+' :: rest => (false, rest)
      | rest => (false, rest)
    match Amount.leading? digits with
    | none => (false, .finite ⟨0, 1⟩, p.check argument none true)
    | some (amount, rest) => (negative, amount, p.check argument (some rest) amount.isInRange)

/-- A width or precision at the beginning of a format, and the rest. A star takes an argument. -/
def size (p : Printing) (format : Text) : Option Int × Text × Printing :=
  match format with
  | '*' :: rest =>
    let (n, p) := p.int
    (some (n.bmod (Nat.pow 2 32)), rest, p)
  | _ =>
    match spanDigits 10 format with
    | ([], _) => (none, format, p)
    | (digits, rest) => (some (numberOf 10 digits), rest, p)

/-- Go on behind a directive, of which the text behind the percent sign is given; also the format
behind it. -/
def directive (p : Printing) (format : Text) : Printing × Text :=
  let isFlag (ch : Char) : Bool := "#-+ 0".toList.contains ch
  let flags := format.takeWhile isFlag
  let (width, rest, p) := p.size (format.dropWhile isFlag)
  let (precision, rest, p) : Option Int × Text × Printing :=
    match rest with
    | '.' :: rest =>
      let (n, rest, p) := p.size rest
      (some (n.getD 0), rest, p)
    | _ => (none, rest, p)
  let width := width.getD 0
  let d : Directive :=
    ⟨if width < 0 then '-' :: flags else flags, width.natAbs,
      precision.bind fun n => if n < 0 then none else some n.toNat⟩
  match rest with
  | [] => (p.stop "missing format character".toList, [])
  | letter :: rest' =>
    match letter with
    | 's' =>
      let (text, p) := p.argument
      (p.putBy d fun _ => d.text text, rest')
    | 'c' =>
      let (text, p) := p.argument
      (p.putBy d fun _ => d.pad [text.headD '\x00'], rest')
    | 'b' =>
      let (text, p) := p.argument
      let resolved := unescape text
      ({ p.putBy d fun _ => d.text resolved.text with ended := resolved.ended }, rest')
    | 'd' | 'i' =>
      let (n, p) := p.int
      (p.putBy d fun _ => d.signed n, rest')
    | 'o' | 'u' | 'x' | 'X' =>
      let (n, p) := p.nat
      (p.putBy d fun _ => d.unsigned letter n, rest')
    | 'e' | 'E' | 'f' | 'F' | 'g' | 'G' | 'a' | 'A' =>
      let (negative, amount, p) := p.float
      (p.putBy d fun _ => d.floating letter negative amount, rest')
    | _ =>
      let read := format.take (format.length - rest'.length)
      (p.stop ('%' :: read ++ ": invalid directive".toList), [])

/-- Go through a format once. -/
def pass : Nat → Text → Printing → Printing
  | 0, _, p => p
  | fuel + 1, format, p =>
    if p.ended || p.flaw.isSome then p
    else
      match format with
      | [] => p
      | '\\' :: rest =>
        let (ch, rest) := resolveEscape rest
        pass fuel rest (p.put [ch])
      | '%' :: '%' :: rest => pass fuel rest (p.put ['%'])
      | '%' :: rest =>
        let (p, rest) := p.directive rest
        pass fuel rest p
      | ch :: rest => pass fuel rest (p.put [ch])

/-- Go through a format, and again while it takes arguments and some are left. -/
def passes : Nat → Text → Printing → Printing
  | 0, _, p => p
  | fuel + 1, format, p =>
    let after := pass (format.length + 1) format p
    if after.ended || after.flaw.isSome || after.arguments.isEmpty
        || after.arguments.length == p.arguments.length then after
    else passes fuel format after

/-- What `printf` does with a format and arguments. -/
def ofFormat (format : Text) (arguments : List Text) : Printing :=
  passes (arguments.length + 1) format ⟨arguments, [], [], false, none⟩

end Printing

end AmountWalk.Shell
