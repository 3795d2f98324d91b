import AmountWalk.Json.Skip

/-!
# Codecs

A `Codec α` describes the JSON form of the values of a type, once for reading and for writing. A
record is a list of named fields, in order.

## What is read

`Codec.decode` reads more than what is written:

* a record is an object, with its fields in any order and unknown keys in between, or an array of
  its fields in order. A field that is missing or given twice is a flaw, and so is an array of the
  wrong length;
* a variant is a string or an object with the name as its only key and `null` as its value;
* a tagged value is an object with the tag as its only key.

The first flaw from left to right is reported. A field that is missing is noticed at the closing
bracket. A key is a string, also where it is a name or a tag: with anything else in its place, be it a
number, `null` or a bracket, the text is malformed and not just of another type.
-/

namespace AmountWalk.Json

mutual

/-- The JSON form of the values of a type. -/
inductive Codec : Type → Type 1 where
  /-- `true` or `false`. -/
  | flag : Codec Bool
  /-- A number without sign, fraction and exponent, below 2 ^ 64. -/
  | count : Codec UInt64
  | text : Codec String
  /-- A string of one character. -/
  | letter : Codec Char
  /-- A string of one character, or `null`. -/
  | letterOrNull : Codec (Option Char)
  /-- An array. -/
  | list {α : Type} (item : Codec α) : Codec (List α)
  /-- One of finitely many values, by its name. A name is read as the first value that has it. -/
  | variant {α : Type} (values : List α) (name : α → String) : Codec α
  /-- A value of one of two types under the tag of its type. -/
  | tagged {α β : Type} (leftTag : String) (left : Codec α) (rightTag : String) (right : Codec β)
      (ne : leftTag ≠ rightTag) : Codec (α ⊕ β)
  | record {ρ : Type} (fields : Fields ρ) : Codec ρ
  /-- A value that is written as a value of another type. -/
  | via {α β : Type} (codec : Codec α) (decoded : α → β) (encoded : β → α)
      (inv : ∀ b, decoded (encoded b) = b) : Codec β

/-- The fields of a record, in order. -/
inductive Fields : Type → Type 1 where
  | nil : Fields Unit
  /-- A field, the value that stands in for it when an object leaves it out, and the other fields. -/
  | cons {α ρ : Type} (name : String) (codec : Codec α) (missing : Option α) (rest : Fields ρ) :
      Fields (α × ρ)

end

/-! ## Reading the frame of a value -/

/-- The flaw of a text that goes on with a value of another form. The value is read as far as is
needed to see that it is one. -/
def otherFlaw : List Char → Flaw
  | [] => .cutShort
  | ch :: rest =>
    if ch = 'n' then flawOf (readWord ['u', 'l', 'l'] rest)
    else if ch = 't' then flawOf (readWord ['r', 'u', 'e'] rest)
    else if ch = 'f' then flawOf (readWord ['a', 'l', 's', 'e'] rest)
    else if ch = '-' then flawOf (readNumeral true rest)
    else if isDigit ch then flawOf (readNumeral false (ch :: rest))
    else if ch = '"' then flawOf (readString rest)
    else if ch = '[' ∨ ch = '{' then .mismatched
    else .malformed
where
  /-- The flaw of a value that was read, or the flaw met while reading it. -/
  flawOf {ε : Type} : Except Flaw ε → Flaw
    | .error flaw => flaw
    | .ok _ => .mismatched

/-- The text after blanks and a fixed character. -/
def readMark (mark : Char) (text : List Char) : Except Flaw (List Char) :=
  match skipBlanks text with
  | [] => .error .cutShort
  | ch :: rest => if ch = mark then .ok rest else .error .malformed

/-- A string that must come next. -/
def readQuoted : Reader (List Char) := fun text =>
  match skipBlanks text with
  | '"' :: rest => readString rest
  | text => .error (otherFlaw text)

/-- A key that must come next. -/
def readKey : Reader (List Char) := fun text =>
  match skipBlanks text with
  | [] => .error .cutShort
  | '"' :: rest => readString rest
  | _ => .error .malformed

/-- Whether an array has another item. Without one, its closing bracket has been read. -/
def readNextItem (first : Bool) : Reader Bool := fun text =>
  match skipBlanks text with
  | [] => .error .cutShort
  | ch :: rest =>
    if ch = ']' then .ok (false, rest)
    else if first then .ok (true, ch :: rest)
    else if ch = ',' then
      match skipBlanks rest with
      | [] => .error .cutShort
      | ch :: rest => if ch = ']' then .error .malformed else .ok (true, ch :: rest)
    else .error .malformed

/-- The key of the next member of an object. Without one, the closing bracket has been read. -/
def readNextKey (first : Bool) : Reader (Option (List Char)) := fun text =>
  match skipBlanks text with
  | [] => .error .cutShort
  | ch :: rest =>
    if ch = '}' then .ok (none, rest)
    else if first then key (ch :: rest)
    else if ch = ',' then key rest
    else .error .malformed
where
  key : Reader (Option (List Char)) := fun text =>
    (readKey text).map fun (name, rest) => (some name, rest)

/-- The rest of an array, item by item. The text bounds the number of items. -/
def readItems {α : Type} (item : Reader α) : Nat → List α → Reader (List α)
  | 0, _, _ => .error .cutShort
  | fuel + 1, done, text =>
    match readNextItem done.isEmpty text with
    | .error flaw => .error flaw
    | .ok (false, rest) => .ok (done.reverse, rest)
    | .ok (true, rest) =>
      match item rest with
      | .error flaw => .error flaw
      | .ok (value, rest) => readItems item fuel (value :: done) rest

/-- The rest of an object, member by member. The text bounds the number of members. -/
def readMembers {ς : Type} (member : List Char → ς → Reader ς) :
    Nat → Bool → ς → Reader ς
  | 0, _, _, _ => .error .cutShort
  | fuel + 1, first, slots, text =>
    match readNextKey first text with
    | .error flaw => .error flaw
    | .ok (none, rest) => .ok (slots, rest)
    | .ok (some key, rest) =>
      match member key slots rest with
      | .error flaw => .error flaw
      | .ok (slots, rest) => readMembers member fuel false slots rest

/-! ## Records -/

/-- The fields of a record that an object has given so far. -/
def Fields.Slots : {ρ : Type} → Fields ρ → Type
  | _, .nil => Unit
  | _, .cons (α := α) _ _ _ rest => Option α × rest.Slots

/-- No field so far. -/
def Fields.emptySlots : {ρ : Type} → (fields : Fields ρ) → fields.Slots
  | _, .nil => ()
  | _, .cons _ _ _ rest => (none, rest.emptySlots)

/-- The record whose fields were given. -/
def Fields.assemble : {ρ : Type} → (fields : Fields ρ) → fields.Slots → Except Flaw ρ
  | _, .nil, _ => .ok ()
  | _, .cons _ _ missing rest, slots =>
    match slots.1.or missing, rest.assemble slots.2 with
    | some value, .ok others => .ok (value, others)
    | _, _ => .error .mismatched

def Fields.names : {ρ : Type} → Fields ρ → List String
  | _, .nil => []
  | _, .cons name _ _ rest => name :: rest.names

/-! ## Reading -/

/-- Read one of finitely many values by its name. -/
def readVariant {α : Type} (values : List α) (name : α → String) : Reader α := fun text =>
  match skipBlanks text with
  | [] => .error .cutShort
  | ch :: rest =>
    if ch = '"' then
      match readString rest with
      | .error flaw => .error flaw
      | .ok (given, rest) =>
        match find given with
        | none => .error .mismatched
        | some value => .ok (value, rest)
    else if ch = '{' then do
      let (given, rest) ← readKey rest
      match find given with
      | none => .error .mismatched
      | some value =>
        let rest ← readMark ':' rest
        let rest ← readNull (skipBlanks rest)
        let rest ← readMark '}' rest
        return (value, rest)
    else .error .malformed
where
  /-- The value of a name. -/
  find (given : List Char) : Option α :=
    values.find? fun value => (name value).toList == given
  /-- The word `null`. -/
  readNull : List Char → Except Flaw (List Char)
    | 'n' :: rest => readWord ['u', 'l', 'l'] rest
    | text => .error (otherFlaw text)

/-- Read a string of one character. -/
def readLetter : Reader Char := fun text =>
  match readQuoted text with
  | .error flaw => .error flaw
  | .ok ([ch], rest) => .ok (ch, rest)
  | .ok (_, _) => .error .mismatched

mutual

/-- Read a value from the front of a text. -/
def Codec.read : {α : Type} → Codec α → Reader α
  | _, .flag => fun text =>
    match skipBlanks text with
    | 't' :: rest => (readWord ['r', 'u', 'e'] rest).map fun rest => (true, rest)
    | 'f' :: rest => (readWord ['a', 'l', 's', 'e'] rest).map fun rest => (false, rest)
    | text => .error (otherFlaw text)
  | _, .count => fun text =>
    match skipBlanks text with
    | [] => .error .cutShort
    | ch :: rest =>
      if isDigit ch then
        match readNumeral false (ch :: rest) with
        | .error flaw => .error flaw
        | .ok (numeral, rest) =>
          match numeral.count? with
          | none => .error .mismatched
          | some n => .ok (n, rest)
      else .error (otherFlaw (ch :: rest))
  | _, .text => fun text =>
    (readQuoted text).map fun (content, rest) => (String.ofList content, rest)
  | _, .letter => readLetter
  | _, .letterOrNull => fun text =>
    match skipBlanks text with
    | 'n' :: rest => (readWord ['u', 'l', 'l'] rest).map fun rest => (none, rest)
    | text => (readLetter text).map fun (ch, rest) => (some ch, rest)
  | _, .list item => fun text =>
    match skipBlanks text with
    | '[' :: rest => readItems item.read (rest.length + 1) [] rest
    | text => .error (otherFlaw text)
  | _, .variant values name => readVariant values name
  | _, .tagged leftTag left rightTag right _ => fun text =>
    match skipBlanks text with
    | [] => .error .cutShort
    | ch :: rest =>
      if ch = '"' then .error (otherFlaw (ch :: rest))
      else if ch = '{' then do
        let (tag, rest) ← readKey rest
        if tag = leftTag.toList then
          let rest ← readMark ':' rest
          let (value, rest) ← left.read rest
          let rest ← readMark '}' rest
          return (.inl value, rest)
        else if tag = rightTag.toList then
          let rest ← readMark ':' rest
          let (value, rest) ← right.read rest
          let rest ← readMark '}' rest
          return (.inr value, rest)
        else .error .mismatched
      else .error .malformed
  | _, .record fields => fun text =>
    match skipBlanks text with
    | '[' :: rest => do
      let (value, rest) ← fields.readArray true rest
      let rest ← readMark ']' rest
      return (value, rest)
    | '{' :: rest => do
      let (slots, rest) ← readMembers fields.readMember (rest.length + 1) true fields.emptySlots rest
      let value ← fields.assemble slots
      return (value, rest)
    | text => .error (otherFlaw text)
  | _, .via codec decoded _ _ => fun text =>
    (codec.read text).map fun (value, rest) => (decoded value, rest)

/-- Read the fields of a record from the items of an array. -/
def Fields.readArray : {ρ : Type} → Fields ρ → Bool → Reader ρ
  | _, .nil => fun _ text => .ok ((), text)
  | _, .cons _ codec _ rest => fun first text =>
    match readNextItem first text with
    | .error flaw => .error flaw
    | .ok (false, _) => .error .mismatched
    | .ok (true, text) => do
      let (value, text) ← codec.read text
      let (others, text) ← rest.readArray false text
      return ((value, others), text)

/-- Read the member of an object that has the given key. -/
def Fields.readMember : {ρ : Type} → (fields : Fields ρ) → List Char → fields.Slots →
    Reader fields.Slots
  | _, .nil => fun _ _ text => do
    let text ← readMark ':' text
    let text ← skipValue text
    return ((), text)
  | _, .cons name codec _ rest => fun key slots text =>
    if key = name.toList then
      if slots.1.isSome then .error .mismatched
      else do
        let text ← readMark ':' text
        let (value, text) ← codec.read text
        return ((some value, slots.2), text)
    else do
      let (others, text) ← rest.readMember key slots.2 text
      return ((slots.1, others), text)

end

/-- The value that a whole text gives. -/
def Codec.decode {α : Type} (codec : Codec α) (text : List Char) : Except Flaw α :=
  match codec.read text with
  | .error flaw => .error flaw
  | .ok (value, rest) =>
    if (skipBlanks rest).isEmpty then .ok value else .error .malformed

/-- The value that a text gives which is known to be JSON. Whatever its flaw is, it can only be that the
text is not of the form asked for. -/
def Codec.decodeKnown {α : Type} (codec : Codec α) (text : List Char) : Except Flaw α :=
  (codec.decode text).mapError fun _ => .mismatched

end AmountWalk.Json
