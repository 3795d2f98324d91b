import AmountWalk.Json.Codec

/-!
# Written JSON

How a value is written with a codec. A `Layout` says which blanks stand between the pieces: none in
the compact layout; in the pretty layout every item stands on a line of its own, two columns deeper
than the bracket around it. An empty array is `[]` in both.
-/

namespace AmountWalk.Json

/-- The blanks between the pieces of a written value. -/
structure Layout where
  /-- What stands before an item, or before a closing bracket, that is so many brackets deep. -/
  lineBreak : Nat → List Char
  /-- What stands after the colon of a member. -/
  afterColon : List Char

namespace Layout

/-- No blanks. -/
def compact : Layout := ⟨fun _ => [], []⟩

/-- An item a line. -/
def pretty : Layout := ⟨fun depth => '\n' :: List.replicate (2 * depth) ' ', [' ']⟩

/-- Written pieces with commas between them. -/
def join : List (List Char) → List Char
  | [] => []
  | [piece] => piece
  | piece :: pieces => piece ++ ',' :: join pieces

/-- Written items between brackets, so many brackets deep. -/
def enclose (layout : Layout) (depth : Nat) (opening closing : Char)
    (items : List (List Char)) : List Char :=
  if items.isEmpty then [opening, closing]
  else
    opening :: join (items.map fun item => layout.lineBreak (depth + 1) ++ item)
      ++ layout.lineBreak depth ++ [closing]

/-- A member of an object. -/
def member (layout : Layout) (name : String) (value : List Char) : List Char :=
  writeString name.toList ++ ':' :: layout.afterColon ++ value

end Layout

mutual

/-- Write a value that is so many brackets deep. -/
def Codec.write (layout : Layout) : {α : Type} → Codec α → Nat → α → List Char
  | _, .flag => fun _ value => if value then ['t', 'r', 'u', 'e'] else ['f', 'a', 'l', 's', 'e']
  | _, .count => fun _ value => writeNat value.toNat
  | _, .text => fun _ value => writeString value.toList
  | _, .letter => fun _ value => writeString [value]
  | _, .letterOrNull => fun _ value =>
    match value with
    | none => ['n', 'u', 'l', 'l']
    | some ch => writeString [ch]
  | _, .list item => fun depth values =>
    layout.enclose depth '[' ']' (values.map fun value => item.write layout (depth + 1) value)
  | _, .variant _ name => fun _ value => writeString (name value).toList
  | _, .tagged leftTag left rightTag right _ => fun depth value =>
    layout.enclose depth '{' '}'
      [match value with
        | .inl value => layout.member leftTag (left.write layout (depth + 1) value)
        | .inr value => layout.member rightTag (right.write layout (depth + 1) value)]
  | _, .record fields => fun depth value =>
    layout.enclose depth '{' '}' (fields.write layout (depth + 1) value)
  | _, .via codec _ encoded _ => fun depth value => codec.write layout depth (encoded value)

/-- Write the members of a record that is so many brackets deep. -/
def Fields.write (layout : Layout) : {ρ : Type} → Fields ρ → Nat → ρ → List (List Char)
  | _, .nil => fun _ _ => []
  | _, .cons name codec _ rest => fun depth values =>
    layout.member name (codec.write layout depth values.1) :: rest.write layout depth values.2

end

/-- The text of a value without blanks. -/
def Codec.compact {α : Type} (codec : Codec α) (value : α) : List Char :=
  codec.write .compact 0 value

/-- The text of a value with an item a line. -/
def Codec.pretty {α : Type} (codec : Codec α) (value : α) : List Char :=
  codec.write .pretty 0 value

/-- Whether the compact text of a value is read back as that value. -/
def Codec.roundTrips {α : Type} [DecidableEq α] (codec : Codec α) (value : α) : Bool :=
  match codec.decode (codec.compact value) with
  | .ok again => again == value
  | .error _ => false

end AmountWalk.Json
