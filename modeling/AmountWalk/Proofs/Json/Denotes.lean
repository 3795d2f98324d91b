import AmountWalk.Proofs.Json.Count

/-!
# What a text denotes

`codec.Denotes text value` says that a text is a way to write a value, without saying how it is
read. Everything that a writer may choose is left open: the blanks between the pieces, how a string is
written, whether a variant is a string or the key of a `null`, and for each record by itself whether it
is an array of its fields in order or an object with its fields in any order, where keys that name no
field may stand in between.

What may stand under such a key is the parameter `unknown`.
-/

namespace AmountWalk.Json

/-- The text behind a key: a colon and the text of a value, with blanks around the colon. -/
def IsTail (piece tail : List Char) : Prop :=
  ∃ before after, Blanks before ∧ Blanks after ∧ tail = before ++ ':' :: (after ++ piece)

section Denotes

variable (unknown : List Char → Prop)

mutual

/-- A text is a way to write a value. -/
def Codec.Denotes : {α : Type} → Codec α → List Char → α → Prop
  | _, .flag => fun text value =>
    text = if value then ['t', 'r', 'u', 'e'] else ['f', 'a', 'l', 's', 'e']
  | _, .count => fun text value => text = writeNat value.toNat
  | _, .text => fun text value => Quotes text value.toList
  | _, .letter => fun text value => Quotes text [value]
  | _, .letterOrNull => fun text value =>
    match value with
    | none => text = ['n', 'u', 'l', 'l']
    | some ch => Quotes text [ch]
  | _, .list item => fun text values => ∃ pieces body, List.Forall₂ item.Denotes pieces values ∧
    Frame ']' true pieces body ∧ text = '[' :: body
  | _, .variant _ name => fun text value => Quotes text (name value).toList ∨
    ∃ quoted tail body, Quotes quoted (name value).toList ∧ IsTail ['n', 'u', 'l', 'l'] tail ∧
      Frame '\x7d' true [quoted ++ tail] body ∧ text = '\x7b' :: body
  | _, .tagged leftTag left rightTag right _ => fun text value =>
    ∃ quoted tag piece tail body, Quotes quoted tag ∧ IsTail piece tail ∧
      Frame '\x7d' true [quoted ++ tail] body ∧ text = '\x7b' :: body ∧
      match value with
      | .inl value => tag = leftTag.toList ∧ left.Denotes piece value
      | .inr value => tag = rightTag.toList ∧ right.Denotes piece value
  | _, .record fields => fun text value =>
    (∃ pieces body, fields.DenotesItems pieces value ∧ Frame ']' true pieces body ∧
      text = '[' :: body) ∨
    (∃ pieces members body, fields.DenotesMembers members value ∧
      List.Forall₂ IsNamed pieces members ∧ Frame '\x7d' true pieces body ∧ text = '\x7b' :: body)
  | _, .via codec _ encoded _ => fun text value => codec.Denotes text (encoded value)

/-- The items of an array give the fields of a record in order. -/
def Fields.DenotesItems : {ρ : Type} → Fields ρ → List (List Char) → ρ → Prop
  | _, .nil => fun pieces _ => pieces = []
  | _, .cons _ codec _ rest => fun pieces value => ∃ piece others, pieces = piece :: others ∧
    codec.Denotes piece value.1 ∧ rest.DenotesItems others value.2

/-- The members of an object, each with the text behind its key, give the fields of a record in some
order. A field may be left out if its value is the one that stands in for it. -/
def Fields.DenotesMembers : {ρ : Type} → Fields ρ → List (List Char × List Char) → ρ → Prop
  | _, .nil => fun members _ => ∀ member ∈ members, ∃ piece, IsTail piece member.2 ∧ unknown piece
  | _, .cons name codec missing rest => fun members value =>
    (∃ piece tail front back, members = front ++ (name.toList, tail) :: back ∧
      IsTail piece tail ∧ codec.Denotes piece value.1 ∧
      (∀ member ∈ front ++ back, member.1 ≠ name.toList) ∧
      rest.DenotesMembers (front ++ back) value.2) ∨
    (missing = some value.1 ∧ (∀ member ∈ members, member.1 ≠ name.toList) ∧
      rest.DenotesMembers members value.2)

end

end Denotes

end AmountWalk.Json
