import AmountWalk.Proofs.Json.Denotes

/-!
# The grammar of JSON values

`IsValue text` says that a text is a JSON value, whatever it means and however it is read: a word, a
number, a string, an array of values or an object whose keys are strings. Numbers may be of any size, a
string may hold the halves of pairs of 16-bit units alone, and a key may stand in an object twice.
-/

namespace AmountWalk.Json

/-! ## Strings -/

/-- What stands for one character between the quotes of a string, or for one 16-bit unit. -/
inductive IsStringPiece : List Char → Prop where
  | plain {ch : Char} (hquote : ch ≠ '"') (hslash : ch ≠ '\\') (hcontrol : ¬ ch < ' ') :
      IsStringPiece [ch]
  | escape {letter : Char} (h : (escaped? letter).isSome) : IsStringPiece ['\\', letter]
  | unit {a b c d : Char} (ha : (hexValue? a).isSome) (hb : (hexValue? b).isSome)
      (hc : (hexValue? c).isSome) (hd : (hexValue? d).isSome) :
      IsStringPiece ['\\', 'u', a, b, c, d]

/-- A string in quotes. -/
def IsString (text : List Char) : Prop :=
  ∃ pieces : List (List Char), (∀ piece ∈ pieces, IsStringPiece piece) ∧
    text = '"' :: (pieces.flatten ++ ['"'])

/-! ## Numbers -/

/-- At least one digit. -/
def IsDigits (text : List Char) : Prop := text ≠ [] ∧ ∀ ch ∈ text, isDigit ch = true

/-- Digits without a leading zero, or a zero. -/
def IsWholeNumber (text : List Char) : Prop :=
  text = ['0'] ∨ IsDigits text ∧ text.head? ≠ some '0'

/-- A point with digits, or nothing. -/
def IsFraction (text : List Char) : Prop :=
  text = [] ∨ ∃ digits, IsDigits digits ∧ text = '.' :: digits

/-- A mark with a signed number, or nothing. -/
def IsExponent (text : List Char) : Prop :=
  text = [] ∨ ∃ mark sign digits, (mark = 'e' ∨ mark = 'E') ∧ (sign = [] ∨ sign = ['+'] ∨ sign = ['-']) ∧
    IsDigits digits ∧ text = mark :: (sign ++ digits)

/-- A number. -/
def IsNumber (text : List Char) : Prop :=
  ∃ sign whole fraction exponent, (sign = [] ∨ sign = ['-']) ∧ IsWholeNumber whole ∧
    IsFraction fraction ∧ IsExponent exponent ∧ text = sign ++ (whole ++ (fraction ++ exponent))

/-! ## Values -/

/-- A member of an object: a key with a value behind it. -/
def IsMember (piece value : List Char) : Prop :=
  ∃ key tail, IsString key ∧ IsTail value tail ∧ piece = key ++ tail

/-- A value. -/
inductive IsValue : List Char → Prop where
  | word {text : List Char} (h : text ∈ ["null".toList, "true".toList, "false".toList]) : IsValue text
  | string {text : List Char} (h : IsString text) : IsValue text
  | number {text : List Char} (h : IsNumber text) : IsValue text
  | array {items : List (List Char)} {body : List Char} (hitems : ∀ item ∈ items, IsValue item)
      (hframe : Frame ']' true items body) : IsValue ('[' :: body)
  | object {values pieces : List (List Char)} {body : List Char} (hvalues : ∀ value ∈ values, IsValue value)
      (hmembers : List.Forall₂ IsMember pieces values) (hframe : Frame '\x7d' true pieces body) :
      IsValue ('\x7b' :: body)

/-- A number starts with a sign or a digit. -/
theorem IsNumber.exists_cons {text : List Char} (h : IsNumber text) :
    ∃ ch rest, text = ch :: rest ∧ (ch = '-' ∨ isDigit ch = true) := by
  obtain ⟨sign, whole, fraction, exponent, hsign, hwhole, -, -, rfl⟩ := h
  obtain rfl | rfl := hsign
  · obtain rfl | ⟨⟨hne, hdigits⟩, -⟩ := hwhole
    · exact ⟨'0', _, rfl, .inr rfl⟩
    · obtain ⟨ch, rest, rfl⟩ := List.exists_cons_of_ne_nil hne
      exact ⟨ch, _, rfl, .inr (hdigits ch List.mem_cons_self)⟩
  · exact ⟨'-', _, rfl, .inl rfl⟩

/-- A value is not taken for blanks or for the end of an array. -/
theorem IsValue.startsItem {text : List Char} (h : IsValue text) : StartsItem text := by
  cases h with
  | word h =>
    simp only [List.mem_cons, List.not_mem_nil, or_false] at h
    obtain rfl | rfl | rfl := h
    · exact ⟨'n', _, rfl, rfl, by decide⟩
    · exact ⟨'t', _, rfl, rfl, by decide⟩
    · exact ⟨'f', _, rfl, rfl, by decide⟩
  | string h =>
    obtain ⟨pieces, -, rfl⟩ := h
    exact ⟨'"', _, rfl, rfl, by decide⟩
  | number h =>
    obtain ⟨ch, rest, rfl, rfl | hdigit⟩ := h.exists_cons
    · exact ⟨'-', _, rfl, rfl, by decide⟩
    · refine ⟨ch, rest, rfl, isBlank_of_isDigit hdigit, ?_⟩
      rintro rfl
      exact absurd hdigit (by decide)
  | array _ _ => exact ⟨'[', _, rfl, rfl, by decide⟩
  | object _ _ _ => exact ⟨'\x7b', _, rfl, rfl, by decide⟩

end AmountWalk.Json
