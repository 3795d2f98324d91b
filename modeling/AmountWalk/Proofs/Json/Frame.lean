import AmountWalk.Json.Codec
import AmountWalk.Proofs.Json.Quote
import Mathlib.Data.List.Basic

/-!
# Pieces between brackets

The items of an array and the members of an object stand between brackets, with commas between them
and blanks wherever a reader skips them. `Frame` says what such a text is, given its pieces; it does
not matter to it which blanks there are.

## What may follow a value

A value is read from the front of a text, and only one kind of value has no end of its own: a number
goes on as long as digits follow. So everything read from the front is followed by a text that does
not prolong a number (`Ends`), which is what commas, closing brackets, blanks and the end of the
text do.

## Loops

The loops over items and members count down from the length of the text. `readItems_frame` and
`readMembers_frame` say that they read any frame whose pieces are read one by one.
-/

namespace AmountWalk.Json

/-! ## Blanks -/

/-- A text of blanks only. -/
def Blanks (text : List Char) : Prop := ∀ ch ∈ text, isBlank ch = true

theorem blanks_nil : Blanks [] := fun _ h => absurd h List.not_mem_nil

variable {blanks before after rest : List Char}

theorem skipBlanks_append (h : Blanks blanks) (text : List Char) :
    skipBlanks (blanks ++ text) = skipBlanks text :=
  List.dropWhile_append_of_pos h

theorem skipBlanks_cons {ch : Char} (hch : isBlank ch = false) (rest : List Char) :
    skipBlanks (ch :: rest) = ch :: rest :=
  List.dropWhile_cons_of_neg (by simp [hch])

/-- Blanks in front of a piece are skipped. -/
theorem skipBlanks_append_cons {ch : Char} (h : Blanks blanks) (hch : isBlank ch = false)
    (rest : List Char) : skipBlanks (blanks ++ ch :: rest) = ch :: rest := by
  rw [skipBlanks_append h, skipBlanks_cons hch]

/-- A mark is read behind blanks. -/
theorem readMark_append {mark : Char} (h : Blanks blanks) (hmark : isBlank mark = false)
    (rest : List Char) : readMark mark (blanks ++ mark :: rest) = .ok rest := by
  rw [readMark, skipBlanks_append_cons h hmark]
  exact if_pos rfl

/-- Blanks in front of a value are skipped. -/
theorem Codec.read_blanks (h : Blanks blanks) (text : List Char) : {α : Type} → (codec : Codec α) →
    codec.read (blanks ++ text) = codec.read text
  | _, .via codec _ _ _ => by simp only [Codec.read, codec.read_blanks h text]
  | _, .flag | _, .count | _, .text | _, .letter | _, .letterOrNull | _, .list _ | _, .variant _ _
  | _, .tagged _ _ _ _ _ | _, .record _ => by
    have hskip : skipBlanks (blanks ++ text) = skipBlanks text := skipBlanks_append h text
    simp only [Codec.read, readVariant, readLetter, readQuoted, hskip]

/-! ## Ends -/

/-- Whether a character would prolong a number. -/
def prolongs (ch : Char) : Bool := isDigit ch || ch == '.' || ch == 'e' || ch == 'E'

/-- A text that does not prolong a number in front of it. -/
def Ends (text : List Char) : Prop := ∀ ch ∈ text.head?, prolongs ch = false

theorem ends_nil : Ends [] := fun _ h => absurd h (Option.not_mem_none _)

theorem ends_cons {ch : Char} (h : prolongs ch = false) (rest : List Char) : Ends (ch :: rest) := by
  intro other hother
  rw [← Option.some_inj.mp hother]
  exact h

theorem not_prolongs_of_isBlank {ch : Char} (h : isBlank ch = true) : prolongs ch = false := by
  simp only [isBlank, Bool.or_eq_true, beq_iff_eq] at h
  rcases h with ((rfl | rfl) | rfl) | rfl <;> decide

theorem isBlank_of_isDigit {ch : Char} (h : isDigit ch = true) : isBlank ch = false := by
  by_contra hblank
  have hprolongs := not_prolongs_of_isBlank (Bool.of_not_eq_false hblank)
  rw [prolongs, h] at hprolongs
  cases hprolongs

theorem Ends.blanks_append (h : Blanks blanks) (hrest : Ends rest) : Ends (blanks ++ rest) := by
  cases blanks with
  | nil => exact hrest
  | cons ch blanks => exact ends_cons (not_prolongs_of_isBlank (h ch List.mem_cons_self)) _

/-! ## Frames -/

/-- What stands between an opening bracket and its closing one, with the closing one: pieces with
commas between them and blanks around. At the first piece there is no comma. -/
inductive Frame (closing : Char) : Bool → List (List Char) → List Char → Prop where
  | close {first : Bool} {blanks : List Char} (hblanks : Blanks blanks) :
      Frame closing first [] (blanks ++ [closing])
  | first {before piece text : List Char} {pieces : List (List Char)} (hbefore : Blanks before)
      (hrest : Frame closing false pieces text) :
      Frame closing true (piece :: pieces) (before ++ (piece ++ text))
  | next {after before piece text : List Char} {pieces : List (List Char)} (hafter : Blanks after)
      (hbefore : Blanks before) (hrest : Frame closing false pieces text) :
      Frame closing false (piece :: pieces) (after ++ ',' :: (before ++ (piece ++ text)))

/-- A closing bracket. -/
def IsClosing (ch : Char) : Prop := ch = ']' ∨ ch = '\x7d'

namespace Frame

variable {closing : Char} {first : Bool} {pieces : List (List Char)} {text : List Char}

/-- What follows a piece does not prolong it. -/
theorem ends (h : Frame closing false pieces text) (hclosing : IsClosing closing)
    (rest : List Char) : Ends (text ++ rest) := by
  cases h with
  | close hblanks =>
    rw [List.append_assoc]
    refine Ends.blanks_append hblanks (ends_cons ?_ rest)
    rcases hclosing with rfl | rfl <;> decide
  | next hafter _ _ =>
    rw [List.append_assoc]
    exact Ends.blanks_append hafter (ends_cons (by decide) _)

/-- Behind the first piece, a frame has a comma for every piece and a closing bracket. -/
theorem length_lt (h : Frame closing false pieces text) : pieces.length < text.length := by
  generalize hfirst : false = first at h
  induction h with
  | close _ => simp
  | first _ _ _ => cases hfirst
  | next _ _ _ ih =>
    have := ih rfl
    simp only [List.length_cons, List.length_append]
    omega

/-- The text bounds the number of pieces. -/
theorem length_le (h : Frame closing first pieces text) : pieces.length ≤ text.length := by
  cases h with
  | close _ => simp
  | first _ hrest =>
    have := hrest.length_lt
    simp only [List.length_cons, List.length_append]
    omega
  | next hafter hbefore hrest => exact Nat.le_of_lt (Frame.next hafter hbefore hrest).length_lt

/-- So does a text that goes on behind it. -/
theorem length_lt_fuel (h : Frame closing first pieces text) (rest : List Char) :
    pieces.length < (text ++ rest).length + 1 := by
  have := h.length_le
  rw [List.length_append]
  omega

/-- A single piece has blanks around it. -/
theorem singleton {piece : List Char} (h : Frame closing true [piece] text) :
    ∃ before after, Blanks before ∧ Blanks after ∧
      text = before ++ (piece ++ (after ++ [closing])) := by
  cases h with
  | first hbefore hrest =>
    cases hrest with
    | close hafter => exact ⟨_, _, hbefore, hafter, rfl⟩

end Frame

/-- An object with a single member, up to the key. -/
theorem skipBlanks_object {before quoted tail after : List Char} (rest : List Char) :
    skipBlanks ('\x7b' :: (before ++ (quoted ++ tail ++ (after ++ ['\x7d']))) ++ rest)
      = '\x7b' :: (before ++ (quoted ++ (tail ++ (after ++ '\x7d' :: rest)))) := by
  rw [List.cons_append, skipBlanks_cons rfl]
  simp

/-! ## Items -/

/-- A reader takes exactly this piece and gives the value, whatever follows the piece. -/
def ReadAs {α : Type} (reader : Reader α) (piece : List Char) (value : α) : Prop :=
  ∀ rest, Ends rest → reader (piece ++ rest) = .ok (value, rest)

/-- A piece that cannot be taken for blanks or for the end of an array. -/
def StartsItem (piece : List Char) : Prop :=
  ∃ ch tail, piece = ch :: tail ∧ isBlank ch = false ∧ ch ≠ ']'

section Items

variable {first : Bool} {piece text : List Char} {pieces : List (List Char)}

theorem Frame.readNextItem_nil (h : Frame ']' first [] text) (rest : List Char) :
    readNextItem first (text ++ rest) = .ok (false, rest) := by
  cases h with
  | close hblanks =>
    rw [List.append_assoc, List.singleton_append, readNextItem,
      skipBlanks_append_cons hblanks rfl]
    exact if_pos rfl

/-- In front of an item there is either nothing or a comma, as the reader expects. -/
theorem Frame.readNextItem_cons (h : Frame ']' first (piece :: pieces) text)
    (hpiece : StartsItem piece) : ∃ later, Frame ']' false pieces later ∧
      ∀ rest, readNextItem first (text ++ rest) = .ok (true, piece ++ (later ++ rest)) := by
  obtain ⟨ch, tail, rfl, hblank, hclose⟩ := hpiece
  cases h with
  | first hbefore hlater =>
    refine ⟨_, hlater, fun rest => ?_⟩
    simp only [List.append_assoc, List.cons_append, readNextItem,
      skipBlanks_append_cons hbefore hblank, if_neg hclose, if_true]
  | next hafter hbefore hlater =>
    refine ⟨_, hlater, fun rest => ?_⟩
    have hcomma : isBlank ',' = false ∧ (',' : Char) ≠ ']' := by decide
    simp only [List.append_assoc, List.cons_append, readNextItem,
      skipBlanks_append_cons hafter hcomma.1, skipBlanks_append_cons hbefore hblank,
      if_neg hcomma.2, if_neg hclose, Bool.false_eq_true, if_false, if_true]

/-- An item that is read is one round of the loop. -/
theorem Frame.readItems_next {α : Type} {item : Reader α} {value : α} {done : List α}
    (h : Frame ']' first (piece :: pieces) text) (hpiece : StartsItem piece)
    (hread : ReadAs item piece value) (hdone : done.isEmpty = first) :
    ∃ later, Frame ']' false pieces later ∧ ∀ fuel rest,
      readItems item (fuel + 1) done (text ++ rest)
        = readItems item fuel (value :: done) (later ++ rest) := by
  obtain ⟨later, hlater, hnext⟩ := h.readNextItem_cons hpiece
  refine ⟨later, hlater, fun fuel rest => ?_⟩
  rw [readItems, hdone, hnext]
  simp only [hread _ (hlater.ends (Or.inl rfl) rest)]

/-- **The loop over items reads every frame.** `done` holds the values of the items in front. -/
theorem readItems_frame {α : Type} {item : Reader α} {values done : List α} {fuel : Nat}
    (hframe : Frame ']' first pieces text)
    (hitems : List.Forall₂ (fun piece value => StartsItem piece ∧ ReadAs item piece value)
      pieces values)
    (hdone : done.isEmpty = first) (hfuel : pieces.length < fuel) (rest : List Char) :
    readItems item fuel done (text ++ rest) = .ok (done.reverse ++ values, rest) := by
  -- The items lead; what is left of the frame behind one of them is the frame of the others.
  induction hitems generalizing first text done fuel with
  | nil =>
    obtain ⟨fuel, rfl⟩ := Nat.exists_add_one_eq.mpr (Nat.zero_lt_of_lt hfuel)
    rw [readItems, hdone, hframe.readNextItem_nil, List.append_nil]
  | cons hpiece hitems ih =>
    obtain ⟨fuel, rfl⟩ := Nat.exists_add_one_eq.mpr (Nat.zero_lt_of_lt hfuel)
    obtain ⟨later, hlater, hround⟩ := hframe.readItems_next hpiece.1 hpiece.2 hdone
    rw [hround, ih hlater rfl (Nat.lt_of_succ_lt_succ hfuel), List.reverse_cons, List.append_assoc]
    rfl

end Items

/-! ## Members -/

section Members

variable {first : Bool} {quoted key tail text : List Char} {pieces : List (List Char)}

theorem Frame.readNextKey_nil (h : Frame '\x7d' first [] text) (rest : List Char) :
    readNextKey first (text ++ rest) = .ok (none, rest) := by
  cases h with
  | close hblanks =>
    rw [List.append_assoc, List.singleton_append, readNextKey,
      skipBlanks_append_cons hblanks rfl]
    exact if_pos rfl

/-- A key is read behind blanks, however it is written. -/
theorem Quotes.readKey (hquotes : Quotes quoted key) (h : Blanks blanks) (rest : List Char) :
    readKey (blanks ++ (quoted ++ rest)) = .ok (key, rest) := by
  obtain ⟨inner, rfl, hread⟩ := hquotes.readString
  have hskip : skipBlanks (blanks ++ ('"' :: inner ++ rest)) = '"' :: (inner ++ rest) :=
    skipBlanks_append_cons h rfl _
  simp only [Json.readKey, hskip, hread]

/-- In front of a member there is either nothing or a comma, as the reader expects. -/
theorem Frame.readNextKey_cons (h : Frame '\x7d' first ((quoted ++ tail) :: pieces) text)
    (hquotes : Quotes quoted key) : ∃ later, Frame '\x7d' false pieces later ∧
      ∀ rest, readNextKey first (text ++ rest) = .ok (some key, tail ++ (later ++ rest)) := by
  cases h with
  | first hbefore hlater =>
    refine ⟨_, hlater, fun rest => ?_⟩
    have hquote : isBlank '"' = false ∧ ('"' : Char) ≠ '\x7d' := by decide
    have hkey (text : List Char) : Json.readKey (quoted ++ text) = .ok (key, text) :=
      hquotes.readKey blanks_nil text
    obtain ⟨inner, rfl, -⟩ := hquotes.readString
    simp only [List.cons_append] at hkey
    simp only [List.append_assoc, List.cons_append, readNextKey,
      skipBlanks_append_cons hbefore hquote.1, if_neg hquote.2, if_true, readNextKey.key, hkey,
      Except.map]
  | next hafter hbefore hlater =>
    refine ⟨_, hlater, fun rest => ?_⟩
    have hcomma : isBlank ',' = false ∧ (',' : Char) ≠ '\x7d' := by decide
    simp only [List.append_assoc, List.cons_append, readNextKey,
      skipBlanks_append_cons hafter hcomma.1, if_neg hcomma.2, Bool.false_eq_true, if_false,
      if_true, readNextKey.key, hquotes.readKey hbefore, Except.map]

/-- The slots that a reader of members fills from these keys with the texts behind them, one after
the other. -/
inductive Fills {ς : Type} (member : List Char → ς → Reader ς) :
    ς → List (List Char × List Char) → ς → Prop where
  | nil {slots : ς} : Fills member slots [] slots
  | cons {slots slots' slots'' : ς} {key tail : List Char} {members : List (List Char × List Char)}
      (hmember : ReadAs (member key slots) tail slots')
      (hrest : Fills member slots' members slots'') :
      Fills member slots ((key, tail) :: members) slots''

/-- A piece of an object is a member: its key, in quotes, and the text behind that. -/
def IsNamed (piece : List Char) (member : List Char × List Char) : Prop :=
  ∃ quoted, Quotes quoted member.1 ∧ piece = quoted ++ member.2

/-- A member that fills a slot is one round of the loop. -/
theorem Frame.readMembers_next {ς : Type} {member : List Char → ς → Reader ς} {slots slots' : ς}
    {piece : List Char} (h : Frame '\x7d' first (piece :: pieces) text) (hpiece : IsNamed piece (key, tail))
    (hmember : ReadAs (member key slots) tail slots') :
    ∃ later, Frame '\x7d' false pieces later ∧ ∀ fuel rest,
      readMembers member (fuel + 1) first slots (text ++ rest)
        = readMembers member fuel false slots' (later ++ rest) := by
  obtain ⟨quoted, hquotes, rfl⟩ := hpiece
  obtain ⟨later, hlater, hnext⟩ := h.readNextKey_cons hquotes
  refine ⟨later, hlater, fun fuel rest => ?_⟩
  rw [readMembers, hnext]
  simp only [hmember _ (hlater.ends (Or.inr rfl) rest)]

/-- **The loop over members reads every frame.** -/
theorem readMembers_frame {ς : Type} {member : List Char → ς → Reader ς} {slots slots' : ς}
    {members : List (List Char × List Char)} {fuel : Nat}
    (hfills : Fills member slots members slots') (hnamed : List.Forall₂ IsNamed pieces members)
    (hframe : Frame '\x7d' first pieces text) (hfuel : pieces.length < fuel) (rest : List Char) :
    readMembers member fuel first slots (text ++ rest) = .ok (slots', rest) := by
  induction hfills generalizing first text pieces fuel with
  | nil =>
    cases hnamed
    obtain ⟨fuel, rfl⟩ := Nat.exists_add_one_eq.mpr (Nat.zero_lt_of_lt hfuel)
    rw [readMembers, Frame.readNextKey_nil hframe]
  | cons hmember hfills ih =>
    cases hnamed with
    | cons hpiece hnamed =>
      obtain ⟨fuel, rfl⟩ := Nat.exists_add_one_eq.mpr (Nat.zero_lt_of_lt hfuel)
      obtain ⟨later, hlater, hround⟩ := hframe.readMembers_next hpiece hmember
      rw [hround, ih hnamed hlater (Nat.lt_of_succ_lt_succ hfuel)]

end Members

end AmountWalk.Json
