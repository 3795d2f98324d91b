import AmountWalk.Json.Text
import Mathlib.Data.List.Forall2

/-!
# Ways to write a string

A string can be written in many ways. A character stands for itself, or it is an escape of one letter,
its 16-bit unit, or the pair of its units. `Quotes text content` leaves that open for each character by
itself. However a string is written, it is read as its content (`Quotes.readString`).
-/

namespace AmountWalk.Json

/-- Four hexadecimal digits, in small or capital letters, and the unit that they write. -/
inductive WritesUnit : List Char → Nat → Prop where
  | intro {a b c d : Char} {w x y z : Nat} (ha : hexValue? a = some w) (hb : hexValue? b = some x)
      (hc : hexValue? c = some y) (hd : hexValue? d = some z) :
      WritesUnit [a, b, c, d] (((w * 16 + x) * 16 + y) * 16 + z)

/-- What stands for a character between the quotes of a string. -/
inductive Spells : List Char → Char → Prop where
  | plain {ch : Char} (hquote : ch ≠ '"') (hslash : ch ≠ '\\') (hcontrol : ¬ ch < ' ') : Spells [ch] ch
  | escape {letter ch : Char} (h : escaped? letter = some ch) : Spells ['\\', letter] ch
  | unit {digits : List Char} {unit : Nat} (hdigits : WritesUnit digits unit)
      (hfirst : isFirstHalf unit = false) (hsecond : isSecondHalf unit = false) :
      Spells ('\\' :: 'u' :: digits) (Char.ofNat unit)
  | pair {front back : List Char} {first second : Nat} (hfront : WritesUnit front first)
      (hback : WritesUnit back second) (hfirst : isFirstHalf first = true)
      (hsecond : isSecondHalf second = true) :
      Spells ('\\' :: 'u' :: (front ++ '\\' :: 'u' :: back)) (pairChar first second)

/-- A text is a way to write a string in quotes. -/
def Quotes (text content : List Char) : Prop :=
  ∃ pieces, List.Forall₂ Spells pieces content ∧ text = '"' :: (pieces.flatten ++ ['"'])

/-! ## Reading -/

variable {mode next : StringMode} {done rest text content piece digits : List Char} {ch : Char}

theorem readStringFrom_goto (h : stringStep mode ch rest = .ok (.goto next)) :
    readStringFrom mode done (ch :: rest) = readStringFrom next done rest := by
  rw [readStringFrom, h]

theorem readStringFrom_char {plain : Char} (h : stringStep mode ch rest = .ok (.char plain)) :
    readStringFrom mode done (ch :: rest) = readStringFrom .plain (plain :: done) rest := by
  rw [readStringFrom, h]

/-- The last digit of a unit does what the unit does. -/
theorem WritesUnit.readStringFrom {unit : Nat} (h : WritesUnit digits unit) (first : Option Nat)
    (done rest : List Char) : ∃ value last,
      readStringFrom (.unit first 0 0) done (digits ++ rest)
        = readStringFrom (.unit first 3 value) done (last :: rest) ∧
      stringStep (.unit first 3 value) last rest = unitStep first unit := by
  obtain ⟨ha, hb, hc, hd⟩ := h
  rename_i a b c d w x y z
  refine ⟨(w * 16 + x) * 16 + y, d, ?_, by simp only [stringStep, hd, if_true]⟩
  have hstep {ch : Char} {digit : Nat} (hch : hexValue? ch = some digit) {digits : Nat}
      (hdigits : digits ≠ 3) (value : Nat) (rest : List Char) :
      Json.readStringFrom (.unit first digits value) done (ch :: rest)
        = Json.readStringFrom (.unit first (digits + 1) (value * 16 + digit)) done rest :=
    readStringFrom_goto (by simp only [stringStep, hch, if_neg hdigits])
  simp only [List.cons_append, List.nil_append]
  have hzero : 0 * 16 + w = w := by omega
  rw [hstep ha (by decide), hstep hb (by decide), hstep hc (by decide), hzero]

/-- What stands for a character is read as the character. -/
theorem Spells.readStringFrom (h : Spells piece ch) (done rest : List Char) :
    readStringFrom .plain done (piece ++ rest) = readStringFrom .plain (ch :: done) rest := by
  cases h with
  | plain hquote hslash hcontrol =>
    exact readStringFrom_char (by rw [stringStep, if_neg hquote, if_neg hslash, if_neg hcontrol])
  | @escape letter _ hletter =>
    have hne : letter ≠ 'u' := by
      rintro rfl
      cases hletter
    calc Json.readStringFrom .plain done ('\\' :: letter :: rest)
        = Json.readStringFrom (.escape none) done (letter :: rest) := readStringFrom_goto rfl
      _ = Json.readStringFrom .plain (ch :: done) rest :=
        readStringFrom_char (by simp only [stringStep, if_neg hne, hletter])
  | @unit digits unit hdigits hfirst hsecond =>
    obtain ⟨value, last, hlead, hlast⟩ := hdigits.readStringFrom none done rest
    have hunit : unitStep none unit = .ok (.char (Char.ofNat unit)) := by
      simp only [unitStep, hsecond, hfirst, Bool.false_eq_true, if_false]
    calc Json.readStringFrom .plain done ('\\' :: 'u' :: (digits ++ rest))
        = Json.readStringFrom (.unit none 0 0) done (digits ++ rest) :=
          (readStringFrom_goto rfl).trans (readStringFrom_goto rfl)
      _ = Json.readStringFrom .plain (Char.ofNat unit :: done) rest :=
          hlead.trans (readStringFrom_char (hlast.trans hunit))
  | @pair front back first second hfront hback hfirst hsecond =>
    obtain ⟨value, last, hlead, hlast⟩ := hfront.readStringFrom none done
      ('\\' :: 'u' :: (back ++ rest))
    obtain ⟨value', last', hlead', hlast'⟩ := hback.readStringFrom (some first) done rest
    have hsingle : isSecondHalf first = false := by
      simp only [isFirstHalf, isSecondHalf, Bool.and_eq_true, decide_eq_true_eq, Bool.and_eq_false_iff,
        decide_eq_false_iff_not] at hfirst ⊢
      omega
    have hhalf : unitStep none first = .ok (.goto (.half first)) := by
      simp only [unitStep, hsingle, hfirst, Bool.false_eq_true, if_false, if_true]
    have hpair : unitStep (some first) second = .ok (.char (pairChar first second)) := if_pos hsecond
    have happend : '\\' :: 'u' :: (front ++ '\\' :: 'u' :: back) ++ rest
        = '\\' :: 'u' :: (front ++ '\\' :: 'u' :: (back ++ rest)) := by simp
    calc Json.readStringFrom .plain done ('\\' :: 'u' :: (front ++ '\\' :: 'u' :: back) ++ rest)
        = Json.readStringFrom (.unit none 0 0) done (front ++ '\\' :: 'u' :: (back ++ rest)) := by
          rw [happend]
          exact (readStringFrom_goto rfl).trans (readStringFrom_goto rfl)
      _ = Json.readStringFrom (.half first) done ('\\' :: 'u' :: (back ++ rest)) :=
          hlead.trans (readStringFrom_goto (hlast.trans hhalf))
      _ = Json.readStringFrom (.unit (some first) 0 0) done (back ++ rest) :=
          (readStringFrom_goto rfl).trans (readStringFrom_goto rfl)
      _ = Json.readStringFrom .plain (pairChar first second :: done) rest :=
          hlead'.trans (readStringFrom_char (hlast'.trans hpair))

/-- **However a string is written, it is read as its content.** -/
theorem Quotes.readString (h : Quotes text content) :
    ∃ inner, text = '"' :: inner ∧ ∀ rest, readString (inner ++ rest) = .ok (content, rest) := by
  obtain ⟨pieces, hpieces, rfl⟩ := h
  refine ⟨_, rfl, fun rest => ?_⟩
  have hmany (done : List Char) : readStringFrom .plain done (pieces.flatten ++ '"' :: rest)
      = .ok (done.reverse ++ content, rest) := by
    induction hpieces generalizing done with
    | nil => rw [List.append_nil]; rfl
    | cons hpiece _ ih =>
      rw [List.flatten_cons, List.append_assoc, hpiece.readStringFrom, ih]
      simp
  rw [List.append_assoc]
  exact hmany []

/-! ## The usual way -/

theorem hexValue?_hexDigit {n : Nat} (h : n < 16) : hexValue? (hexDigit n) = some n := by
  have hall : ∀ m < 16, hexValue? (hexDigit m) = some m := by decide
  exact hall n h

theorem spells_escapeChar (ch : Char) : Spells (escapeChar ch) ch := by
  unfold escapeChar
  split
  iterate 7 exact .escape rfl
  next hquote hslash _ _ _ _ _ =>
  by_cases hcontrol : ch < ' '
  · have hlt : ch.toNat < 32 := hcontrol
    have hwrites : WritesUnit ['0', '0', hexDigit (ch.toNat / 16), hexDigit (ch.toNat % 16)]
        (((0 * 16 + 0) * 16 + ch.toNat / 16) * 16 + ch.toNat % 16) :=
      .intro rfl rfl (hexValue?_hexDigit (by omega)) (hexValue?_hexDigit (by omega))
    have hunit : ((0 * 16 + 0) * 16 + ch.toNat / 16) * 16 + ch.toNat % 16 = ch.toNat := by omega
    rw [hunit] at hwrites
    have hspells := Spells.unit hwrites (by simp [isFirstHalf]; omega) (by simp [isSecondHalf]; omega)
    rw [Char.ofNat_toNat] at hspells
    rw [if_pos hcontrol]
    exact hspells
  · rw [if_neg hcontrol]
    exact .plain hquote hslash hcontrol

theorem quotes_writeString (content : List Char) : Quotes (writeString content) content := by
  refine ⟨content.map escapeChar, ?_, ?_⟩
  · rw [List.forall₂_map_left_iff, List.forall₂_same]
    exact fun ch _ => spells_escapeChar ch
  · rw [writeString, List.flatMap_def]
    rfl

end AmountWalk.Json
