/-!
# UTF-8

Texts as bytes and back. Reading bytes never fails: where they are not UTF-8, one replacement
character stands for the longest run of bytes that could have begun a character, or for a single
byte that cannot begin one.

The reader is a machine that takes one byte at a time. `decodeLossy_encode` says that the bytes of a
text are read back as that text.
-/

namespace AmountWalk.Utf8

/-- Bytes, in order. -/
abbrev Bytes := List UInt8

def encode (text : List Char) : Bytes :=
  text.flatMap String.utf8EncodeChar

def ofString (s : String) : Bytes := encode s.toList

/-! ## Reading -/

/-- The character that stands for bytes that are none. -/
def replacement : Char := '\uFFFD'

/-- A character that has begun. -/
structure Begun where
  /-- The bits so far. -/
  bits : Nat
  /-- How many bytes are owed besides the next one. -/
  owed : Nat
  /-- The least next byte. -/
  low : Nat
  /-- The greatest next byte. -/
  high : Nat

/-- The first byte of a character: a character of one byte, the beginning of a longer one, or
neither. -/
def firstStep (byte : Nat) : List Char × Option Begun :=
  if byte < 0x80 then ([Char.ofNat byte], none)
  else if byte < 0xC2 then ([replacement], none)
  else if byte < 0xE0 then ([], some ⟨byte % 0x20, 0, 0x80, 0xBF⟩)
  else if byte = 0xE0 then ([], some ⟨byte % 0x10, 1, 0xA0, 0xBF⟩)
  else if byte = 0xED then ([], some ⟨byte % 0x10, 1, 0x80, 0x9F⟩)
  else if byte < 0xF0 then ([], some ⟨byte % 0x10, 1, 0x80, 0xBF⟩)
  else if byte = 0xF0 then ([], some ⟨byte % 0x8, 2, 0x90, 0xBF⟩)
  else if byte < 0xF4 then ([], some ⟨byte % 0x8, 2, 0x80, 0xBF⟩)
  else if byte = 0xF4 then ([], some ⟨byte % 0x8, 2, 0x80, 0x8F⟩)
  else ([replacement], none)

/-- One byte: the characters that are complete now, and the one that has begun. -/
def step (begun : Option Begun) (byte : Nat) : List Char × Option Begun :=
  match begun with
  | none => firstStep byte
  | some ⟨bits, owed, low, high⟩ =>
    if low ≤ byte ∧ byte ≤ high then
      let bits := bits * 0x40 + byte % 0x40
      match owed with
      | 0 => ([Char.ofNat bits], none)
      | owed + 1 => ([], some ⟨bits, owed, 0x80, 0xBF⟩)
    else
      let (chars, begun) := firstStep byte
      (replacement :: chars, begun)

/-- Read on after a character has begun or not. -/
def decodeFrom (begun : Option Begun) : Bytes → List Char
  | [] => if begun.isSome then [replacement] else []
  | byte :: rest =>
    let (chars, begun) := step begun byte.toNat
    chars ++ decodeFrom begun rest

/-- The text that some bytes stand for. -/
def decodeLossy : Bytes → List Char := decodeFrom none

theorem decodeFrom_cons (begun : Option Begun) (n : Nat) (rest : Bytes) (hn : n < 256) :
    decodeFrom begun (UInt8.ofNat n :: rest)
      = (step begun n).1 ++ decodeFrom (step begun n).2 rest := by
  have h : (UInt8.ofNat n).toNat = n := by simp [UInt8.toNat_ofNat', Nat.mod_eq_of_lt hn]
  simp [decodeFrom, h]

/-- A byte that continues a character that is not complete yet. -/
theorem step_owed {bits owed low high n : Nat} (h : low ≤ n ∧ n ≤ high) :
    step (some ⟨bits, owed + 1, low, high⟩) n
      = ([], some ⟨bits * 64 + n % 64, owed, 0x80, 0xBF⟩) := by
  simp [step, h]

/-- The last byte of a character. -/
theorem step_last {bits low high n : Nat} (h : low ≤ n ∧ n ≤ high) :
    step (some ⟨bits, 0, low, high⟩) n = ([Char.ofNat (bits * 64 + n % 64)], none) := by
  simp [step, h]

/-- The first byte of a character of two bytes. -/
theorem step_two {n : Nat} (h : 0xC2 ≤ n ∧ n < 0xE0) :
    step none n = ([], some ⟨n % 0x20, 0, 0x80, 0xBF⟩) := by
  simp only [step, firstStep]
  rw [if_neg (by omega), if_neg (by omega), if_pos (by omega)]

/-- The first byte of a character of three bytes, and a second byte that may follow it. -/
theorem step_three {n m : Nat} (h : 0xE0 ≤ n ∧ n < 0xF0) (hm : 0x80 ≤ m ∧ m ≤ 0xBF)
    (hlow : n = 0xE0 → 0xA0 ≤ m) (hhigh : n = 0xED → m ≤ 0x9F) :
    (step none n).1 = [] ∧ ∃ low high, (step none n).2 = some ⟨n % 0x10, 1, low, high⟩
      ∧ low ≤ m ∧ m ≤ high := by
  simp only [step, firstStep]
  rw [if_neg (by omega), if_neg (by omega), if_neg (by omega)]
  split
  · exact ⟨rfl, _, _, rfl, hlow (by omega), hm.2⟩
  · split
    · exact ⟨rfl, _, _, rfl, hm.1, hhigh (by omega)⟩
    · rw [if_pos (by omega)]
      exact ⟨rfl, _, _, rfl, hm⟩

/-- The first byte of a character of four bytes, and a second byte that may follow it. -/
theorem step_four {n m : Nat} (h : 0xF0 ≤ n ∧ n ≤ 0xF4) (hm : 0x80 ≤ m ∧ m ≤ 0xBF)
    (hlow : n = 0xF0 → 0x90 ≤ m) (hhigh : n = 0xF4 → m ≤ 0x8F) :
    (step none n).1 = [] ∧ ∃ low high, (step none n).2 = some ⟨n % 0x8, 2, low, high⟩
      ∧ low ≤ m ∧ m ≤ high := by
  simp only [step, firstStep]
  rw [if_neg (by omega), if_neg (by omega), if_neg (by omega), if_neg (by omega),
    if_neg (by omega), if_neg (by omega)]
  split
  · exact ⟨rfl, _, _, rfl, hlow (by omega), hm.2⟩
  · split
    · exact ⟨rfl, _, _, rfl, hm⟩
    · rw [if_pos (by omega)]
      exact ⟨rfl, _, _, rfl, hm.1, hhigh (by omega)⟩

/-- One character is read back from its bytes. -/
theorem decodeFrom_utf8EncodeChar (ch : Char) (rest : Bytes) :
    decodeFrom none (String.utf8EncodeChar ch ++ rest) = ch :: decodeFrom none rest := by
  have hch : Char.ofNat ch.val.toNat = ch := Char.ofNat_toNat ch
  have hvalid := ch.valid
  simp only [UInt32.isValidChar, Nat.isValidChar] at hvalid
  unfold String.utf8EncodeChar
  generalize hv : ch.val.toNat = v at *
  simp only []
  split
  · rw [List.cons_append, decodeFrom_cons _ _ _ (by omega)]
    simp [step, firstStep, show v < 128 by omega, hch]
  split
  · simp only [List.cons_append, List.nil_append]
    rw [decodeFrom_cons _ _ _ (by omega), step_two (by omega), decodeFrom_cons _ _ _ (by omega),
      step_last (by omega)]
    have hbits : (v / 64 % 32 + 192) % 32 * 64 + (v % 64 + 128) % 64 = v := by omega
    simp only [hbits, hch, List.nil_append, List.cons_append]
  split
  · simp only [List.cons_append, List.nil_append]
    obtain ⟨hnone, low, high, hsome, hfit⟩ :=
      step_three (n := v / 4096 % 16 + 224) (m := v / 64 % 64 + 128) (by omega) (by omega)
        (by omega) (by omega)
    rw [decodeFrom_cons _ _ _ (by omega), hnone, hsome, decodeFrom_cons _ _ _ (by omega),
      step_owed hfit, decodeFrom_cons _ _ _ (by omega), step_last (by omega)]
    have hbits : ((v / 4096 % 16 + 224) % 16 * 64 + (v / 64 % 64 + 128) % 64) * 64
        + (v % 64 + 128) % 64 = v := by omega
    simp only [hbits, hch, List.nil_append, List.cons_append]
  · simp only [List.cons_append, List.nil_append]
    obtain ⟨hnone, low, high, hsome, hfit⟩ :=
      step_four (n := v / 262144 % 8 + 240) (m := v / 4096 % 64 + 128) (by omega) (by omega)
        (by omega) (by omega)
    rw [decodeFrom_cons _ _ _ (by omega), hnone, hsome, decodeFrom_cons _ _ _ (by omega),
      step_owed hfit, decodeFrom_cons _ _ _ (by omega), step_owed (by omega),
      decodeFrom_cons _ _ _ (by omega), step_last (by omega)]
    have hbits : (((v / 262144 % 8 + 240) % 8 * 64 + (v / 4096 % 64 + 128) % 64) * 64
        + (v / 64 % 64 + 128) % 64) * 64 + (v % 64 + 128) % 64 = v := by omega
    simp only [hbits, hch, List.nil_append, List.cons_append]

/-- **A text is read back from its bytes.** -/
theorem decodeLossy_encode (text : List Char) : decodeLossy (encode text) = text := by
  induction text with
  | nil => rfl
  | cons ch rest ih =>
    rw [encode, List.flatMap_cons, decodeLossy, decodeFrom_utf8EncodeChar]
    exact congrArg (ch :: ·) ih

end AmountWalk.Utf8
