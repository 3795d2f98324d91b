import AmountWalk.Amount
import AmountWalk.Render

/-!
# Names of graphs as identifiers

The name of a graph stands in the source as it is, so it has to be a word of letters, digits and
underscores that does not start with a digit, and it must not be one of the words that DOT reserves.
Every name is such a word (`isWord_graphName`). A reserved word is kept out only where something else
stands in front of it or behind it: the source in a file `graph`, or in `Node.gv`, has a name that is
reserved (`isReserved_graphName_iff`).
-/

namespace AmountWalk

/-! ## Letters -/

theorem isUpper_iff {ch : Char} : ch.isUpper ↔ 65 ≤ ch.toNat ∧ ch.toNat ≤ 90 := decide_eq_true_iff

theorem isLower_iff {ch : Char} : ch.isLower ↔ 97 ≤ ch.toNat ∧ ch.toNat ≤ 122 :=
  (Bool.and_eq_true_iff).trans (and_congr decide_eq_true_iff decide_eq_true_iff)

theorem isDigit_iff_toNat {ch : Char} : ch.isDigit ↔ 48 ≤ ch.toNat ∧ ch.toNat ≤ 57 :=
  (Bool.and_eq_true_iff).trans (and_congr decide_eq_true_iff decide_eq_true_iff)

theorem isAlpha_iff {ch : Char} : ch.isAlpha ↔ ch.isUpper ∨ ch.isLower := Bool.or_eq_true_iff

theorem isAlpha_of_isLower_toLower {ch : Char} (h : ch.toLower.isLower) : ch.isAlpha := by
  by_cases hupper : ch.isUpper
  · exact isAlpha_iff.mpr (.inl hupper)
  · have hsame : ch.toLower = ch := dif_neg fun hbetween => hupper (decide_eq_true hbetween)
    rw [hsame] at h
    exact isAlpha_iff.mpr (.inr h)

theorem not_isDigit_of_isAlpha {ch : Char} (h : ch.isAlpha) : ¬ ch.isDigit := by
  rw [isAlpha_iff, isUpper_iff, isLower_iff] at h
  rw [isDigit_iff_toNat]
  omega

theorem isAlphanum_iff {ch : Char} : ch.isAlphanum ↔ ch.isAlpha ∨ ch.isDigit := Bool.or_eq_true_iff

theorem isNameChar_iff {ch : Char} : isNameChar ch ↔ ch.isAlphanum := by
  have hdigit : '0' ≤ ch ∧ ch ≤ '9' ↔ 48 ≤ ch.toNat ∧ ch.toNat ≤ 57 := Iff.rfl
  have hupper : 'A' ≤ ch ∧ ch ≤ 'Z' ↔ 65 ≤ ch.toNat ∧ ch.toNat ≤ 90 := Iff.rfl
  have hlower : 'a' ≤ ch ∧ ch ≤ 'z' ↔ 97 ≤ ch.toNat ∧ ch.toNat ≤ 122 := Iff.rfl
  simp only [isNameChar, Bool.or_eq_true, Bool.and_eq_true, decide_eq_true_eq, hdigit, hupper, hlower]
  rw [isAlphanum_iff, isAlpha_iff, isUpper_iff, isLower_iff, isDigit_iff_toNat]
  omega

/-! ## Words -/

namespace Dot

/-- A word that needs no quotes, unless it is reserved. -/
structure IsWord (word : List Char) : Prop where
  ne_nil : word ≠ []
  chars : ∀ ch ∈ word, ch.isAlphanum ∨ ch = '_'
  start : ∀ ch ∈ word.head?, ¬ ch.isDigit

/-- The words that DOT reserves, in small letters. -/
def reservedWords : List String := ["node", "edge", "graph", "digraph", "subgraph", "strict"]

/-- A word that is reserved, in whatever case its letters are. -/
def IsReserved (word : List Char) : Prop := word.map Char.toLower ∈ reservedWords.map String.toList

instance (word : List Char) : Decidable (IsReserved word) := inferInstanceAs (Decidable (_ ∈ _))

theorem IsReserved.isAlpha {word : List Char} (h : IsReserved word) : ∀ ch ∈ word, ch.isAlpha := by
  have hlower : (reservedWords.map String.toList).all (·.all Char.isLower) = true := by decide
  intro ch hch
  have hword := List.all_eq_true.mp hlower _ h
  exact isAlpha_of_isLower_toLower (List.all_eq_true.mp hword _ (List.mem_map_of_mem hch))

theorem IsReserved.ne_nil {word : List Char} (h : IsReserved word) : word ≠ [] := by
  rintro rfl
  exact absurd h (by decide)

end Dot

/-! ## Names -/

/-- The last component of a path without its extension. There is none where it leads to a directory. -/
def stemOf (path : List Char) : List Char := ((PathText.fileName? path).map PathText.stem).getD []

/-- A text with an underscore for everything that has no place in a name. -/
def cleaned (text : List Char) : List Char := text.map fun ch => if isNameChar ch then ch else '_'

theorem graphName_eq (path : List Char) : graphName path = leadWithLetter (cleaned (stemOf path)) :=
  rfl

theorem cleaned_of_isNameChar {text : List Char} (h : ∀ ch ∈ text, isNameChar ch) :
    cleaned text = text := by
  calc cleaned text = text.map id := List.map_congr_left fun ch hch => if_pos (h ch hch)
    _ = text := List.map_id text

/-- Only a character that stands in a name as it is becomes a letter. -/
theorem isNameChar_of_cleaned {text : List Char} (h : ∀ ch ∈ cleaned text, ch.isAlpha) :
    ∀ ch ∈ text, isNameChar ch := by
  intro ch hch
  have hletter := h _ (List.mem_map_of_mem hch)
  by_cases hname : isNameChar ch
  · exact hname
  · rw [if_neg hname] at hletter
    cases hletter

/-- A name gets a letter in front of it exactly where it has no first character that may be one. -/
theorem leadWithLetter_cases (name : List Char) :
    (leadWithLetter name = name ∧ name ≠ [] ∧ ∀ ch ∈ name.head?, ¬ ch.isDigit) ∨
      (leadWithLetter name = 'g' :: name ∧ ∀ ch ∈ name.head?, ch.isDigit) := by
  cases name with
  | nil => exact .inr ⟨rfl, nofun⟩
  | cons ch rest =>
    have hiff : ch.isDigit ↔ '0' ≤ ch ∧ ch ≤ '9' := isDigit_iff_toNat
    by_cases hdigit : '0' ≤ ch ∧ ch ≤ '9'
    · exact .inr ⟨if_pos hdigit, by simpa using hiff.mpr hdigit⟩
    · exact .inl ⟨if_neg hdigit, by simp, by simpa [← hiff] using hdigit⟩

/-- **Every path gives a word.** -/
theorem isWord_graphName (path : List Char) : Dot.IsWord (graphName path) := by
  have hcleaned : ∀ ch ∈ cleaned (stemOf path), ch.isAlphanum ∨ ch = '_' := by
    intro ch hch
    obtain ⟨ch, -, rfl⟩ := List.mem_map.mp hch
    by_cases hname : isNameChar ch
    · exact .inl (by rwa [if_pos hname, ← isNameChar_iff])
    · exact .inr (if_neg hname)
  rw [graphName_eq]
  obtain ⟨heq, hne, hstart⟩ | ⟨heq, -⟩ := leadWithLetter_cases (cleaned (stemOf path))
  · rw [heq]
    exact ⟨hne, hcleaned, hstart⟩
  · rw [heq]
    refine ⟨nofun, fun ch hch => ?_, by simp⟩
    obtain rfl | hch := List.mem_cons.mp hch
    · exact .inl (by decide)
    · exact hcleaned ch hch

/-- A name that is reserved is the stem itself: nothing was replaced in it, and nothing put in front. -/
theorem graphName_of_isReserved {path : List Char} (h : Dot.IsReserved (graphName path)) :
    graphName path = stemOf path := by
  have halpha := h.isAlpha
  rw [graphName_eq] at h halpha ⊢
  obtain ⟨heq, -, -⟩ | ⟨heq, hdigit⟩ := leadWithLetter_cases (cleaned (stemOf path))
  · rw [heq] at halpha ⊢
    exact cleaned_of_isNameChar (isNameChar_of_cleaned halpha)
  · rw [heq] at h halpha
    cases hname : cleaned (stemOf path) with
    | nil =>
      rw [hname] at h
      exact absurd h (by decide)
    | cons ch rest =>
      rw [hname] at halpha hdigit
      exact absurd (hdigit ch rfl) (not_isDigit_of_isAlpha (halpha ch (by simp)))

/-- **A name is reserved exactly where the stem of the path is,** in whatever case its letters are. -/
theorem isReserved_graphName_iff (path : List Char) :
    Dot.IsReserved (graphName path) ↔ Dot.IsReserved (stemOf path) := by
  constructor
  · intro h
    rwa [graphName_of_isReserved h] at h
  · intro h
    have hsame : cleaned (stemOf path) = stemOf path := cleaned_of_isNameChar fun ch hch =>
      isNameChar_iff.mpr (isAlphanum_iff.mpr (.inl (h.isAlpha ch hch)))
    rw [graphName_eq, hsame]
    obtain ⟨heq, -, -⟩ | ⟨-, hdigit⟩ := leadWithLetter_cases (stemOf path)
    · rwa [heq]
    · cases hstem : stemOf path with
      | nil => exact absurd hstem h.ne_nil
      | cons ch rest =>
        rw [hstem] at h hdigit
        exact absurd (hdigit ch rfl) (not_isDigit_of_isAlpha (h.isAlpha ch (by simp)))

/-- **The source of a diagram starts with a name that is a word,** and the name is a reserved word exactly
where the last component of the path, without its extension, is one. -/
theorem RenderConfig.source_named {σ : Type} [StateSet σ] (config : RenderConfig) (table : Table σ) :
    ∃ name body, config.source table = "digraph ".toList ++ name ++ " \x7b\n".toList ++ body ∧
      Dot.IsWord name ∧
      (Dot.IsReserved name ↔ Dot.IsReserved (stemOf config.outputStem.toList)) :=
  ⟨graphName config.outputStem.toList, _, rfl, isWord_graphName _, isReserved_graphName_iff _⟩

/-- A diagram in a file that is called `graph` has a reserved name, and so does one in `out/Node.gv`. -/
theorem RenderConfig.source_reserved :
    (∃ body, (⟨"graph", "png", false, "dot"⟩ : RenderConfig).source Amount.table
        = "digraph graph \x7b\n".toList ++ body) ∧ Dot.IsReserved "graph".toList ∧
      (∃ body, (⟨"out/Node.gv", "png", false, "dot"⟩ : RenderConfig).source Amount.table
        = "digraph Node \x7b\n".toList ++ body) ∧ Dot.IsReserved "Node".toList :=
  ⟨⟨_, rfl⟩, by decide, ⟨_, rfl⟩, by decide⟩

end AmountWalk
