import AmountWalk.WellFormed
import Mathlib.Data.List.TakeWhile

/-!
# What the filter makes of points

The format asks dollars for no point, or for exactly two characters behind the first one, up to the
end of the text. The filter asks for two characters up to the next point, and what stands behind
that one it does not look at.

So the two agree on every text with one point at most. Of dollars with more points the filter passes
some that the format refuses (`$0.12.3`) and drops some that the format allows (`$0.1.`).

## The first point

Both rules speak of the first point of a text. `CutAtPoint` names the parts on its two sides, of
which there is only one choice. `Piece` names what stands in front of the first point or, if there
is none, the whole text.
-/

namespace AmountWalk

variable {text front back piece : List Char}

/-! ## The first point -/

/-- The first point of the text stands between these parts. -/
structure CutAtPoint (front back text : List Char) : Prop where
  notMem : '.' ∉ front
  eq : text = front ++ '.' :: back

theorem exists_cutAtPoint (h : '.' ∈ text) : ∃ front back, CutAtPoint front back text := by
  obtain ⟨front, back, rfl, hfront⟩ := List.eq_append_cons_of_mem h
  exact ⟨front, back, hfront, rfl⟩

theorem ne_point_of_notMem (h : '.' ∉ text) : ∀ ch ∈ text, (ch != '.') = true := by
  intro ch hmem
  rw [bne_iff_ne]
  rintro rfl
  exact h hmem

theorem CutAtPoint.takeWhile_eq (h : CutAtPoint front back text) :
    text.takeWhile (· != '.') = front := by
  rw [h.eq, List.takeWhile_append_of_pos (ne_point_of_notMem h.notMem)]
  exact List.append_nil front

theorem CutAtPoint.dropWhile_eq (h : CutAtPoint front back text) :
    text.dropWhile (· != '.') = '.' :: back := by
  rw [h.eq, List.dropWhile_append_of_pos (ne_point_of_notMem h.notMem)]
  rfl

/-- There is only one first point. -/
theorem CutAtPoint.back_unique {front' back' : List Char} (h : CutAtPoint front back text)
    (h' : CutAtPoint front' back' text) : back = back' := by
  have hdrop := h.dropWhile_eq
  rw [h'.dropWhile_eq] at hdrop
  exact (List.cons.inj hdrop).2.symm

/-! ## What stands in front of it -/

/-- What stands in front of the first point, or the whole text if there is none. -/
def Piece (piece text : List Char) : Prop :=
  '.' ∉ text ∧ piece = text ∨ ∃ later, CutAtPoint piece later text

theorem piece_iff : Piece piece text ↔ piece = text.takeWhile (· != '.') := by
  by_cases hpoint : '.' ∈ text
  · obtain ⟨front, back, hcut⟩ := exists_cutAtPoint hpoint
    rw [hcut.takeWhile_eq]
    constructor
    · rintro (⟨hnone, -⟩ | ⟨later, hcut'⟩)
      · exact absurd hpoint hnone
      · rw [← hcut'.takeWhile_eq, hcut.takeWhile_eq]
    · rintro rfl
      exact Or.inr ⟨back, hcut⟩
  · rw [List.takeWhile_eq_self_iff.mpr (ne_point_of_notMem hpoint)]
    constructor
    · rintro (⟨-, rfl⟩ | ⟨later, hcut⟩)
      · rfl
      · exact absurd (by rw [hcut.eq]; simp) hpoint
    · rintro rfl
      exact Or.inl ⟨hpoint, rfl⟩

/-! ## The fraction -/

/-- A text without a point has no fraction. -/
theorem fraction?_eq_none (h : '.' ∉ text) : fraction? text = none := by
  rw [fraction?, List.dropWhile_eq_nil_iff.mpr (ne_point_of_notMem h)]

/-- The fraction stands behind the first point, up to the next one. -/
theorem CutAtPoint.fraction?_eq_some_iff (h : CutAtPoint front back text) :
    fraction? text = some piece ↔ Piece piece back := by
  rw [piece_iff, fraction?, h.dropWhile_eq]
  exact Option.some_inj.trans eq_comm

/-! ## Two rules -/

/-- Two or three characters, the last of which is `c`. -/
def IsCents (text : List Char) : Prop :=
  text.getLast? = some 'c' ∧ (text.length = 2 ∨ text.length = 3)

/-- A rule for amounts that leaves open what may stand behind the first point of dollars. -/
def Judged (fits : List Char → Prop) (text : List Char) : Prop :=
  text.head? = some '$' ∧ ('.' ∉ text ∨ ∃ front back, CutAtPoint front back text ∧ fits back) ∨
    text.head? ≠ some '$' ∧ IsCents text

/-- The rule of the format: two characters stand behind the first point. -/
def MeetsRule : List Char → Prop :=
  Judged fun back => back.length = 2

/-- The rule of the filter: two characters stand between the first point and the next. -/
def Passes : List Char → Prop :=
  Judged fun back => ∃ piece, Piece piece back ∧ piece.length = 2

section Judged

variable {fits : List Char → Prop}

theorem judged_of_notMem (hdollar : text.head? = some '$') (h : '.' ∉ text) :
    Judged fits text :=
  Or.inl ⟨hdollar, Or.inl h⟩

theorem judged_of_cutAtPoint (hdollar : text.head? = some '$') (h : CutAtPoint front back text) :
    Judged fits text ↔ fits back := by
  constructor
  · rintro (⟨-, hnone | ⟨front', back', hcut, hfits⟩⟩ | ⟨hother, -⟩)
    · exact absurd (by rw [h.eq]; simp) hnone
    · rw [h.back_unique hcut]
      exact hfits
    · exact absurd hdollar hother
  · intro hfits
    exact Or.inl ⟨hdollar, Or.inr ⟨front, back, h, hfits⟩⟩

theorem judged_of_ne (h : text.head? ≠ some '$') : Judged fits text ↔ IsCents text := by
  constructor
  · rintro (⟨hdollar, -⟩ | ⟨-, hcents⟩)
    · exact absurd hdollar h
    · exact hcents
  · intro hcents
    exact Or.inr ⟨h, hcents⟩

end Judged

/-! ## The filter -/

theorem isWellFormed_of_head? (h : text.head? = some '$') :
    isWellFormed text = (fraction? text).all (·.length == 2) := by
  obtain ⟨rest, rfl⟩ := List.head?_eq_some_iff.mp h
  rfl

theorem isWellFormed_iff_isCents (h : text.head? ≠ some '$') :
    isWellFormed text = true ↔ IsCents text := by
  unfold isWellFormed IsCents
  split
  · next rest => exact absurd rfl h
  · simp

/-- **The filter applies its rule** to every text. -/
theorem isWellFormed_iff_passes : isWellFormed text = true ↔ Passes text := by
  by_cases hdollar : text.head? = some '$'
  · rw [isWellFormed_of_head? hdollar]
    by_cases hpoint : '.' ∈ text
    · obtain ⟨front, back, hcut⟩ := exists_cutAtPoint hpoint
      rw [Passes, judged_of_cutAtPoint hdollar hcut]
      cases hfraction : fraction? text with
      | none =>
        rw [fraction?, hcut.dropWhile_eq] at hfraction
        cases hfraction
      | some piece =>
        have hpiece := hcut.fraction?_eq_some_iff.mp hfraction
        constructor
        · intro htwo
          exact ⟨piece, hpiece, by simpa using htwo⟩
        · rintro ⟨piece', hpiece', htwo⟩
          rw [piece_iff.mp hpiece'] at htwo
          rw [piece_iff.mp hpiece]
          simpa using htwo
    · rw [fraction?_eq_none hpoint]
      exact iff_of_true rfl (judged_of_notMem hdollar hpoint)
  · rw [isWellFormed_iff_isCents hdollar]
    exact (judged_of_ne hdollar).symm

/-! ## Where the rules part -/

/-- Dollars with a second point: what stands before, between and behind the first two. -/
structure TwoPoints (front piece later text : List Char) : Prop where
  dollar : text.head? = some '$'
  first : CutAtPoint front (piece ++ '.' :: later) text
  second : '.' ∉ piece

theorem TwoPoints.passes_iff {later : List Char} (h : TwoPoints front piece later text) :
    Passes text ↔ piece.length = 2 := by
  have hcut : CutAtPoint piece later (piece ++ '.' :: later) := ⟨h.second, rfl⟩
  rw [Passes, judged_of_cutAtPoint h.dollar h.first]
  constructor
  · rintro ⟨piece', hpiece, htwo⟩
    rw [piece_iff, hcut.takeWhile_eq] at hpiece
    rwa [← hpiece]
  · intro htwo
    exact ⟨piece, Or.inr ⟨later, hcut⟩, htwo⟩

theorem TwoPoints.meetsRule_iff {later : List Char} (h : TwoPoints front piece later text) :
    MeetsRule text ↔ piece.length + later.length = 1 := by
  rw [MeetsRule, judged_of_cutAtPoint h.dollar h.first, List.length_append, List.length_cons]
  omega

theorem TwoPoints.one_lt_count {later : List Char} (h : TwoPoints front piece later text) :
    1 < text.count '.' := by
  rw [h.first.eq]
  simp only [List.count_append, List.count_cons_self]
  omega

/-- A text without a second point is judged the same by both rules. -/
theorem passes_iff_meetsRule (h : ¬ ∃ front piece later, TwoPoints front piece later text) :
    Passes text ↔ MeetsRule text := by
  by_cases hdollar : text.head? = some '$'
  · by_cases hpoint : '.' ∈ text
    · obtain ⟨front, back, hcut⟩ := exists_cutAtPoint hpoint
      have hback : '.' ∉ back := by
        intro hmem
        obtain ⟨piece, later, hpiece⟩ := exists_cutAtPoint hmem
        obtain ⟨hsecond, rfl⟩ := hpiece
        exact h ⟨front, piece, later, hdollar, hcut, hsecond⟩
      rw [Passes, MeetsRule, judged_of_cutAtPoint hdollar hcut, judged_of_cutAtPoint hdollar hcut]
      constructor
      · rintro ⟨piece, ⟨-, rfl⟩ | ⟨later, hpiece⟩, htwo⟩
        · exact htwo
        · exact absurd (by rw [hpiece.eq]; simp) hback
      · intro htwo
        exact ⟨back, Or.inl ⟨hback, rfl⟩, htwo⟩
    · exact iff_of_true (judged_of_notMem hdollar hpoint) (judged_of_notMem hdollar hpoint)
  · rw [Passes, MeetsRule, judged_of_ne hdollar, judged_of_ne hdollar]

theorem exists_twoPoints_of_not_iff (h : ¬ (Passes text ↔ MeetsRule text)) :
    ∃ front piece later, TwoPoints front piece later text := by
  by_contra hnone
  exact h (passes_iff_meetsRule hnone)

/-- **What the filter passes, and where it departs from the format.** It stops at the second point.
So it passes too much when two characters stand between the first two points, and too little when
two characters stand behind the first point and one of them is a point. All other texts it judges
as the format does, among them every text with one point at most. -/
theorem isWellFormed_verdict (text : List Char) :
    (isWellFormed text = true ↔ Passes text) ∧
    (isWellFormed text = true ∧ ¬ MeetsRule text ↔
      ∃ front piece later, TwoPoints front piece later text ∧ piece.length = 2) ∧
    (isWellFormed text = false ∧ MeetsRule text ↔
      ∃ front piece later, TwoPoints front piece later text ∧ piece.length + later.length = 1) ∧
    (text.count '.' ≤ 1 → (isWellFormed text = true ↔ MeetsRule text)) := by
  rw [← Bool.not_eq_true, isWellFormed_iff_passes]
  refine ⟨Iff.rfl, ?tooMuch, ?tooLittle, ?onePoint⟩
  case tooMuch =>
    constructor
    · rintro ⟨hpasses, hnot⟩
      obtain ⟨front, piece, later, h⟩ :=
        exists_twoPoints_of_not_iff fun hsame => hnot (hsame.mp hpasses)
      exact ⟨front, piece, later, h, h.passes_iff.mp hpasses⟩
    · rintro ⟨front, piece, later, h, htwo⟩
      refine ⟨h.passes_iff.mpr htwo, fun hmeets => ?_⟩
      have hone := h.meetsRule_iff.mp hmeets
      omega
  case tooLittle =>
    constructor
    · rintro ⟨hnot, hmeets⟩
      obtain ⟨front, piece, later, h⟩ :=
        exists_twoPoints_of_not_iff fun hsame => hnot (hsame.mpr hmeets)
      exact ⟨front, piece, later, h, h.meetsRule_iff.mp hmeets⟩
    · rintro ⟨front, piece, later, h, hone⟩
      refine ⟨fun hpasses => ?_, h.meetsRule_iff.mpr hone⟩
      have htwo := h.passes_iff.mp hpasses
      omega
  case onePoint =>
    intro hcount
    refine passes_iff_meetsRule ?_
    rintro ⟨front, piece, later, h⟩
    exact absurd h.one_lt_count (Nat.not_lt.mpr hcount)

/-- **The filter does not apply the rule of the format.** It passes `$0.12.3`, which has four
characters behind its first point, and drops `$0.1.`, which has two. -/
theorem secondPoint_misjudged :
    (isWellFormed "$0.12.3".toList = true ∧ ¬ MeetsRule "$0.12.3".toList) ∧
      isWellFormed "$0.1.".toList = false ∧ MeetsRule "$0.1.".toList := by
  have htooMuch : TwoPoints "$0".toList "12".toList "3".toList "$0.12.3".toList :=
    ⟨rfl, ⟨by decide, rfl⟩, by decide⟩
  have htooLittle : TwoPoints "$0".toList "1".toList [] "$0.1.".toList :=
    ⟨rfl, ⟨by decide, rfl⟩, by decide⟩
  refine ⟨⟨by decide, ?_⟩, by decide, htooLittle.meetsRule_iff.mpr (by decide)⟩
  rw [htooMuch.meetsRule_iff]
  decide

end AmountWalk
