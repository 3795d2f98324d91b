import AmountWalk.Proofs.Amount.Printed
import AmountWalk.Proofs.Filter.Points

/-!
# Amounts pass the filter

The filter looks at a text without the automaton. It accepts every text that a walk prints.
-/

namespace AmountWalk

/-- The fraction of a text with one point is what stands behind it. -/
theorem fraction?_append {front back : List Char} (hfront : '.' ∉ front) (hback : '.' ∉ back) :
    fraction? (front ++ '.' :: back) = some back := by
  have hcut : CutAtPoint front back (front ++ '.' :: back) := ⟨hfront, rfl⟩
  exact hcut.fraction?_eq_some_iff.mpr (Or.inl ⟨hback, rfl⟩)

/-- What the filter asks of a text that does not start with a dollar sign. -/
theorem isWellFormed_of_ne {ch : Char} {rest : List Char} (h : ch ≠ '$') :
    isWellFormed (ch :: rest)
      = ((ch :: rest).getLast? == some 'c'
          && ((ch :: rest).length == 2 || (ch :: rest).length == 3)) := by
  unfold isWellFormed
  split
  · next heq => exact absurd (List.cons.inj heq).1 h
  · rfl

namespace Amount

/-- **Every text that a walk prints passes the filter.** -/
theorem Printed.isWellFormed {text : List Char} (h : Printed text) :
    AmountWalk.isWellFormed text = true := by
  cases h with
  | @fraction a b ha hb =>
    have ha' : a ≠ '.' := ha.ne (by decide)
    have hb' : b ≠ '.' := hb.ne (by decide)
    simp [AmountWalk.isWellFormed, fraction?, ha', hb']
  | @whole number hnumber =>
    have hpoint : '.' ∉ '$' :: number := by
      cases hnumber with
      | cons hfirst hrest =>
        intro hmem
        rcases List.mem_cons.mp hmem with heq | hmem
        · cases heq
        · rcases List.mem_cons.mp hmem with rfl | hmem
          · exact hfirst.isDigit.ne (by decide) rfl
          · exact (hrest _ hmem).ne (by decide) rfl
    show (fraction? ('$' :: number)).all _ = true
    rw [fraction?_eq_none hpoint]
    rfl
  | cent ha => rw [isWellFormed_of_ne (ha.isDigit.ne (by decide))]; rfl
  | cents ha hb => rw [isWellFormed_of_ne (ha.isDigit.ne (by decide))]; rfl

end Amount

end AmountWalk
