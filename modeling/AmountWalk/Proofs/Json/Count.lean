import AmountWalk.Proofs.Json.Frame

/-!
# Counts are read back

The decimal digits of a number below 2 ^ 64 are a numeral that writes this number, and all of it is
read as long as nothing behind it prolongs it. Such a numeral is never out of range: the significand
takes all its digits, and rounding to double precision at most doubles it.
-/

namespace AmountWalk.Json

/-! ## Digits -/

theorem isDigit_ofNat {d : Nat} (h : d < 10) : isDigit (Char.ofNat ('0'.toNat + d)) = true := by
  have hall : ∀ d < 10, isDigit (Char.ofNat ('0'.toNat + d)) = true := by decide
  exact hall d h

theorem digitOf_ofNat {d : Nat} (h : d < 10) : digitOf (Char.ofNat ('0'.toNat + d)) = d := by
  have hall : ∀ d < 10, digitOf (Char.ofNat ('0'.toNat + d)) = d := by decide
  exact hall d h

theorem natOfDigits_concat (digits : List Char) (ch : Char) :
    natOfDigits (digits ++ [ch]) = natOfDigits digits * 10 + digitOf ch := by
  simp [natOfDigits]

/-- The digits of a number write that number. -/
theorem natOfDigits_writeNat (n : Nat) : natOfDigits (writeNat n) = n := by
  induction n using writeNat.induct with
  | case1 n hlt =>
    rw [writeNat, if_pos hlt]
    have hvalue := natOfDigits_concat [] (Char.ofNat ('0'.toNat + n))
    rw [digitOf_ofNat hlt] at hvalue
    simpa [natOfDigits] using hvalue
  | case2 n hge ih =>
    rw [writeNat, if_neg hge, natOfDigits_concat, ih, digitOf_ofNat (Nat.mod_lt n (by decide))]
    omega

theorem isDigit_of_mem_writeNat {n : Nat} : ∀ ch ∈ writeNat n, isDigit ch = true := by
  induction n using writeNat.induct with
  | case1 n hlt =>
    rw [writeNat, if_pos hlt]
    intro ch hmem
    rw [List.mem_singleton.mp hmem]
    exact isDigit_ofNat hlt
  | case2 n hge ih =>
    rw [writeNat, if_neg hge]
    intro ch hmem
    rcases List.mem_append.mp hmem with hmem | hmem
    · exact ih ch hmem
    · rw [List.mem_singleton.mp hmem]
      exact isDigit_ofNat (Nat.mod_lt n (by decide))

/-- A number above zero has a first digit other than zero. -/
theorem exists_writeNat_eq_cons_of_pos {n : Nat} (hn : 0 < n) :
    ∃ ch rest, writeNat n = ch :: rest ∧ ch ≠ '0' := by
  induction n using writeNat.induct with
  | case1 n hlt =>
    rw [writeNat, if_pos hlt]
    refine ⟨_, [], rfl, ?_⟩
    have hall : ∀ d < 10, 0 < d → Char.ofNat ('0'.toNat + d) ≠ '0' := by decide
    exact hall n hlt hn
  | case2 n hge ih =>
    obtain ⟨ch, rest, heq, hne⟩ := ih (by omega)
    rw [writeNat, if_neg hge, heq]
    exact ⟨ch, _, rfl, hne⟩

/-- A number has a first digit, and behind a zero there is none. -/
theorem exists_writeNat_eq_cons (n : Nat) :
    ∃ ch rest, writeNat n = ch :: rest ∧ (ch = '0' → rest = []) := by
  rcases Nat.eq_zero_or_pos n with rfl | hn
  · exact ⟨'0', [], by rw [writeNat]; rfl, fun _ => rfl⟩
  · obtain ⟨ch, rest, heq, hne⟩ := exists_writeNat_eq_cons_of_pos hn
    exact ⟨ch, rest, heq, fun h => absurd h hne⟩

/-! ## Reading the digits -/

namespace Numeral

variable {rest : List Char}

theorem not_isDigit_of_ends {ch : Char} (h : Ends (ch :: rest)) : isDigit ch = false := by
  have hch := h ch rfl
  simp only [prolongs, Bool.or_eq_false_iff] at hch
  exact hch.1.1.1

/-- All digits are read when none follows. -/
theorem readDigits_append {digits : List Char} (hne : digits ≠ [])
    (hdigits : ∀ ch ∈ digits, isDigit ch = true) (hends : Ends rest) :
    readDigits (digits ++ rest) = .ok (digits, rest) := by
  obtain ⟨ch, digits, rfl⟩ := List.exists_cons_of_ne_nil hne
  have hfirst : isDigit ch = true := hdigits ch List.mem_cons_self
  have hmore : ∀ ch ∈ digits, isDigit ch = true :=
    fun ch hmem => hdigits ch (List.mem_cons_of_mem _ hmem)
  have hstop : rest.takeWhile isDigit = [] ∧ rest.dropWhile isDigit = rest := by
    cases rest with
    | nil => exact ⟨rfl, rfl⟩
    | cons ch rest => simp [not_isDigit_of_ends hends]
  rw [List.cons_append, readDigits, if_pos hfirst, List.takeWhile_append_of_pos hmore,
    List.dropWhile_append_of_pos hmore, hstop.1, hstop.2, List.append_nil]

theorem readWhole_writeNat (n : Nat) (hends : Ends rest) :
    readWhole (writeNat n ++ rest) = .ok (writeNat n, rest) := by
  obtain ⟨ch, digits, heq, hzero⟩ := exists_writeNat_eq_cons n
  have hread : readDigits (writeNat n ++ rest) = .ok (writeNat n, rest) :=
    readDigits_append (by rw [heq]; exact List.cons_ne_nil _ _) isDigit_of_mem_writeNat hends
  rw [readWhole, hread, heq]
  split
  · rename_i hmatch
    simp only [Except.ok.injEq, Prod.mk.injEq, List.cons.injEq] at hmatch
    obtain ⟨⟨hch, hdigits⟩, -⟩ := hmatch
    rw [hzero hch] at hdigits
    cases hdigits
  · rfl

theorem readFraction_of_ends (h : Ends rest) : readFraction rest = .ok ([], rest) := by
  unfold readFraction
  split
  · exact absurd (h '.' rfl) (by decide)
  · rfl

theorem readExponent_of_ends (h : Ends rest) : readExponent rest = .ok (none, rest) := by
  cases rest with
  | nil => rfl
  | cons ch rest =>
    have hmark : ¬(ch = 'e' ∨ ch = 'E') := by
      rintro (rfl | rfl)
      · exact absurd (h 'e' rfl) (by decide)
      · exact absurd (h 'E' rfl) (by decide)
    exact if_neg hmark

/-- The digits of a number are read as a numeral without sign, fraction and exponent. -/
theorem read_writeNat (n : Nat) (hends : Ends rest) :
    read false (writeNat n ++ rest) = .ok (⟨false, writeNat n, [], none⟩, rest) := by
  rw [read, readWhole_writeNat n hends]
  simp only [readFraction_of_ends hends, readExponent_of_ends hends]

/-! ## Range -/

/-- The number that further digits make of a number is not smaller. -/
theorem le_foldl_digits (digits : List Char) (n : Nat) :
    n ≤ digits.foldl (fun n ch => n * 10 + digitOf ch) n := by
  induction digits generalizing n with
  | nil => exact Nat.le_refl n
  | cons ch digits ih => exact Nat.le_trans (by omega) (ih (n * 10 + digitOf ch))

/-- All digits are absorbed when the number that they write stays below the bound. -/
theorem absorb_eq (digits : List Char) (significand : Nat)
    (h : digits.foldl (fun n ch => n * 10 + digitOf ch) significand < countBound) :
    absorb significand digits
      = (digits.foldl (fun n ch => n * 10 + digitOf ch) significand, 0) := by
  induction digits generalizing significand with
  | nil => rfl
  | cons ch digits ih =>
    rw [List.foldl_cons] at h
    have hnext : significand * 10 + digitOf ch < countBound :=
      Nat.lt_of_le_of_lt (le_foldl_digits digits _) h
    rw [absorb, if_pos hnext, ih _ h]
    rfl

/-- Rounding at most doubles a number. -/
theorem roundToDouble_le {n : Nat} (h : n ≠ 0) : roundToDouble n ≤ 2 * n := by
  have hunit : Nat.pow 2 (n.log2 - 52) ≤ n := by
    calc Nat.pow 2 (n.log2 - 52)
        ≤ Nat.pow 2 n.log2 := Nat.pow_le_pow_right (by decide) (Nat.sub_le _ _)
      _ ≤ n := Nat.log2_self_le h
  have hquotient : n / Nat.pow 2 (n.log2 - 52) * Nat.pow 2 (n.log2 - 52) ≤ n :=
    Nat.div_mul_le_self n _
  unfold roundToDouble
  dsimp only
  split
  · omega
  · rw [Nat.add_mul]
    omega

theorem exceedsRange_writeNat {n : Nat} (h : n < countBound) :
    exceedsRange ⟨false, writeNat n, [], none⟩ = false := by
  have hvalue : (writeNat n).foldl (fun n ch => n * 10 + digitOf ch) 0 = n :=
    natOfDigits_writeNat n
  have habsorb : absorb 0 (writeNat n) = (n, 0) := by
    rw [absorb_eq _ _ (by rw [hvalue]; exact h), hvalue]
  unfold exceedsRange
  simp only [habsorb, absorb]
  by_cases hzero : n = 0
  · simp [hzero]
  · have hround : roundToDouble n < infinityBound :=
      calc roundToDouble n ≤ 2 * n := roundToDouble_le hzero
        _ < 2 * countBound := by omega
        _ ≤ infinityBound := by decide +kernel
    have hone : roundToDouble 1 = 1 := by decide
    simp [hzero, hone, hround]

end Numeral

/-- **A count is read back from its digits.** -/
theorem readNumeral_writeNat (n : UInt64) {rest : List Char} (hends : Ends rest) :
    readNumeral false (writeNat n.toNat ++ rest)
        = .ok (⟨false, writeNat n.toNat, [], none⟩, rest) := by
  rw [readNumeral, Numeral.read_writeNat n.toNat hends]
  simp only [Numeral.exceedsRange_writeNat n.toNat_lt]
  rfl

theorem count?_writeNat (n : UInt64) :
    Numeral.count? ⟨false, writeNat n.toNat, [], none⟩ = some n := by
  have hlt : n.toNat < Numeral.countBound := n.toNat_lt
  simp [Numeral.count?, natOfDigits_writeNat, hlt]

end AmountWalk.Json
