import AmountWalk.Proofs.Json.Denotes

/-!
# Texts that are cut

A text is cut when something is missing at its end. Where a text is put together from pieces, a cut
goes through one of them, and the pieces in front of that are whole (`isCut_append`). So it is enough
to say of each piece what a reader makes of the front of it.

Nearly always the front of a piece is a text that ends too early (`Breaks`). The exception are
numbers: the front of a number is a number, so its cut is noticed by whoever reads on behind it, and
finds nothing there (`Starves`).

The loops over items and members come to the piece that is cut, since those before it are read as
ever. Then they are out of text (`readItems_cut`, `readMembers_cut`).
-/

namespace AmountWalk.Json

/-! ## Cuts -/

/-- The text without its end. All of it may be missing, but not nothing. -/
def IsCut (front text : List Char) : Prop := ∃ back, back ≠ [] ∧ text = front ++ back

variable {front text other blanks : List Char}

theorem not_isCut_nil : ¬ IsCut front [] := by
  rintro ⟨back, hback, hnil⟩
  exact hback (List.append_eq_nil_iff.mp hnil.symm).2

theorem isCut_cons {ch : Char} (h : IsCut front (ch :: text)) :
    front = [] ∨ ∃ rest, front = ch :: rest ∧ IsCut rest text := by
  obtain ⟨back, hback, heq⟩ := h
  cases front with
  | nil => exact Or.inl rfl
  | cons head rest =>
    obtain ⟨rfl, htext⟩ := List.cons.inj heq
    exact Or.inr ⟨rest, rfl, back, hback, htext⟩

theorem IsCut.cons (h : IsCut front text) (ch : Char) : IsCut (ch :: front) (ch :: text) := by
  obtain ⟨back, hback, rfl⟩ := h
  exact ⟨back, hback, rfl⟩

/-- Only the empty text is a character that is cut. -/
theorem isCut_singleton {ch : Char} (h : IsCut front [ch]) : front = [] := by
  rcases isCut_cons h with hnil | ⟨rest, -, hrest⟩
  · exact hnil
  · exact absurd hrest not_isCut_nil

/-- **A cut goes through one of two pieces.** -/
theorem isCut_append (h : IsCut front (text ++ other)) :
    IsCut front text ∨ ∃ rest, front = text ++ rest ∧ IsCut rest other := by
  induction text generalizing front with
  | nil => exact Or.inr ⟨front, rfl, h⟩
  | cons ch text ih =>
    rcases isCut_cons h with rfl | ⟨rest, rfl, hrest⟩
    · exact Or.inl ⟨ch :: text, List.cons_ne_nil ch text, rfl⟩
    · rcases ih hrest with ⟨back, hback, rfl⟩ | ⟨last, rfl, hlast⟩
      · exact Or.inl ⟨back, hback, rfl⟩
      · exact Or.inr ⟨last, rfl, hlast⟩

theorem Blanks.of_isCut (hblanks : Blanks blanks) (h : IsCut front blanks) : Blanks front := by
  obtain ⟨back, -, rfl⟩ := h
  exact fun ch hmem => hblanks ch (List.mem_append_left back hmem)

/-- Behind blanks and a character, a cut leaves blanks only, or also the character. -/
theorem isCut_blanks_append_cons {ch : Char} (hblanks : Blanks blanks)
    (h : IsCut front (blanks ++ ch :: text)) :
    Blanks front ∨ ∃ rest, front = blanks ++ ch :: rest ∧ IsCut rest text := by
  rcases isCut_append h with hcut | ⟨rest, rfl, hrest⟩
  · exact Or.inl (hblanks.of_isCut hcut)
  · rcases isCut_cons hrest with rfl | ⟨last, rfl, hlast⟩
    · rw [List.append_nil]
      exact Or.inl hblanks
    · exact Or.inr ⟨last, rfl, hlast⟩

/-- All that can be left of blanks and a closing bracket are blanks. -/
theorem blanks_of_isCut {closing : Char} (hblanks : Blanks blanks)
    (h : IsCut front (blanks ++ [closing])) : Blanks front := by
  rcases isCut_blanks_append_cons hblanks h with hfront | ⟨rest, -, hrest⟩
  · exact hfront
  · exact absurd hrest not_isCut_nil

theorem Frame.blanks_of_isCut {closing : Char} {first : Bool} (h : Frame closing first [] text)
    (hcut : IsCut front text) : Blanks front := by
  cases h with
  | close hblanks => exact Json.blanks_of_isCut hblanks hcut

theorem IsCut.ends (h : IsCut front text) (htext : Ends text) : Ends front := by
  obtain ⟨back, -, rfl⟩ := h
  cases front with
  | nil => exact ends_nil
  | cons ch front => exact htext

/-! ## What readers make of the front of a piece -/

variable {α : Type}

/-- The front of the piece is a text that ends too early. -/
def Breaks (reader : Reader α) (piece : List Char) : Prop :=
  ∀ front, IsCut front piece → reader front = .error .cutShort

/-- The front of the piece ends too early, or it is taken for a piece behind which there is nothing. -/
def Starves (reader : Reader α) (piece : List Char) : Prop :=
  ∀ front, IsCut front piece →
    reader front = .error .cutShort ∨ ∃ value, reader front = .ok (value, [])

theorem Breaks.starves {reader : Reader α} {piece : List Char} (h : Breaks reader piece) :
    Starves reader piece :=
  fun front hcut => Or.inl (h front hcut)

/-- **Reading a piece out of a text that is cut** comes to one of three things: the text ends too
early, or nothing is left of it, or the piece was whole and what is left is cut. -/
theorem read_cut {reader : Reader α} {piece later : List Char} {value : α}
    (hread : ReadAs reader piece value) (hstarves : Starves reader piece) (hends : Ends later)
    (hcut : IsCut front (piece ++ later)) :
    reader front = .error .cutShort ∨ (∃ other, reader front = .ok (other, [])) ∨
      ∃ rest, IsCut rest later ∧ reader front = .ok (value, rest) := by
  rcases isCut_append hcut with hpiece | ⟨rest, rfl, hrest⟩
  · rcases hstarves front hpiece with hshort | hother
    · exact Or.inl hshort
    · exact Or.inr (Or.inl hother)
  · exact Or.inr (Or.inr ⟨rest, hrest, hread rest (hrest.ends hends)⟩)

theorem Frame.ends_self {closing : Char} {pieces : List (List Char)}
    (h : Frame closing false pieces text) (hclosing : IsClosing closing) : Ends text := by
  have hends := h.ends hclosing []
  rw [List.append_nil] at hends
  exact hends

/-! ## Words and strings -/

theorem readWord_cut {word : List Char} (h : IsCut front word) :
    readWord word front = .error .cutShort := by
  induction word generalizing front with
  | nil => exact absurd h not_isCut_nil
  | cons letter word ih =>
    rcases isCut_cons h with rfl | ⟨rest, rfl, hrest⟩
    · rfl
    · rw [readWord, if_pos (beq_self_eq_true letter)]
      exact ih hrest

/-- Only a flaw depends on the text behind a character of a string. -/
theorem stringStep_of_ok {mode : StringMode} {ch : Char} {rest : List Char} {step : StringStep}
    (h : stringStep mode ch rest = .ok step) (other : List Char) :
    stringStep mode ch other = .ok step := by
  cases mode with
  | plain => exact h
  | half first => exact h
  | escape first => exact h
  | unit first digits value =>
    unfold stringStep at h ⊢
    cases hvalue : hexValue? ch with
    | none =>
      rw [hvalue] at h
      cases h
    | some digit =>
      rw [hvalue] at h
      exact h

/-- A string that is the whole text ends too early without the end of the text, also where the cut goes
through an escape. -/
theorem readStringFrom_cut {mode : StringMode} {done back content : List Char}
    (h : readStringFrom mode done (front ++ back) = .ok (content, [])) (hback : back ≠ []) :
    readStringFrom mode done front = .error .cutShort := by
  -- Character by character, what was read as part of the string is still read as that.
  induction front generalizing mode done with
  | nil => rfl
  | cons ch front ih =>
    rw [List.cons_append, readStringFrom] at h
    cases hstep : stringStep mode ch (front ++ back) with
    | error flaw =>
      rw [hstep] at h
      cases h
    | ok step =>
      rw [hstep] at h
      rw [readStringFrom, stringStep_of_ok hstep front]
      cases step with
      | close =>
        cases front with
        | nil => exact absurd (Prod.mk.inj (Except.ok.inj h)).2 hback
        | cons _ _ => cases (Prod.mk.inj (Except.ok.inj h)).2
      | char plain => exact ih h
      | goto next => exact ih h

/-- **A string that is cut ends too early,** however it is written. -/
theorem Quotes.readString_cut {inner content : List Char} (h : Quotes ('"' :: inner) content)
    (hcut : IsCut front inner) : Json.readString front = .error .cutShort := by
  obtain ⟨other, heq, hread⟩ := h.readString
  cases heq
  obtain ⟨back, hback, rfl⟩ := hcut
  have hwhole := hread []
  rw [List.append_nil] at hwhole
  exact readStringFrom_cut hwhole hback

/-! ## Counts -/

/-- The front of the digits of a number is empty, or the digits of a number that is not greater. -/
theorem isCut_writeNat {n : Nat} (h : IsCut front (writeNat n)) :
    front = [] ∨ ∃ m ≤ n, front = writeNat m := by
  induction n using writeNat.induct generalizing front with
  | case1 n hlt =>
    rw [writeNat, if_pos hlt] at h
    exact Or.inl (isCut_singleton h)
  | case2 n hge ih =>
    rw [writeNat, if_neg hge] at h
    rcases isCut_append h with hcut | ⟨rest, rfl, hrest⟩
    · rcases ih hcut with hnil | ⟨m, hm, heq⟩
      · exact Or.inl hnil
      · exact Or.inr ⟨m, by omega, heq⟩
    · rw [isCut_singleton hrest, List.append_nil]
      exact Or.inr ⟨n / 10, by omega, rfl⟩

/-! ## Marks -/

theorem skipBlanks_blanks (h : Blanks blanks) : skipBlanks blanks = [] := by
  have hskip := skipBlanks_append h []
  rw [List.append_nil] at hskip
  exact hskip

theorem readMark_blanks (h : Blanks blanks) (mark : Char) :
    readMark mark blanks = .error .cutShort := by
  rw [readMark, skipBlanks_blanks h]

/-! ## Items -/

section Items

variable {first : Bool} {piece : List Char} {pieces : List (List Char)}

theorem readNextItem_blanks (h : Blanks blanks) (first : Bool) :
    readNextItem first blanks = .error .cutShort := by
  rw [readNextItem, skipBlanks_blanks h]

/-- In front of an item that is cut, the text may have ended. If not, the item is up. -/
theorem Frame.readNextItem_cut (h : Frame ']' first (piece :: pieces) text)
    (hpiece : StartsItem piece) (hcut : IsCut front text) :
    ∃ later, Frame ']' false pieces later ∧
      (readNextItem first front = .error .cutShort ∨
        ∃ rest, readNextItem first front = .ok (true, rest) ∧ IsCut rest (piece ++ later)) := by
  obtain ⟨ch, tail, rfl, hblank, hclose⟩ := hpiece
  cases h with
  | first hbefore hlater =>
    refine ⟨_, hlater, ?_⟩
    rcases isCut_blanks_append_cons hbefore hcut with hfront | ⟨rest, rfl, hrest⟩
    · exact Or.inl (readNextItem_blanks hfront true)
    · refine Or.inr ⟨ch :: rest, ?_, hrest.cons ch⟩
      simp only [readNextItem, skipBlanks_append_cons hbefore hblank, if_neg hclose, if_true]
  | next hafter hbefore hlater =>
    have hcomma : isBlank ',' = false ∧ (',' : Char) ≠ ']' := by decide
    refine ⟨_, hlater, ?_⟩
    rcases isCut_blanks_append_cons hafter hcut with hfront | ⟨between, rfl, hbetween⟩
    · exact Or.inl (readNextItem_blanks hfront false)
    · rcases isCut_blanks_append_cons hbefore hbetween with hblanks | ⟨rest, rfl, hrest⟩
      · left
        simp only [readNextItem, skipBlanks_append_cons hafter hcomma.1, if_neg hcomma.2,
          Bool.false_eq_true, if_false, if_true, skipBlanks_blanks hblanks]
      · refine Or.inr ⟨ch :: rest, ?_, hrest.cons ch⟩
        simp only [readNextItem, skipBlanks_append_cons hafter hcomma.1, if_neg hcomma.2,
          Bool.false_eq_true, if_false, if_true, skipBlanks_append_cons hbefore hblank,
          if_neg hclose]

theorem readItems_nil (item : Reader α) (fuel : Nat) (done : List α) :
    readItems item fuel done [] = .error .cutShort := by
  cases fuel <;> rfl

/-- **The loop over items comes to the cut,** and then it is out of text. -/
theorem readItems_cut {item : Reader α} {values done : List α}
    (hframe : Frame ']' first pieces text)
    (hitems : List.Forall₂
      (fun piece value => StartsItem piece ∧ ReadAs item piece value ∧ Starves item piece)
      pieces values)
    (hdone : done.isEmpty = first) (hcut : IsCut front text) (fuel : Nat) :
    readItems item fuel done front = .error .cutShort := by
  -- Along the pieces up to the cut. To run out of fuel on the way would be the same flaw.
  induction hitems generalizing first text done front fuel with
  | nil =>
    cases fuel with
    | zero => rfl
    | succ fuel => rw [readItems, readNextItem_blanks (hframe.blanks_of_isCut hcut)]
  | @cons piece value pieces values hpiece hitems ih =>
    cases fuel with
    | zero => rfl
    | succ fuel =>
      obtain ⟨hstarts, hread, hstarves⟩ := hpiece
      obtain ⟨later, hlater, hshort | ⟨rest, hnext, hrest⟩⟩ :=
        hframe.readNextItem_cut hstarts hcut
      · rw [readItems, hdone, hshort]
      · rw [readItems, hdone, hnext]
        rcases read_cut hread hstarves (hlater.ends_self (Or.inl rfl)) hrest with
          hshort | ⟨other, hother⟩ | ⟨last, hlast, hvalue⟩
        · simp only [hshort]
        · simp only [hother, readItems_nil]
        · have hgoes : (value :: done).isEmpty = false := rfl
          simp only [hvalue, ih hlater hgoes hlast]

end Items

/-! ## Members -/

section Members

variable {first : Bool} {quoted key tail : List Char} {pieces : List (List Char)}

theorem readNextKey_blanks (h : Blanks blanks) (first : Bool) :
    readNextKey first blanks = .error .cutShort := by
  rw [readNextKey, skipBlanks_blanks h]

theorem readKey_blanks (h : Blanks blanks) : readKey blanks = .error .cutShort := by
  rw [readKey, skipBlanks_blanks h]

/-- A key that is cut ends too early. If the cut comes later, the key is read. -/
theorem Quotes.readKey_cut (hquotes : Quotes quoted key) (hblanks : Blanks blanks)
    (hcut : IsCut front (blanks ++ (quoted ++ text))) :
    Json.readKey front = .error .cutShort ∨
      ∃ rest, Json.readKey front = .ok (key, rest) ∧ IsCut rest text := by
  obtain ⟨inner, rfl, hread⟩ := hquotes.readString
  rcases isCut_blanks_append_cons hblanks hcut with hfront | ⟨rest, rfl, hrest⟩
  · exact Or.inl (readKey_blanks hfront)
  · have hskip : skipBlanks (blanks ++ '"' :: rest) = '"' :: rest :=
      skipBlanks_append_cons hblanks rfl rest
    rcases isCut_append hrest with hkey | ⟨last, rfl, hlast⟩
    · left
      simp only [Json.readKey, hskip, hquotes.readString_cut hkey]
    · refine Or.inr ⟨last, ?_, hlast⟩
      simp only [Json.readKey, hskip]
      exact hread last

/-- In front of a member that is cut, the text may have ended. If not, the key is read. -/
theorem Frame.readNextKey_cut (h : Frame '\x7d' first ((quoted ++ tail) :: pieces) text)
    (hquotes : Quotes quoted key) (hcut : IsCut front text) :
    ∃ later, Frame '\x7d' false pieces later ∧
      (readNextKey first front = .error .cutShort ∨
        ∃ rest, readNextKey first front = .ok (some key, rest) ∧ IsCut rest (tail ++ later)) := by
  cases h with
  | @first before _ later _ hbefore hlater =>
    have hquote : isBlank '"' = false ∧ ('"' : Char) ≠ '\x7d' := by decide
    refine ⟨_, hlater, ?_⟩
    obtain ⟨inner, heq, -⟩ := hquotes.readString
    rw [List.append_assoc, heq] at hcut
    rcases isCut_blanks_append_cons hbefore hcut with hfront | ⟨rest, rfl, hrest⟩
    · exact Or.inl (readNextKey_blanks hfront true)
    · have hnext : readNextKey true (before ++ '"' :: rest) = readNextKey.key ('"' :: rest) := by
        simp only [readNextKey, skipBlanks_append_cons hbefore hquote.1, if_neg hquote.2, if_true]
      have hkey : IsCut ('"' :: rest) ([] ++ (quoted ++ (tail ++ later))) := by
        rw [heq]
        exact hrest.cons '"'
      rw [hnext, readNextKey.key]
      rcases hquotes.readKey_cut blanks_nil hkey with hshort | ⟨last, hread, hlast⟩
      · exact Or.inl (by rw [hshort]; rfl)
      · exact Or.inr ⟨last, by rw [hread]; rfl, hlast⟩
  | @next after before _ later _ hafter hbefore hlater =>
    have hcomma : isBlank ',' = false ∧ (',' : Char) ≠ '\x7d' := by decide
    refine ⟨_, hlater, ?_⟩
    rcases isCut_blanks_append_cons hafter hcut with hfront | ⟨rest, rfl, hrest⟩
    · exact Or.inl (readNextKey_blanks hfront false)
    · have hnext : readNextKey false (after ++ ',' :: rest) = readNextKey.key rest := by
        simp only [readNextKey, skipBlanks_append_cons hafter hcomma.1, if_neg hcomma.2,
          Bool.false_eq_true, if_false, if_true]
      rw [List.append_assoc] at hrest
      rw [hnext, readNextKey.key]
      rcases hquotes.readKey_cut hbefore hrest with hshort | ⟨last, hread, hlast⟩
      · exact Or.inl (by rw [hshort]; rfl)
      · exact Or.inr ⟨last, by rw [hread]; rfl, hlast⟩

theorem readMembers_nil {ς : Type} (member : List Char → ς → Reader ς) (fuel : Nat) (first : Bool)
    (slots : ς) : readMembers member fuel first slots [] = .error .cutShort := by
  cases fuel <;> rfl

/-- Where the text behind the key fills a slot, it leaves nothing to read when it is cut. -/
def MemberStarves {ς : Type} (member : List Char → ς → Reader ς)
    (named : List Char × List Char) : Prop :=
  ∀ slots slots', ReadAs (member named.1 slots) named.2 slots' →
    Starves (member named.1 slots) named.2

/-- **The loop over members comes to the cut,** and then it is out of text. -/
theorem readMembers_cut {ς : Type} {member : List Char → ς → Reader ς} {slots slots' : ς}
    {members : List (List Char × List Char)} (hfills : Fills member slots members slots')
    (hstarves : ∀ named ∈ members, MemberStarves member named)
    (hnamed : List.Forall₂ IsNamed pieces members) (hframe : Frame '\x7d' first pieces text)
    (hcut : IsCut front text) (fuel : Nat) :
    readMembers member fuel first slots front = .error .cutShort := by
  induction hfills generalizing first text pieces front fuel with
  | nil =>
    cases hnamed
    cases fuel with
    | zero => rfl
    | succ fuel => rw [readMembers, readNextKey_blanks (Frame.blanks_of_isCut hframe hcut)]
  | @cons slots slots' slots'' key tail members hmember hfills ih =>
    cases fuel with
    | zero => rfl
    | succ fuel =>
      cases hnamed with
      | cons hpiece hnamed =>
        obtain ⟨quoted, hquotes, rfl⟩ := hpiece
        obtain ⟨later, hlater, hshort | ⟨rest, hnext, hrest⟩⟩ :=
          Frame.readNextKey_cut hframe hquotes hcut
        · rw [readMembers, hshort]
        · rw [readMembers, hnext]
          have hown : Starves (member key slots) tail := hstarves (key, tail) (.head _) _ _ hmember
          have hmore : ∀ named ∈ members, MemberStarves member named :=
            fun named hmem => hstarves named (.tail _ hmem)
          rcases read_cut hmember hown (hlater.ends_self (Or.inr rfl)) hrest with
            hshort | ⟨other, hother⟩ | ⟨last, hlast, hvalue⟩
          · simp only [hshort]
          · simp only [hother, readMembers_nil]
          · simp only [hvalue, ih hmore hnamed hlater hlast]

end Members

end AmountWalk.Json
