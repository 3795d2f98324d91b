import AmountWalk.Proofs.Amount.Spelling

/-!
# The language of the table of amounts

The table reads more than a walk writes. `Accepted` gives the five shapes of text that lead from the
start to an accepting state, and `accepts_iff` says that there are no others. Two of them no walk
prints (`Unprinted`): the walk leaves whole dollars as they are, and it marks cents.

For every state there is one lemma on the texts that lead from it to an accepting state. The lemmas
go from the ends of the automaton to its start, each by a look at the first character; only `q3` has
an edge to itself and takes an induction. Since the table is deterministic, the order of its edges
plays no part (`readsFrom_cons`).
-/

namespace AmountWalk.Amount

open State

/-! ## Shapes -/

/-- The texts that the table accepts. -/
inductive Accepted : List Char → Prop where
  /-- Whole dollars. -/
  | whole {number : List Char} (hnumber : IsWhole number) : Accepted ('$' :: number)
  /-- Dollars with two digits behind the point. -/
  | fraction {number : List Char} {a b : Char} (hnumber : number = ['0'] ∨ IsWhole number)
      (ha : IsDigit a) (hb : IsDigit b) : Accepted ('$' :: (number ++ ['.', a, b]))
  /-- One digit of cents. -/
  | cent {a : Char} (ha : IsLeading a) : Accepted [a, 'c']
  /-- Two digits of cents. -/
  | cents {a b : Char} (ha : IsLeading a) (hb : IsDigit b) : Accepted [a, b, 'c']
  /-- Two digits of cents that nothing marks as such. -/
  | bare {a b : Char} (ha : IsLeading a) (hb : IsDigit b) : Accepted [a, b]

/-- The texts that the table accepts and no walk prints. -/
inductive Unprinted : List Char → Prop where
  /-- A dollar or more with two digits behind the point. -/
  | fraction {number : List Char} {a b : Char} (hnumber : IsWhole number)
      (ha : IsDigit a) (hb : IsDigit b) : Unprinted ('$' :: (number ++ ['.', a, b]))
  /-- Two digits of cents that nothing marks as such. -/
  | bare {a b : Char} (ha : IsLeading a) (hb : IsDigit b) : Unprinted [a, b]

/-! ## Reading from a state -/

/-- The text leads from the state to an accepting one. -/
def ReadsFrom (s : State) (text : List Char) : Prop :=
  ∃ t, table.runFrom s text = some t ∧ StateSet.accepting t = true

theorem readsFrom_nil {s : State} : ReadsFrom s [] ↔ State.accepting s = true := by
  constructor
  · rintro ⟨t, hrun, haccepting⟩
    cases hrun
    exact haccepting
  · exact fun h => ⟨s, rfl, h⟩

/-- A reading goes on along any transition that reads the next character. -/
theorem readsFrom_cons {s : State} {ch : Char} {rest : List Char} :
    ReadsFrom s (ch :: rest)
      ↔ ∃ t ∈ transitions, t.src = s ∧ t.label.reads ch = true ∧ ReadsFrom t.dst rest := by
  constructor
  · rintro ⟨u, hrun, haccepting⟩
    rw [Table.runFrom_cons] at hrun
    obtain ⟨t, hon, hrun⟩ := Option.bind_eq_some_iff.mp hrun
    obtain ⟨hmem, haccepts⟩ := Table.transitionOn_eq_some hon
    obtain ⟨hsrc, hreads⟩ := Bool.and_eq_true_iff.mp haccepts
    exact ⟨t, hmem, by simpa using hsrc, hreads, u, hrun, haccepting⟩
  · rintro ⟨t, hmem, rfl, hreads, u, hrun, haccepting⟩
    refine ⟨u, ?_, haccepting⟩
    rw [Table.runFrom_cons, transitionOn_of_mem hmem hreads]
    exact hrun

section Edges

variable {ch : Char} {rest : List Char}

theorem readsFrom_q0_cons : ReadsFrom q0 (ch :: rest)
    ↔ (ch = '$' ∧ ReadsFrom q1 rest) ∨ (IsLeading ch ∧ ReadsFrom q7 rest) := by
  rw [readsFrom_cons]
  simp [transitions]

theorem readsFrom_q1_cons : ReadsFrom q1 (ch :: rest)
    ↔ (ch = '0' ∧ ReadsFrom q2 rest) ∨ (IsLeading ch ∧ ReadsFrom q3 rest) := by
  rw [readsFrom_cons]
  simp [transitions]

theorem readsFrom_q2_cons : ReadsFrom q2 (ch :: rest) ↔ ch = '.' ∧ ReadsFrom q4 rest := by
  rw [readsFrom_cons]
  simp [transitions]

theorem readsFrom_q3_cons : ReadsFrom q3 (ch :: rest)
    ↔ (IsDigit ch ∧ ReadsFrom q3 rest) ∨ (ch = '.' ∧ ReadsFrom q4 rest) := by
  rw [readsFrom_cons]
  simp [transitions]

theorem readsFrom_q4_cons : ReadsFrom q4 (ch :: rest) ↔ IsDigit ch ∧ ReadsFrom q5 rest := by
  rw [readsFrom_cons]
  simp [transitions]

theorem readsFrom_q5_cons : ReadsFrom q5 (ch :: rest) ↔ IsDigit ch ∧ ReadsFrom q6 rest := by
  rw [readsFrom_cons]
  simp [transitions]

theorem not_readsFrom_q6_cons : ¬ ReadsFrom q6 (ch :: rest) := by
  rw [readsFrom_cons]
  simp [transitions]

theorem readsFrom_q7_cons : ReadsFrom q7 (ch :: rest)
    ↔ (ch = 'c' ∧ ReadsFrom q8 rest) ∨ (IsDigit ch ∧ ReadsFrom q9 rest) := by
  rw [readsFrom_cons]
  simp [transitions]

theorem not_readsFrom_q8_cons : ¬ ReadsFrom q8 (ch :: rest) := by
  rw [readsFrom_cons]
  simp [transitions]

theorem readsFrom_q9_cons : ReadsFrom q9 (ch :: rest) ↔ ch = 'c' ∧ ReadsFrom q8 rest := by
  rw [readsFrom_cons]
  simp [transitions]

end Edges

/-! ## From the ends to the start -/

section States

variable {text : List Char}

theorem readsFrom_q6 : ReadsFrom q6 text ↔ text = [] := by
  cases text with
  | nil => simp [readsFrom_nil, accepting]
  | cons ch rest => simp [not_readsFrom_q6_cons]

theorem readsFrom_q8 : ReadsFrom q8 text ↔ text = [] := by
  cases text with
  | nil => simp [readsFrom_nil, accepting]
  | cons ch rest => simp [not_readsFrom_q8_cons]

theorem readsFrom_q9 : ReadsFrom q9 text ↔ text = [] ∨ text = ['c'] := by
  cases text with
  | nil => simp [readsFrom_nil, accepting]
  | cons ch rest => simp [readsFrom_q9_cons, readsFrom_q8]

theorem readsFrom_q7 :
    ReadsFrom q7 text ↔ text = ['c'] ∨ ∃ b, IsDigit b ∧ (text = [b] ∨ text = [b, 'c']) := by
  cases text with
  | nil => simp [readsFrom_nil, accepting]
  | cons ch rest =>
    rw [readsFrom_q7_cons, readsFrom_q8, readsFrom_q9]
    constructor
    · rintro (⟨rfl, rfl⟩ | ⟨hch, rfl | rfl⟩)
      · exact Or.inl rfl
      · exact Or.inr ⟨ch, hch, Or.inl rfl⟩
      · exact Or.inr ⟨ch, hch, Or.inr rfl⟩
    · rintro (heq | ⟨b, hb, heq | heq⟩)
      · cases heq
        exact Or.inl ⟨rfl, rfl⟩
      · cases heq
        exact Or.inr ⟨hb, Or.inl rfl⟩
      · cases heq
        exact Or.inr ⟨hb, Or.inr rfl⟩

theorem readsFrom_q5 : ReadsFrom q5 text ↔ ∃ b, IsDigit b ∧ text = [b] := by
  cases text with
  | nil => simp [readsFrom_nil, accepting]
  | cons ch rest =>
    rw [readsFrom_q5_cons, readsFrom_q6]
    constructor
    · rintro ⟨hch, rfl⟩
      exact ⟨ch, hch, rfl⟩
    · rintro ⟨b, hb, heq⟩
      cases heq
      exact ⟨hb, rfl⟩

theorem readsFrom_q4 : ReadsFrom q4 text ↔ ∃ a b, IsDigit a ∧ IsDigit b ∧ text = [a, b] := by
  cases text with
  | nil => simp [readsFrom_nil, accepting]
  | cons ch rest =>
    rw [readsFrom_q4_cons, readsFrom_q5]
    constructor
    · rintro ⟨hch, b, hb, rfl⟩
      exact ⟨ch, b, hch, hb, rfl⟩
    · rintro ⟨a, b, ha, hb, heq⟩
      cases heq
      exact ⟨ha, b, hb, rfl⟩

theorem readsFrom_q2 :
    ReadsFrom q2 text ↔ ∃ a b, IsDigit a ∧ IsDigit b ∧ text = ['.', a, b] := by
  cases text with
  | nil => simp [readsFrom_nil, accepting]
  | cons ch rest =>
    rw [readsFrom_q2_cons, readsFrom_q4]
    constructor
    · rintro ⟨rfl, a, b, ha, hb, rfl⟩
      exact ⟨a, b, ha, hb, rfl⟩
    · rintro ⟨a, b, ha, hb, heq⟩
      cases heq
      exact ⟨rfl, a, b, ha, hb, rfl⟩

/-- Inside whole dollars any number of digits may follow, and then a fraction. -/
theorem readsFrom_q3 : ∀ {text : List Char}, ReadsFrom q3 text
    ↔ (∀ ch ∈ text, IsDigit ch) ∨
      ∃ number a b, (∀ ch ∈ number, IsDigit ch) ∧ IsDigit a ∧ IsDigit b ∧
        text = number ++ ['.', a, b]
  | [] => by simp [readsFrom_nil, accepting]
  | ch :: rest => by
    rw [readsFrom_q3_cons, readsFrom_q4, readsFrom_q3]
    -- the point comes at once (an empty number) or behind the digits of the induction hypothesis
    constructor
    · rintro (⟨hch, hrest | ⟨number, a, b, hnumber, ha, hb, rfl⟩⟩ | ⟨rfl, a, b, ha, hb, rfl⟩)
      · exact Or.inl (List.forall_mem_cons.mpr ⟨hch, hrest⟩)
      · exact Or.inr ⟨ch :: number, a, b, List.forall_mem_cons.mpr ⟨hch, hnumber⟩, ha, hb, rfl⟩
      · exact Or.inr ⟨[], a, b, fun _ hmem => absurd hmem List.not_mem_nil, ha, hb, rfl⟩
    · rintro (hall | ⟨number, a, b, hnumber, ha, hb, heq⟩)
      · obtain ⟨hch, hrest⟩ := List.forall_mem_cons.mp hall
        exact Or.inl ⟨hch, Or.inl hrest⟩
      · cases number with
        | nil =>
          cases heq
          exact Or.inr ⟨rfl, a, b, ha, hb, rfl⟩
        | cons first number =>
          cases heq
          obtain ⟨hfirst, hnumber⟩ := List.forall_mem_cons.mp hnumber
          exact Or.inl ⟨hfirst, Or.inr ⟨number, a, b, hnumber, ha, hb, rfl⟩⟩

theorem readsFrom_q1 : ReadsFrom q1 text
    ↔ IsWhole text ∨
      ∃ number a b, (number = ['0'] ∨ IsWhole number) ∧ IsDigit a ∧ IsDigit b ∧
        text = number ++ ['.', a, b] := by
  cases text with
  | nil =>
    rw [readsFrom_nil]
    constructor
    · intro h
      cases h
    · rintro (h | ⟨number, a, b, _, _, _, heq⟩)
      · cases h
      · simp at heq
  | cons ch rest =>
    rw [readsFrom_q1_cons, readsFrom_q2, readsFrom_q3]
    constructor
    · rintro (⟨rfl, a, b, ha, hb, rfl⟩ | ⟨hch, hrest | ⟨number, a, b, hnumber, ha, hb, rfl⟩⟩)
      · exact Or.inr ⟨['0'], a, b, Or.inl rfl, ha, hb, rfl⟩
      · exact Or.inl (.cons hch hrest)
      · exact Or.inr ⟨ch :: number, a, b, Or.inr (.cons hch hnumber), ha, hb, rfl⟩
    · rintro (h | ⟨number, a, b, hnumber, ha, hb, heq⟩)
      · cases h with
        | cons hch hrest => exact Or.inr ⟨hch, Or.inl hrest⟩
      · rcases hnumber with rfl | hnumber
        · cases heq
          exact Or.inl ⟨rfl, a, b, ha, hb, rfl⟩
        · cases hnumber with
          | @cons first number hfirst hnumber =>
            cases heq
            exact Or.inr ⟨hfirst, Or.inr ⟨number, a, b, hnumber, ha, hb, rfl⟩⟩

theorem accepted_iff_readsFrom : Accepted text ↔ ReadsFrom q0 text := by
  cases text with
  | nil =>
    rw [readsFrom_nil]
    constructor
    · intro h
      cases h
    · intro h
      cases h
  | cons ch rest =>
    rw [readsFrom_q0_cons, readsFrom_q1, readsFrom_q7]
    constructor
    · intro h
      cases h with
      | whole hnumber => exact Or.inl ⟨rfl, Or.inl hnumber⟩
      | fraction hnumber ha hb => exact Or.inl ⟨rfl, Or.inr ⟨_, _, _, hnumber, ha, hb, rfl⟩⟩
      | cent ha => exact Or.inr ⟨ha, Or.inl rfl⟩
      | cents ha hb => exact Or.inr ⟨ha, Or.inr ⟨_, hb, Or.inr rfl⟩⟩
      | bare ha hb => exact Or.inr ⟨ha, Or.inr ⟨_, hb, Or.inl rfl⟩⟩
    · rintro (⟨rfl, hnumber | ⟨number, a, b, hnumber, ha, hb, rfl⟩⟩
        | ⟨hch, rfl | ⟨b, hb, rfl | rfl⟩⟩)
      · exact .whole hnumber
      · exact .fraction hnumber ha hb
      · exact .cent hch
      · exact .bare hch hb
      · exact .cents hch hb

end States

/-- **The table accepts the five shapes and nothing else.** -/
theorem accepts_iff {text : List Char} : table.accepts text = true ↔ Accepted text := by
  rw [accepted_iff_readsFrom, Table.accepts, Option.any_eq_true]
  rfl

example : table.accepts ['$', '3', '.', '4', '5'] = true := by decide

/-! ## What is accepted and what is printed -/

theorem Printed.accepted {text : List Char} (h : Printed text) : Accepted text := by
  cases h with
  | @fraction a b ha hb =>
    have hfraction : Accepted ('$' :: (['0'] ++ ['.', a, b])) := .fraction (Or.inl rfl) ha hb
    exact hfraction
  | whole hnumber => exact .whole hnumber
  | cent ha => exact .cent ha
  | cents ha hb => exact .cents ha hb

theorem Unprinted.accepted {text : List Char} (h : Unprinted text) : Accepted text := by
  cases h with
  | fraction hnumber ha hb => exact .fraction (Or.inr hnumber) ha hb
  | bare ha hb => exact .bare ha hb

theorem Accepted.printed_or_unprinted {text : List Char} (h : Accepted text) :
    Printed text ∨ Unprinted text := by
  cases h with
  | whole hnumber => exact Or.inl (.whole hnumber)
  | fraction hnumber ha hb =>
    rcases hnumber with rfl | hnumber
    · exact Or.inl (.fraction ha hb)
    · exact Or.inr (.fraction hnumber ha hb)
  | cent ha => exact Or.inl (.cent ha)
  | cents ha hb => exact Or.inl (.cents ha hb)
  | bare ha hb => exact Or.inr (.bare ha hb)

/-- The characters of a number are digits. -/
theorem IsWhole.isDigit {number : List Char} (h : IsWhole number) : ∀ ch ∈ number, IsDigit ch := by
  cases h with
  | cons hfirst hrest => exact List.forall_mem_cons.mpr ⟨hfirst.isDigit, hrest⟩

/-- A text that starts with a dollar sign starts with no digit. -/
theorem ne_dollar_of_isLeading {ch : Char} (h : IsLeading ch) : ch ≠ '$' :=
  h.isDigit.ne (by decide)

/-- An amount with dollars is whole, or less than one dollar. -/
theorem Printed.dollars {rest : List Char} (h : Printed ('$' :: rest)) :
    IsWhole rest ∨ ∃ a b, rest = ['0', '.', a, b] := by
  cases h with
  | fraction ha hb => exact Or.inr ⟨_, _, rfl⟩
  | whole hnumber => exact Or.inl hnumber
  | cent ha => exact absurd rfl (ne_dollar_of_isLeading ha)
  | cents ha hb => exact absurd rfl (ne_dollar_of_isLeading ha)

theorem Unprinted.not_printed {text : List Char} (h : Unprinted text) : ¬ Printed text := by
  intro hprinted
  cases h with
  | @fraction number a b hnumber ha hb =>
    rcases hprinted.dollars with hwhole | ⟨c, d, heq⟩
    · -- a point is no digit
      have hpoint := hwhole.isDigit '.' (by simp)
      exact hpoint.ne (by decide) rfl
    · -- a number does not start with zero
      cases hnumber with
      | cons hfirst hrest =>
        rw [List.cons_append] at heq
        rw [(List.cons.inj heq).1, isLeading_iff] at hfirst
        exact absurd hfirst.1 (by decide)
  | bare ha hb =>
    cases hprinted with
    | whole hnumber => exact ne_dollar_of_isLeading ha rfl
    | cent ha => exact hb.ne (by decide) rfl

/-- **The language of the table:** the five shapes, of which a walk prints all texts but the dollars
with a fraction, from one dollar on, and the unmarked cents. -/
theorem table_language (text : List Char) :
    (table.accepts text = true ↔ Accepted text) ∧
    ((∃ (γ : Type) (_ : ChoiceSource γ) (source : γ), table.Generates policy source text) →
      table.accepts text = true) ∧
    ((table.accepts text = true ∧
        ¬ ∃ (γ : Type) (_ : ChoiceSource γ) (source : γ), table.Generates policy source text)
      ↔ Unprinted text) := by
  have hgenerates : (∃ (γ : Type) (_ : ChoiceSource γ) (source : γ),
      table.Generates policy source text) ↔ Printed text := printed_iff_exists_source.symm
  rw [hgenerates, accepts_iff]
  refine ⟨Iff.rfl, Printed.accepted, ?_, fun h => ⟨h.accepted, h.not_printed⟩⟩
  rintro ⟨haccepted, hnot⟩
  rcases haccepted.printed_or_unprinted with hprinted | hunprinted
  · exact absurd hprinted hnot
  · exact hunprinted

end AmountWalk.Amount
