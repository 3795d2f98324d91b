import AmountWalk.Proofs.Digit
import AmountWalk.Proofs.Table.Determinism
import AmountWalk.Proofs.Table.Verdict

/-!
# Reading with a checked table

The check of a draft compares labels, a reader of the table meets characters. What the check means
for a reader: whatever stands next, at most one place of a checked table reads it, and no text that
can be read ends in a state that neither accepts nor has a character that leads on.

Nothing is refused for less than that. Whenever labels are said to overlap, some character is read
by both transitions.
-/

namespace AmountWalk

/-- Every label reads some character. -/
theorem Label.exists_reads (label : Label) : ∃ ch, label.reads ch = true := by
  cases label with
  | literal c => exact ⟨c, Label.reads_literal_iff.mpr rfl⟩
  | digits cls => exact ⟨_, DigitClass.reads_digitChar_clamp cls 0⟩

variable {σ : Type} [DecidableEq σ]

namespace Draft

variable [StateSet σ] {draft : Draft σ} {table : Table σ} {s : σ} {text : List Char}

/-! ## What a checked table promises -/

/-- A state that does not accept has a character that leads on. -/
theorem exists_transitionOn (h : draft.build = .ok table)
    (haccepting : StateSet.accepting s = false) : ∃ ch t, table.transitionOn s ch = some t := by
  obtain ⟨t, hmem, hsrc⟩ := (forall_not_faulty_iff.mp (not_faulty_of_build h)).1 s haccepting
  obtain ⟨ch, hreads⟩ := t.label.exists_reads
  exact ⟨ch, t, (transitionOn_eq_some_iff h).mpr ⟨hmem, Transition.accepts_iff.mpr ⟨hsrc, hreads⟩⟩⟩

/-- **No reading gets stuck** in a state that does not accept. -/
theorem accepting_or_goes_on (h : draft.build = .ok table)
    (hrun : table.runFrom table.start text = some s) :
    StateSet.accepting s = true ∨
      ∃ ch u, table.runFrom table.start (text ++ [ch]) = some u := by
  cases haccepting : StateSet.accepting s with
  | true => exact Or.inl rfl
  | false =>
    obtain ⟨ch, t, ht⟩ := exists_transitionOn h haccepting
    refine Or.inr ⟨ch, t.dst, ?_⟩
    rw [Table.runFrom_append, hrun, Option.bind_some, Table.runFrom_cons, ht, Option.bind_some,
      Table.runFrom_nil]

/-! ## What a refusal means -/

/-- **Labels that are said to overlap have a character in common.** -/
theorem exists_accepts_of_overlap {x y : Label} (h : draft.build = .error (.overlap s x y)) :
    ∃ (ch : Char) (i j : Nat) (a b : Transition σ), i < j ∧
      draft.transitions[i]? = some a ∧ draft.transitions[j]? = some b ∧
      a.label = x ∧ b.label = y ∧ a.accepts s ch = true ∧ b.accepts s ch = true := by
  rw [build_eq_iff] at h
  cases h with
  | overlap hstart hne hfirst hover =>
    obtain ⟨⟨i, j, hplaces⟩, ha, hb⟩ := hover.of_filter
    obtain ⟨ch, hreads, hreads'⟩ := Label.overlaps_iff.mp hover.overlaps
    exact ⟨ch, i, j, _, _, hplaces.lt, hplaces.first, hplaces.second, rfl, rfl,
      Transition.accepts_iff.mpr ⟨by simpa using ha, hreads⟩,
      Transition.accepts_iff.mpr ⟨by simpa using hb, hreads'⟩⟩

/-- **What the check of a draft means for reading.** In a table that was built, at most one place
reads a character in a state, so a look-up finds a transition exactly when it is there; and a text
that can be read leads to an accepting state or can be prolonged. Conversely a draft is refused for
an overlap only if two transitions that leave the state read one character: labels overlap, in
either order, exactly when they have a character in common. -/
theorem build_reading (draft : Draft σ) :
    (∀ table, draft.build = .ok table →
      (∀ (s : σ) (ch : Char) (i j : Nat) (a b : Transition σ),
        table.transitions[i]? = some a → table.transitions[j]? = some b →
        a.accepts s ch = true → b.accepts s ch = true → i = j) ∧
      (∀ s ch t, table.transitionOn s ch = some t ↔
        t ∈ table.transitions ∧ t.accepts s ch = true) ∧
      ∀ text s, table.runFrom table.start text = some s →
        StateSet.accepting s = true ∨
          ∃ ch u, table.runFrom table.start (text ++ [ch]) = some u) ∧
    (∀ s x y, draft.build = .error (.overlap s x y) →
      ∃ (ch : Char) (i j : Nat) (a b : Transition σ), i < j ∧
        draft.transitions[i]? = some a ∧ draft.transitions[j]? = some b ∧
        a.label = x ∧ b.label = y ∧ a.accepts s ch = true ∧ b.accepts s ch = true) ∧
    ∀ a b : Label,
      (a.overlaps b = true ↔ ∃ ch, a.reads ch = true ∧ b.reads ch = true) ∧
      (b.overlaps a = true ↔ ∃ ch, a.reads ch = true ∧ b.reads ch = true) := by
  refine ⟨fun table h => ⟨?places, ?lookup, ?exits⟩, ?refusal, fun a b => ⟨?order, ?swapped⟩⟩
  case places =>
    intro s ch i j a b hi hj ha hb
    exact place_unique h hi hj ha hb
  case lookup =>
    intro s ch t
    exact transitionOn_eq_some_iff h
  case exits =>
    intro text s hrun
    exact accepting_or_goes_on h hrun
  case refusal =>
    intro s x y h
    exact exists_accepts_of_overlap h
  case order => exact Label.overlaps_iff
  case swapped =>
    rw [Label.overlaps_comm]
    exact Label.overlaps_iff

end Draft

end AmountWalk
