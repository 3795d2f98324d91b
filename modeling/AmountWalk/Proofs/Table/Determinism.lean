import AmountWalk.Proofs.Table.Verdict

/-!
# Checked tables are deterministic

The check of a draft looks at pairs of labels. What a reader of the table wants to know is about
characters: at most one transition leaves a state on a character. The two meet in
`Label.overlaps_iff`, by which two transitions that read the same character have overlapping labels.
So two places of a checked table that read the same character in the same state are one place
(`place_unique`).

In a checked table the order of the transitions therefore does not matter for a look-up:
`transitionOn_eq_some_iff` finds a transition wherever it stands.
-/

namespace AmountWalk

variable {σ : Type}

/-! ## One transition for a character -/

/-- Transitions that all read one character, and whose labels do not overlap, are not two. -/
theorem length_le_one_of_reads : ∀ {ts : List (Transition σ)} {ch : Char},
    ts.Pairwise (fun a b => b.label.overlaps a.label = false) →
    (∀ t ∈ ts, t.label.reads ch = true) → ts.length ≤ 1
  | [], _, _, _ => Nat.zero_le 1
  | [_], _, _, _ => Nat.le_refl 1
  | a :: b :: _, ch, hpair, hreads => by
    have ha := hreads a List.mem_cons_self
    have hb := hreads b (List.mem_cons_of_mem _ List.mem_cons_self)
    have hoverlaps : b.label.overlaps a.label = true := Label.overlaps_iff.mpr ⟨ch, hb, ha⟩
    rw [(List.pairwise_cons.mp hpair).1 b List.mem_cons_self] at hoverlaps
    cases hoverlaps

variable [DecidableEq σ]

theorem Transition.accepts_iff {t : Transition σ} {s : σ} {ch : Char} :
    t.accepts s ch = true ↔ t.src = s ∧ t.label.reads ch = true := by
  simp [accepts]

namespace Table

/-- The transitions that leave a state on a character, found in two ways. -/
theorem filter_accepts (table : Table σ) (s : σ) (ch : Char) :
    table.transitions.filter (·.accepts s ch)
      = (table.outgoing s).filter (·.label.reads ch) := by
  unfold outgoing
  rw [List.filter_filter]
  refine List.filter_congr fun t _ => ?_
  exact Bool.and_comm _ _

end Table

/-! ## What a successful check says -/

namespace Draft

variable [StateSet σ] {draft : Draft σ} {table : Table σ}

/-- No two labels that leave a state of a table that was built overlap. -/
theorem pairwise_of_build (h : draft.build = .ok table) (s : σ) :
    (table.outgoing s).Pairwise fun a b => b.label.overlaps a.label = false :=
  pairwise_iff_not_overlapAt.mpr fun i j a b hover =>
    not_faulty_of_build h s (Or.inr ⟨i, j, a, b, hover⟩)

/-- **Two places that read the same character in the same state are one.** -/
theorem place_unique (h : draft.build = .ok table) {s : σ} {ch : Char} {i j : Nat}
    {a b : Transition σ} (hi : table.transitions[i]? = some a)
    (hj : table.transitions[j]? = some b) (ha : a.accepts s ch = true)
    (hb : b.accepts s ch = true) : i = j := by
  by_contra hij
  rw [Transition.accepts_iff] at ha hb
  have hnone := (forall_not_faulty_iff.mp (not_faulty_of_build h)).2 i j a b hij hi hj
    (ha.1.trans hb.1.symm)
  rw [Label.overlaps_iff.mpr ⟨ch, ha.2, hb.2⟩] at hnone
  cases hnone

/-- **At most one transition leaves a state on a character.** -/
theorem length_filter_accepts_le_one (h : draft.build = .ok table) (s : σ) (ch : Char) :
    (table.transitions.filter (·.accepts s ch)).length ≤ 1 := by
  rw [table.filter_accepts]
  exact length_le_one_of_reads ((pairwise_of_build h s).filter _)
    fun t ht => (List.mem_filter.mp ht).2

/-- The transition that a look-up finds is the only one. -/
theorem filter_accepts_eq_singleton (h : draft.build = .ok table) {s : σ} {ch : Char}
    {t : Transition σ} (ht : table.transitionOn s ch = some t) :
    table.transitions.filter (·.accepts s ch) = [t] := by
  have hle := length_filter_accepts_le_one h s ch
  unfold Table.transitionOn at ht
  rw [← List.head?_filter] at ht
  generalize table.transitions.filter (·.accepts s ch) = found at hle ht
  -- an empty list has no head, a longer one is too long
  match found, hle, ht with
  | [a], _, ht => rw [Option.some.inj ht]

/-- **A look-up finds any transition that leaves the state on the character,** wherever it
stands. -/
theorem transitionOn_eq_some_iff (h : draft.build = .ok table) {s : σ} {ch : Char}
    {t : Transition σ} :
    table.transitionOn s ch = some t ↔ t ∈ table.transitions ∧ t.accepts s ch = true := by
  refine ⟨Table.transitionOn_eq_some, fun ⟨hmem, haccepts⟩ => ?_⟩
  cases hfound : table.transitionOn s ch with
  | none =>
    unfold Table.transitionOn at hfound
    exact absurd haccepts (List.find?_eq_none.mp hfound t hmem)
  | some u =>
    have honly := filter_accepts_eq_singleton h hfound
    have hmem' : t ∈ table.transitions.filter (·.accepts s ch) :=
      List.mem_filter.mpr ⟨hmem, haccepts⟩
    rw [honly] at hmem'
    rw [List.mem_singleton.mp hmem']

end Draft

end AmountWalk
