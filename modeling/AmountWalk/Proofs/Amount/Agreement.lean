import AmountWalk.Proofs.Amount.Accepted
import AmountWalk.Proofs.Amount.Sampling

/-!
# The filter, the table and the walker agree

The format of amounts is written down three times: as a table, as a policy, and as a filter that
looks at a text from outside. The filter passes what the table accepts, except for unmarked cents, and
these are the texts that end in `q9` (`Accepted.exists_reading`). A walk never ends there, so its text
passes, and a sampling makes no attempt for nothing: each is abandoned or brings a text.
-/

namespace AmountWalk.Amount

open State

/-! ## Where a reading ends -/

/-- A reading goes on along a transition that reads the next character. -/
theorem runFrom_cons_of_mem {t : Transition State} {ch : Char} {rest : List Char}
    (hmem : t ∈ transitions) (hreads : t.label.reads ch = true) :
    table.runFrom t.src (ch :: rest) = table.runFrom t.dst rest := by
  rw [Table.runFrom_cons, transitionOn_of_mem hmem hreads]
  rfl

section Shapes

variable {number rest : List Char} {a b ch : Char}

theorem runFrom_digit {s t : State} (hmem : ⟨s, t, .digits .any⟩ ∈ transitions)
    (h : IsDigit ch) : table.runFrom s (ch :: rest) = table.runFrom t rest :=
  runFrom_cons_of_mem hmem (Label.reads_any_iff.mpr h)

theorem runFrom_leading {s t : State} (hmem : ⟨s, t, .digits .nonZero⟩ ∈ transitions)
    (h : IsLeading ch) : table.runFrom s (ch :: rest) = table.runFrom t rest :=
  runFrom_cons_of_mem hmem (Label.reads_nonZero_iff.mpr h)

theorem runFrom_literal {s t : State} (hmem : ⟨s, t, .literal ch⟩ ∈ transitions) :
    table.runFrom s (ch :: rest) = table.runFrom t rest :=
  runFrom_cons_of_mem hmem (Label.reads_literal_iff.mpr rfl)

theorem runFrom_q3_digits : ∀ {number : List Char}, (∀ ch ∈ number, IsDigit ch) →
    table.runFrom q3 (number ++ rest) = table.runFrom q3 rest
  | [], _ => rfl
  | ch :: number, h => by
    rw [List.cons_append, runFrom_digit (t := q3) (by decide) (h ch List.mem_cons_self),
      runFrom_q3_digits fun other hmem => h other (List.mem_cons_of_mem _ hmem)]

theorem runFrom_whole (h : IsWhole number) :
    table.runFrom q0 ('$' :: (number ++ rest)) = table.runFrom q3 rest := by
  cases h with
  | cons hfirst hrest =>
    rw [runFrom_literal (t := q1) (by decide), List.cons_append,
      runFrom_leading (t := q3) (by decide) hfirst, runFrom_q3_digits hrest]

/-- Two digits behind a point complete dollars. -/
theorem runFrom_fraction {s : State} (hmem : ⟨s, q4, .literal '.'⟩ ∈ transitions) (ha : IsDigit a)
    (hb : IsDigit b) : table.runFrom s ['.', a, b] = some q6 := by
  rw [runFrom_literal hmem, runFrom_digit (t := q5) (by decide) ha,
    runFrom_digit (t := q6) (by decide) hb]
  rfl

theorem runFrom_cents (ha : IsLeading a) (hb : IsDigit b) :
    table.runFrom q0 (a :: b :: rest) = table.runFrom q9 rest := by
  rw [runFrom_leading (t := q7) (by decide) ha, runFrom_digit (t := q9) (by decide) hb]

end Shapes

/-! ## The filter on accepted texts -/

/-- **Accepted texts end where the filter says:** what it drops is read to `q9`, and what it passes to
one of the other accepting states. -/
theorem Accepted.exists_reading {text : List Char} (h : Accepted text) :
    ∃ s, table.runFrom q0 text = some s ∧
      (isWellFormed text = false ∧ s = q9 ∨
        isWellFormed text = true ∧ (s = q3 ∨ s = q6 ∨ s = q8)) := by
  cases h with
  | @whole number hnumber =>
    have hread : table.runFrom q0 ('$' :: (number ++ [])) = some q3 := runFrom_whole hnumber
    rw [List.append_nil] at hread
    exact ⟨q3, hread, Or.inr ⟨(Printed.whole hnumber).isWellFormed, Or.inl rfl⟩⟩
  | @fraction number a b hnumber ha hb =>
    have hread : table.runFrom q0 ('$' :: (number ++ ['.', a, b])) = some q6 := by
      rcases hnumber with rfl | hnumber
      · rw [runFrom_literal (t := q1) (by decide), List.singleton_append,
          runFrom_literal (t := q2) (by decide), runFrom_fraction (by decide) ha hb]
      · rw [runFrom_whole hnumber, runFrom_fraction (by decide) ha hb]
    have hdigits : '.' ∉ '$' :: number := by
      rcases hnumber with rfl | hnumber
      · decide
      · intro hmem
        rcases List.mem_cons.mp hmem with heq | hmem
        · cases heq
        · exact (hnumber.isDigit _ hmem).ne (by decide) rfl
    have hback : '.' ∉ [a, b] := by
      simp [(ha.ne (by decide) : a ≠ '.').symm, (hb.ne (by decide) : b ≠ '.').symm]
    have hpasses : isWellFormed ('$' :: (number ++ ['.', a, b])) = true := by
      show (fraction? (('$' :: number) ++ '.' :: [a, b])).all (·.length == 2) = true
      rw [fraction?_append hdigits hback]
      rfl
    exact ⟨q6, hread, Or.inr ⟨hpasses, Or.inr (Or.inl rfl)⟩⟩
  | @cent a ha =>
    have hread : table.runFrom q0 [a, 'c'] = some q8 := by
      rw [runFrom_leading (t := q7) (by decide) ha, runFrom_literal (t := q8) (by decide)]
      rfl
    exact ⟨q8, hread, Or.inr ⟨(Printed.cent ha).isWellFormed, Or.inr (Or.inr rfl)⟩⟩
  | @cents a b ha hb =>
    have hread : table.runFrom q0 [a, b, 'c'] = some q8 := by
      rw [runFrom_cents ha hb, runFrom_literal (t := q8) (by decide)]
      rfl
    exact ⟨q8, hread, Or.inr ⟨(Printed.cents ha hb).isWellFormed, Or.inr (Or.inr rfl)⟩⟩
  | @bare a b ha hb =>
    -- there is no mark behind the digits
    have hmark : b ≠ 'c' := hb.ne (by decide)
    have hdropped : isWellFormed [a, b] = false := by
      rw [isWellFormed_of_ne (ne_dollar_of_isLeading ha)]
      simp [hmark]
    exact ⟨q9, runFrom_cents ha hb, Or.inl ⟨hdropped, rfl⟩⟩

/-! ## Agreement -/

/-- **The filter, the table and the walker agree.**

* Of the texts that the table accepts, the filter drops those that are read to `q9` and passes those
  that are read to `q3`, `q6` or `q8`.
* A walk that halts has printed a text that passes, bounded or not.
* A sampling drops no text. Its attempts are the walks that were abandoned and the texts that it
  returns, or the texts that it had found when it was exhausted. -/
theorem filter_agrees :
    (∀ text, table.accepts text = true →
      (isWellFormed text = false ↔ table.runFrom table.start text = some q9) ∧
      (isWellFormed text = true
        ↔ ∃ s, table.runFrom table.start text = some s ∧ (s = q3 ∨ s = q6 ∨ s = q8))) ∧
    (∀ (γ : Type) [ChoiceSource γ] (source : γ),
      (∀ moves run, table.walk policy moves source = some run →
        ∃ path, run.outcome = .ok path ∧ isWellFormed path.output = true) ∧
      (∀ maxSteps path, (table.walkBounded policy maxSteps source).outcome = .finished path →
        isWellFormed path.output = true)) ∧
    (∀ (γ : Type) [ChoiceSource γ] (source : γ) (config : SampleConfig),
      config.count.toNat * 24 ≤ Nat.pow 2 63 - 1 →
      (∀ text, Event.rejectedSample text ∉ (table.collect policy config source).log) ∧
      ((∃ texts attempts abandoned,
          (table.collect policy config source).outcome = .ok texts ∧
          texts.length = config.count.toNat ∧
          (table.collect policy config source).log.getLast?
            = some (.samplingComplete attempts abandoned config.count.toNat) ∧
          abandoned = (table.collect policy config source).log.countP Event.isAbandonment ∧
          attempts = abandoned + config.count.toNat) ∨
        ∃ e, (table.collect policy config source).outcome = .error (.exhausted e) ∧
          e.abandoned = (table.collect policy config source).log.countP Event.isAbandonment ∧
          e.attempts = e.abandoned + e.collected)) := by
  refine ⟨fun text haccepts => ?accepted, fun γ _ source => ⟨?walk, ?bounded⟩,
    fun γ _ source config hfits => ?sampling⟩
  case accepted =>
    obtain ⟨s, hread, hfilter⟩ := (accepts_iff.mp haccepts).exists_reading
    rw [show table.runFrom table.start text = some s from hread]
    rcases hfilter with ⟨hdropped, rfl⟩ | ⟨hpasses, hs⟩
    · simp [hdropped]
    · rw [hpasses]
      rcases hs with rfl | rfl | rfl <;> simp
  case walk =>
    intro moves run hrun
    obtain ⟨path, hok, hprinted⟩ := printed_of_walk hrun
    exact ⟨path, hok, hprinted.isWellFormed⟩
  case bounded =>
    intro maxSteps path hpath
    rcases walkBounded_cases maxSteps source with ⟨other, hother, hprinted⟩ | ⟨s, hs⟩
    · rw [hpath] at hother
      cases hother
      exact hprinted.isWellFormed
    · rw [hs] at hpath
      cases hpath
  case sampling =>
    obtain ⟨walks, hexit⟩ := succeeds_or_givesUp hfits source
    have hwalks := length_textsAfter_add_countP config.maxSteps.toNat source walks
    have hnone := rejectedSample_not_mem_flatMap config.maxSteps.toNat source walks
    rcases hexit with h | h
    · have hreported : (table.collect policy config source).log.countP Event.isAbandonment
          = (table.endings policy config.maxSteps.toNat source walks).countP
              Ending.isAbandoned := by
        rw [h.log, List.countP_append, Table.countP_isAbandonment_flatMap]
        rfl
      refine ⟨fun text hmem => ?_, Or.inl ⟨_, walks, _, h.outcome, h.length_texts, ?_,
        hreported.symm, ?_⟩⟩
      · rw [h.log] at hmem
        rcases List.mem_append.mp hmem with hmem | hmem
        · exact hnone text hmem
        · cases List.mem_singleton.mp hmem
      · rw [h.log, List.getLast?_concat]
      · rw [h.length_texts] at hwalks
        omega
    · refine ⟨fun text hmem => ?_, Or.inr ⟨_, h.outcome, ?_, ?_⟩⟩
      · rw [h.log] at hmem
        exact hnone text hmem
      · rw [h.log, Table.countP_isAbandonment_flatMap]
      · rw [Nat.add_comm] at hwalks
        exact hwalks.symm

/-- The table accepts `42`, and the filter drops it. From an empty script a walk prints `10c`, which
passes, and so does each text of a sampling. -/
theorem filter_agrees_bareDigits :
    (table.accepts ['4', '2'] = true ∧ isWellFormed ['4', '2'] = false ∧
      table.runFrom table.start ['4', '2'] = some q9) ∧
    (∃ path, (table.walkBounded policy 50 (⟨[], []⟩ : Script)).outcome = .finished path ∧
      path.output = ['1', '0', 'c'] ∧ isWellFormed path.output = true) ∧
    (3 : UInt64).toNat * 24 ≤ Nat.pow 2 63 - 1 ∧
      ∀ text, Event.rejectedSample text
        ∉ (table.collect policy ⟨3, 9, 50⟩ (⟨[], []⟩ : Script)).log := by
  obtain ⟨hfilter, hwalks, hsampling⟩ := filter_agrees
  have haccepts : table.accepts ['4', '2'] = true := by decide
  have hread : table.runFrom table.start ['4', '2'] = some q9 := by decide
  refine ⟨⟨haccepts, (hfilter _ haccepts).1.mpr hread, hread⟩, ?walk, by decide, ?sampling⟩
  case walk => exact ⟨_, rfl, rfl, (hwalks Script ⟨[], []⟩).2 50 _ rfl⟩
  case sampling => exact (hsampling Script ⟨[], []⟩ ⟨3, 9, 50⟩ (by decide)).1

end AmountWalk.Amount
