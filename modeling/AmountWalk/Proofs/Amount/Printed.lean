import AmountWalk.Proofs.Amount.Moves

/-!
# What a walk prints is an amount

Four shapes of text are `Printed`: less than a dollar with two digits behind the point, whole
dollars, and one or two digits of cents.

A walk that halts has printed one of them, whatever the source answered. The invariant is `Written`,
which says for each state what the text can be so far; whole dollars may be of any length, so it is
an invariant about the text and not a list of texts.
-/

namespace AmountWalk.Amount

open State

/-! ## Shapes -/

/-- A number of at least one digit that does not start with zero. -/
inductive IsWhole : List Char → Prop where
  | cons {first : Char} {rest : List Char} (hfirst : IsLeading first)
      (hrest : ∀ ch ∈ rest, IsDigit ch) : IsWhole (first :: rest)

/-- The texts that a walk prints. -/
inductive Printed : List Char → Prop where
  /-- Less than a dollar. -/
  | fraction {a b : Char} (ha : IsDigit a) (hb : IsDigit b) : Printed ['$', '0', '.', a, b]
  /-- Whole dollars. -/
  | whole {number : List Char} (hnumber : IsWhole number) : Printed ('$' :: number)
  /-- One digit of cents. -/
  | cent {a : Char} (ha : IsLeading a) : Printed [a, 'c']
  /-- Two digits of cents. -/
  | cents {a b : Char} (ha : IsLeading a) (hb : IsDigit b) : Printed [a, b, 'c']

/-- A number is prolonged by a digit. -/
theorem IsWhole.concat {number : List Char} {ch : Char} (h : IsWhole number)
    (hch : IsDigit ch) : IsWhole (number ++ [ch]) := by
  cases h with
  | cons hfirst hrest =>
    rw [List.cons_append]
    refine .cons hfirst fun other hmem => ?_
    rcases List.mem_append.mp hmem with hmem | hmem
    · exact hrest other hmem
    · rw [List.mem_singleton.mp hmem]
      exact hch

/-! ## The text so far -/

/-- The texts that a walk can have written when it stands in a state. -/
inductive Written : State → List Char → Prop where
  | start : Written q0 []
  | dollar : Written q1 ['$']
  | zero : Written q2 ['$', '0']
  | whole {number : List Char} (hnumber : IsWhole number) : Written q3 ('$' :: number)
  | point : Written q4 ['$', '0', '.']
  | tenth {a : Char} (ha : IsDigit a) : Written q5 ['$', '0', '.', a]
  | dollars {text : List Char} (htext : Printed text) : Written q6 text
  | firstCent {a : Char} (ha : IsLeading a) : Written q7 [a]
  | cents {text : List Char} (htext : Printed text) : Written q8 text
  | secondCent {a b : Char} (ha : IsLeading a) (hb : IsDigit b) : Written q9 [a, b]

/-- Each step writes on. -/
theorem Written.step {text : List Char} {step : Step State} (htakes : Takes step)
    (h : Written step.src text) : Written step.dst (text ++ step.emitted.toList) := by
  cases htakes with
  | dollar => cases h; exact .dollar
  | firstCent hch => cases h; exact .firstCent hch
  | zero => cases h; exact .zero
  | firstDollar hch =>
    cases h
    exact .whole (.cons hch fun ch hmem => absurd hmem List.not_mem_nil)
  | point => cases h; exact .point
  | nextDollar hch =>
    cases h with
    | whole hnumber => exact .whole (hnumber.concat hch)
  | whole =>
    cases h with
    | whole hnumber =>
      refine .dollars ?_
      rw [Option.toList_none, List.append_nil]
      exact .whole hnumber
  | tenth hch => cases h; exact .tenth hch
  | hundredth hch =>
    cases h with
    | tenth ha => exact .dollars (.fraction ha hch)
  | cent =>
    cases h with
    | firstCent ha => exact .cents (.cent ha)
  | secondCent hch =>
    cases h with
    | firstCent ha => exact .secondCent ha hch
  | cents =>
    cases h with
    | secondCent ha hb => exact .cents (.cents ha hb)

/-- At a complete amount the text is complete. -/
theorem Written.printed {text : List Char} {s : State} (h : Written s text)
    (hend : s = q6 ∨ s = q8) : Printed text := by
  cases h with
  | dollars htext => exact htext
  | cents htext => exact htext
  | _ => rcases hend with hend | hend <;> cases hend

/-! ## Every walk -/

variable {γ : Type} [ChoiceSource γ]

/-- What the text of a walk can be while it is under way, and once it has ended. -/
def WrittenProgress : Progress State γ → Prop
  | .going s path _ => Written s path.output
  | .halted _ path _ => Printed path.output
  | .faulted .. => False

theorem writtenProgress_of_proceeds {before after : Progress State γ}
    (hmove : Table.Proceeds table policy before after) (h : WrittenProgress before) :
    WrittenProgress after := by
  cases hmove with
  | step ha =>
    obtain ⟨rfl, _⟩ := Table.judge_eq_step (congrArg Prod.fst ha)
    show Written _ (Path.record _ _).output
    rw [Path.output_record]
    exact Written.step (takes_of_advance ha) h
  | halt ha => exact Written.printed h (end_of_advance ha)
  | fault ha => exact absurd ha advance_ne_fault
  | halted => exact h
  | faulted => exact h

theorem writtenProgress_progress (moves : Nat) (source : γ) :
    WrittenProgress (table.progress policy moves source) := by
  refine Table.progress_invariant WrittenProgress ?_ (fun _ _ => writtenProgress_of_proceeds) moves
  exact Written.start

/-- **A walk that ends has printed an amount,** for every source of choices. -/
theorem printed_of_walk {moves : Nat} {source : γ}
    {run : Run γ (Except (Fault State) (Path State))}
    (h : table.walk policy moves source = some run) :
    ∃ path, run.outcome = .ok path ∧ Printed path.output := by
  obtain ⟨s, path, hp, hok⟩ := halted_of_walk h
  have hwritten := writtenProgress_progress moves source
  rw [hp] at hwritten
  exact ⟨path, hok, hwritten⟩

end AmountWalk.Amount
