import AmountWalk.Choice.Script
import AmountWalk.Proofs.Amount.Printed

/-!
# Every amount is printed for some script

`Spells` says which choices make a walk write a text when it goes on in a state, and that the walk
leaves what stands behind them in the script. Since nothing is said of the choices behind, the
choices of a step can be put in front (`Spells.step`), and a script is found state by state, from
the ends of the automaton to its start. Only in `q3` is there an induction: each further digit of whole
dollars takes one more head.

With `printed_of_walk` this makes the printed texts exactly those of `Printed`.
-/

namespace AmountWalk.Amount

open State

/-- In this state, a script that begins with these choices makes a walk write the text and halt. The
walk leaves the rest of the script. -/
def Spells (s : State) (coins : List Bool) (digits : List UInt8) (text : List Char) : Prop :=
  ∀ (path : Path State) (laterCoins : List Bool) (laterDigits : List UInt8), ∃ moves longer,
    table.walkFrom policy moves s path (Script.mk (coins ++ laterCoins) (digits ++ laterDigits))
      = some (.ok longer, Script.mk laterCoins laterDigits) ∧
    longer.output = path.output ++ text

/-! ## One step in front -/

/-- The choices of a step come before those that follow it. -/
theorem Spells.step (step : Step State) {coins : List Bool} {digits : List UInt8}
    {text : List Char} (front : List Bool) (drawn : List UInt8)
    (hadvance : ∀ laterCoins laterDigits,
      table.advance policy step.src (Script.mk (front ++ laterCoins) (drawn ++ laterDigits))
        = (.step step, Script.mk laterCoins laterDigits))
    (h : Spells step.dst coins digits text) :
    Spells step.src (front ++ coins) (drawn ++ digits) (step.emitted.toList ++ text) := by
  intro path laterCoins laterDigits
  obtain ⟨moves, longer, hwalk, houtput⟩ := h (path.record step) laterCoins laterDigits
  refine ⟨moves + 1, longer, ?_, ?_⟩
  · rw [Table.walkFrom, List.append_assoc, List.append_assoc, hadvance]
    exact hwalk
  · rw [houtput, Path.output_record, List.append_assoc]

/-- A step along an edge, with the coins that choose it. -/
theorem Spells.emit (edge : Transition State) {ch : Char} {coins : List Bool}
    {digits : List UInt8} {text : List Char} (front : List Bool) (hmem : edge ∈ transitions)
    (hreads : edge.label.reads ch = true)
    (hmove : ∀ laterCoins laterDigits,
      (policy edge.src).run (Script.mk (front ++ laterCoins) laterDigits)
        = (.emit edge.dst ch, Script.mk laterCoins laterDigits))
    (h : Spells edge.dst coins digits text) :
    Spells edge.src (front ++ coins) digits (ch :: text) :=
  .step ⟨edge.src, edge.dst, some ch⟩ front []
    (fun laterCoins laterDigits =>
      advance_of_emit edge hmem hreads (hmove laterCoins laterDigits)) h

/-- A step that draws a digit takes that digit from the script. -/
theorem Spells.draw (s dst : State) (cls : DigitClass) {digit : UInt8} {coins : List Bool}
    {digits : List UInt8} {text : List Char} (front : List Bool)
    (hmem : ⟨s, dst, .digits cls⟩ ∈ transitions)
    (hmove : ∀ laterCoins laterDigits,
      (policy s).run (Script.mk (front ++ laterCoins) laterDigits)
        = (Draws.emitDrawn dst cls).run (Script.mk laterCoins laterDigits))
    (hdigit : cls.contains digit = true) (h : Spells dst coins digits text) :
    Spells s (front ++ coins) (digit :: digits) (digitChar digit :: text) := by
  have hclamp := DigitClass.clamp_of_contains hdigit
  refine Spells.step ⟨s, dst, some (digitChar digit)⟩ front [digit] ?_ h
  intro laterCoins laterDigits
  refine advance_of_emit ⟨s, dst, .digits cls⟩ hmem (DigitClass.reads_digitChar hdigit) ?_
  -- both the script and the policy clamp, which does nothing to a digit of the class
  have hdrawn : ChoiceSource.digit cls (Script.mk laterCoins (digit :: laterDigits))
      = (digit, Script.mk laterCoins laterDigits) := by
    show (cls.clamp digit, _) = _
    rw [hclamp]
  show (policy s).run (Script.mk (front ++ laterCoins) (digit :: laterDigits)) = _
  rw [hmove, Draws.run_emitDrawn, hdrawn, hclamp]

/-! ## From the ends to the start -/

theorem spells_q6 : Spells q6 [] [] [] :=
  fun path _ _ => ⟨1, path, rfl, (List.append_nil _).symm⟩

theorem spells_q8 : Spells q8 [] [] [] :=
  fun path _ _ => ⟨1, path, rfl, (List.append_nil _).symm⟩

theorem spells_q9 : Spells q9 [] [] ['c'] :=
  .emit ⟨q9, q8, .literal 'c'⟩ [] (by decide) rfl (fun _ _ => rfl) spells_q8

theorem spells_q7_cent : Spells q7 [true] [] ['c'] :=
  .emit ⟨q7, q8, .literal 'c'⟩ [true] (by decide) rfl (fun _ _ => rfl) spells_q8

section Digits

variable {a b : UInt8}

theorem spells_q7_digit (hb : DigitClass.any.contains b = true) :
    Spells q7 [false] [b] [digitChar b, 'c'] :=
  .draw q7 q9 .any [false] (by decide) (fun _ _ => rfl) hb spells_q9

theorem spells_q5 (hb : DigitClass.any.contains b = true) : Spells q5 [] [b] [digitChar b] :=
  .draw q5 q6 .any [] (by decide) (fun _ _ => rfl) hb spells_q6

theorem spells_q4 (ha : DigitClass.any.contains a = true) (hb : DigitClass.any.contains b = true) :
    Spells q4 [] [a, b] [digitChar a, digitChar b] :=
  .draw q4 q5 .any [] (by decide) (fun _ _ => rfl) ha (spells_q5 hb)

theorem spells_q2 (ha : DigitClass.any.contains a = true) (hb : DigitClass.any.contains b = true) :
    Spells q2 [] [a, b] ['.', digitChar a, digitChar b] :=
  .emit ⟨q2, q4, .literal '.'⟩ [] (by decide) rfl (fun _ _ => rfl) (spells_q4 ha hb)

/-- In whole dollars a head asks for one more digit, and a tail ends them. -/
theorem spells_q3 : ∀ {digits : List UInt8}, (∀ d ∈ digits, DigitClass.any.contains d = true) →
    Spells q3 (List.replicate digits.length true ++ [false]) digits (digits.map digitChar)
  | [], _ =>
    .step ⟨q3, q6, none⟩ [false] [] (fun _ _ => rfl) spells_q6
  | d :: digits, h =>
    .draw q3 q3 .any [true] (by decide) (fun _ _ => rfl) (h d List.mem_cons_self)
      (spells_q3 fun e he => h e (List.mem_cons_of_mem _ he))

theorem spells_fraction (ha : DigitClass.any.contains a = true)
    (hb : DigitClass.any.contains b = true) :
    Spells q0 [true, true] [a, b] ['$', '0', '.', digitChar a, digitChar b] :=
  .emit ⟨q0, q1, .literal '$'⟩ [true] (by decide) rfl (fun _ _ => rfl)
    (.emit ⟨q1, q2, .literal '0'⟩ [true] (by decide) rfl (fun _ _ => rfl) (spells_q2 ha hb))

theorem spells_whole {digits : List UInt8} (ha : DigitClass.nonZero.contains a = true)
    (h : ∀ d ∈ digits, DigitClass.any.contains d = true) :
    Spells q0 (true :: false :: (List.replicate digits.length true ++ [false])) (a :: digits)
      ('$' :: digitChar a :: digits.map digitChar) :=
  .emit ⟨q0, q1, .literal '$'⟩ [true] (by decide) rfl (fun _ _ => rfl)
    (.draw q1 q3 .nonZero [false] (by decide) (fun _ _ => rfl) ha (spells_q3 h))

theorem spells_cent (ha : DigitClass.nonZero.contains a = true) :
    Spells q0 [false, true] [a] [digitChar a, 'c'] :=
  .draw q0 q7 .nonZero [false] (by decide) (fun _ _ => rfl) ha spells_q7_cent

theorem spells_cents (ha : DigitClass.nonZero.contains a = true)
    (hb : DigitClass.any.contains b = true) :
    Spells q0 [false, false] [a, b] [digitChar a, digitChar b, 'c'] :=
  .draw q0 q7 .nonZero [false] (by decide) (fun _ _ => rfl) ha (spells_q7_digit hb)

end Digits

/-! ## Every amount -/

theorem exists_any_digit {ch : Char} (h : IsDigit ch) :
    ∃ digit, DigitClass.any.contains digit = true ∧ digitChar digit = ch :=
  DigitClass.exists_digit_of_reads (DigitClass.reads_any_iff.mpr h)

theorem exists_nonZero_digit {ch : Char} (h : IsLeading ch) :
    ∃ digit, DigitClass.nonZero.contains digit = true ∧ digitChar digit = ch :=
  DigitClass.exists_digit_of_reads (DigitClass.reads_nonZero_iff.mpr h)

/-- A text of digits is written by its digits. -/
theorem exists_digits : ∀ {text : List Char}, (∀ ch ∈ text, IsDigit ch) →
    ∃ digits : List UInt8, (∀ d ∈ digits, DigitClass.any.contains d = true) ∧
      digits.map digitChar = text
  | [], _ => ⟨[], fun _ hmem => absurd hmem List.not_mem_nil, rfl⟩
  | ch :: rest, h => by
    obtain ⟨digits, hdigits, rfl⟩ :=
      exists_digits fun other hmem => h other (List.mem_cons_of_mem _ hmem)
    obtain ⟨d, hd, rfl⟩ := exists_any_digit (h ch List.mem_cons_self)
    refine ⟨d :: digits, fun e hmem => ?_, rfl⟩
    rcases List.mem_cons.mp hmem with rfl | hmem
    · exact hd
    · exact hdigits e hmem

/-- **Every amount is spelled by some choices.** -/
theorem exists_spells {text : List Char} (h : Printed text) :
    ∃ coins digits, Spells q0 coins digits text := by
  cases h with
  | fraction ha hb =>
    obtain ⟨a, hdigit, rfl⟩ := exists_any_digit ha
    obtain ⟨b, hdigit', rfl⟩ := exists_any_digit hb
    exact ⟨_, _, spells_fraction hdigit hdigit'⟩
  | whole hnumber =>
    cases hnumber with
    | cons hfirst hrest =>
      obtain ⟨a, hdigit, rfl⟩ := exists_nonZero_digit hfirst
      obtain ⟨digits, hdigits, rfl⟩ := exists_digits hrest
      exact ⟨_, _, spells_whole hdigit hdigits⟩
  | cent ha =>
    obtain ⟨a, hdigit, rfl⟩ := exists_nonZero_digit ha
    exact ⟨_, _, spells_cent hdigit⟩
  | cents ha hb =>
    obtain ⟨a, hdigit, rfl⟩ := exists_nonZero_digit ha
    obtain ⟨b, hdigit', rfl⟩ := exists_any_digit hb
    exact ⟨_, _, spells_cents hdigit hdigit'⟩

/-- Choices that spell a text from the start make a walk print it. -/
theorem Spells.generates {coins : List Bool} {digits : List UInt8} {text : List Char}
    (h : Spells q0 coins digits text) :
    table.Generates policy (Script.mk coins digits) text := by
  obtain ⟨moves, path, hwalk, houtput⟩ := h .empty [] []
  rw [List.append_nil, List.append_nil] at hwalk
  refine ⟨moves, Script.mk [] [], [table.finishedEvent path], ?_⟩
  rw [Path.output_empty, List.nil_append] at houtput
  have hwalk' : table.walkFrom policy moves table.start .empty (Script.mk coins digits)
      = some (.ok path, Script.mk [] []) := hwalk
  rw [Table.generate, Table.walk, hwalk', ← houtput]
  rfl

/-- What is generated is an amount. -/
theorem printed_of_generates {γ : Type} [ChoiceSource γ] {source : γ} {text : List Char}
    (h : table.Generates policy source text) : Printed text := by
  obtain ⟨moves, rest, log, hgenerate⟩ := h
  obtain ⟨run, hwalk, hrun⟩ := Option.map_eq_some_iff.mp hgenerate
  obtain ⟨path, hok, hprinted⟩ := printed_of_walk hwalk
  rw [hok] at hrun
  cases hrun
  exact hprinted

/-- **Scripts generate exactly the amounts.** -/
theorem printed_iff_exists_script {text : List Char} :
    Printed text ↔ ∃ script : Script, table.Generates policy script text := by
  constructor
  · intro h
    obtain ⟨coins, digits, hspells⟩ := exists_spells h
    exact ⟨_, hspells.generates⟩
  · rintro ⟨script, h⟩
    exact printed_of_generates h

/-- Other sources generate nothing that no script generates. -/
theorem printed_iff_exists_source {text : List Char} :
    Printed text
      ↔ ∃ (γ : Type) (_ : ChoiceSource γ) (source : γ), table.Generates policy source text := by
  constructor
  · intro h
    obtain ⟨script, hscript⟩ := printed_iff_exists_script.mp h
    exact ⟨Script, inferInstance, script, hscript⟩
  · rintro ⟨γ, _, source, h⟩
    exact printed_of_generates h

/-- **The language of the generator:** whatever the source, a walk that ends has printed an amount,
and every amount is what some script, hence what some source, generates. -/
theorem generator_language :
    (∀ (γ : Type) [ChoiceSource γ] (source : γ) (moves : Nat)
        (run : Run γ (Except (Fault State) (Path State))),
      table.walk policy moves source = some run →
        ∃ path, run.outcome = .ok path ∧ Printed path.output) ∧
    (∀ text, Printed text → ∃ script : Script, table.Generates policy script text) ∧
    (∀ text, Printed text ↔
      ∃ (γ : Type) (_ : ChoiceSource γ) (source : γ), table.Generates policy source text) :=
  ⟨fun _ _ _ _ _ h => printed_of_walk h, fun _ => printed_iff_exists_script.mp,
    fun _ => printed_iff_exists_source⟩

end AmountWalk.Amount
