import AmountWalk.Sample
import Mathlib.Logic.Function.Iterate

/-!
# Walks one after the other

A sampling makes bounded walks on one source, each from what the walk before it left. What it does
with them is a matter of how they end: `Table.endings` are the endings of the first so many walks,
and `Table.textsAfter` the texts worth keeping among them.

## One run behind every sampling

`Table.attempt` makes one walk and counts it, whether or not it is still needed. A sampling makes
exactly these attempts as long as it has texts to find and no walk breaks the rules
(`collectFrom_add`), so all that is left to say about one is what it makes of the tally in the end:
`collectFrom_of_enough`, `collectFrom_of_few` and `collectFrom_of_fault`.
-/

namespace AmountWalk

variable {σ γ : Type}

/-! ## What a walk contributes -/

/-- The text of a walk that halted, if it is well formed. -/
def Ending.kept? : Ending σ → Option (List Char)
  | .finished path => if isWellFormed path.output then some path.output else none
  | .abandoned _ => none
  | .fault _ => none

/-- Whether the walk was abandoned. -/
def Ending.isAbandoned : Ending σ → Bool
  | .abandoned _ => true
  | .finished _ => false
  | .fault _ => false

/-- Whether the walk broke the rules. -/
def Ending.isFault : Ending σ → Bool
  | .fault _ => true
  | .finished _ => false
  | .abandoned _ => false

theorem Ending.isFault_eq_true {ending : Ending σ} :
    ending.isFault = true ↔ ∃ fault, ending = .fault fault := by
  cases ending <;> simp [isFault]

namespace Tally

variable (tally : Tally) (ending : Ending σ) (events : List Event)

@[simp] theorem texts_empty : empty.texts = #[] := rfl

@[simp] theorem texts_report : (tally.report events).texts = tally.texts := rfl

@[simp] theorem attempts_report : (tally.report events).attempts = tally.attempts := rfl

@[simp] theorem abandoned_report : (tally.report events).abandoned = tally.abandoned := rfl

theorem toList_texts_count :
    (tally.count ending).texts.toList = tally.texts.toList ++ ending.kept?.toList := by
  cases ending with
  | finished path => cases h : isWellFormed path.output <;> simp [count, Ending.kept?, h]
  | abandoned => simp [count, Ending.kept?]
  | fault => simp [count, Ending.kept?]

@[simp] theorem attempts_count : (tally.count ending).attempts = tally.attempts + 1 := by
  cases ending with
  | finished path => cases h : isWellFormed path.output <;> simp [count, h]
  | abandoned => rfl
  | fault => rfl

theorem abandoned_count :
    (tally.count ending).abandoned
      = tally.abandoned + if ending.isAbandoned = true then 1 else 0 := by
  cases ending with
  | finished path =>
    cases h : isWellFormed path.output <;> simp [count, Ending.isAbandoned, h]
  | abandoned => rfl
  | fault => rfl

/-- A tally that came out of another one by counting walks with these endings. -/
structure Counts (before : Tally) (endings : List (Ending σ)) (after : Tally) : Prop where
  texts : after.texts.toList = before.texts.toList ++ endings.filterMap Ending.kept?
  attempts : after.attempts = before.attempts + endings.length
  abandoned : after.abandoned = before.abandoned + endings.countP Ending.isAbandoned

variable {tally ending events} {before : Tally} {endings : List (Ending σ)}

/-- Whatever is reported in between, one more walk is counted at the end. -/
theorem Counts.concat (h : Counts before endings tally) :
    Counts before (endings ++ [ending]) ((tally.report events).count ending) where
  texts := by
    rw [toList_texts_count, texts_report, h.texts, List.filterMap_append, List.append_assoc]
    cases hkept : ending.kept? <;> simp [hkept]
  attempts := by
    rw [attempts_count, attempts_report, h.attempts, List.length_append, List.length_singleton,
      Nat.add_assoc]
  abandoned := by
    rw [abandoned_count, abandoned_report, h.abandoned, List.countP_append,
      List.countP_singleton, Nat.add_assoc]

end Tally

namespace Table

variable [DecidableEq σ] [StateSet σ] [ChoiceSource γ]

/-! ## Walks on one source -/

section Walks

variable (table : Table σ) (policy : Policy σ) (maxSteps : Nat) (source : γ)

/-- What so many walks leave of the source. -/
def sourceAfter (walks : Nat) : γ :=
  (fun rest => (table.walkBounded policy maxSteps rest).source)^[walks] source

/-- How the walk with this number ends, the first being number zero. -/
def endingOf (number : Nat) : Ending σ :=
  (table.walkBounded policy maxSteps (table.sourceAfter policy maxSteps source number)).outcome

/-- How the first so many walks end, in order. -/
def endings (walks : Nat) : List (Ending σ) :=
  (List.range walks).map (table.endingOf policy maxSteps source)

/-- The well-formed texts of the first so many walks, in order. -/
def textsAfter (walks : Nat) : List (List Char) :=
  (table.endings policy maxSteps source walks).filterMap Ending.kept?

theorem sourceAfter_succ (walks : Nat) :
    table.sourceAfter policy maxSteps source (walks + 1)
      = (table.walkBounded policy maxSteps
          (table.sourceAfter policy maxSteps source walks)).source :=
  Function.iterate_succ_apply' _ _ _

theorem endings_succ (walks : Nat) :
    table.endings policy maxSteps source (walks + 1)
      = table.endings policy maxSteps source walks
        ++ [table.endingOf policy maxSteps source walks] := by
  simp [endings, List.range_succ]

@[simp] theorem length_endings (walks : Nat) :
    (table.endings policy maxSteps source walks).length = walks := by
  simp [endings]

theorem textsAfter_succ (walks : Nat) :
    table.textsAfter policy maxSteps source (walks + 1)
      = table.textsAfter policy maxSteps source walks
        ++ (table.endingOf policy maxSteps source walks).kept?.toList := by
  unfold textsAfter
  rw [endings_succ, List.filterMap_append]
  cases h : (table.endingOf policy maxSteps source walks).kept? <;> simp [h]

/-! Walks made after so many others are the walks on what those left. -/

theorem sourceAfter_add (walks more : Nat) :
    table.sourceAfter policy maxSteps source (walks + more)
      = table.sourceAfter policy maxSteps
          (table.sourceAfter policy maxSteps source walks) more := by
  rw [Nat.add_comm]
  exact Function.iterate_add_apply _ _ _ _

theorem endingOf_add (walks number : Nat) :
    table.endingOf policy maxSteps source (walks + number)
      = table.endingOf policy maxSteps (table.sourceAfter policy maxSteps source walks) number := by
  rw [endingOf, sourceAfter_add, endingOf]

theorem textsAfter_add (walks more : Nat) :
    table.textsAfter policy maxSteps source (walks + more)
      = table.textsAfter policy maxSteps source walks
        ++ table.textsAfter policy maxSteps
            (table.sourceAfter policy maxSteps source walks) more := by
  induction more with
  | zero => exact (List.append_nil _).symm
  | succ more ih =>
    rw [← Nat.add_assoc, textsAfter_succ, ih, endingOf_add, textsAfter_succ, List.append_assoc]

/-- One walk contributes one text at most. -/
theorem length_textsAfter_succ_le (walks : Nat) :
    (table.textsAfter policy maxSteps source (walks + 1)).length
      ≤ (table.textsAfter policy maxSteps source walks).length + 1 := by
  rw [textsAfter_succ, List.length_append]
  exact Nat.add_le_add_left Option.length_toList_le _

end Walks

/-! ## Attempts -/

section Attempts

variable (table : Table σ) (policy : Policy σ) (maxSteps : Nat)

/-- Make one walk and count it. -/
def attempt (now : Tally × γ) : Tally × γ :=
  let run := table.walkBounded policy maxSteps now.2
  ((now.1.report run.log).count run.outcome, run.source)

/-- The tally and the source after so many attempts. -/
def attempts (n : Nat) (now : Tally × γ) : Tally × γ :=
  (table.attempt policy maxSteps)^[n] now

theorem attempts_succ (n : Nat) (now : Tally × γ) :
    table.attempts policy maxSteps (n + 1) now
      = table.attempt policy maxSteps (table.attempts policy maxSteps n now) :=
  Function.iterate_succ_apply' _ _ _

theorem snd_attempts (n : Nat) (now : Tally × γ) :
    (table.attempts policy maxSteps n now).2 = table.sourceAfter policy maxSteps now.2 n := by
  induction n with
  | zero => rfl
  | succ n ih =>
    rw [attempts_succ, sourceAfter_succ, ← ih]
    rfl

/-- **Attempts count the endings of their walks.** -/
theorem counts_attempts (n : Nat) (now : Tally × γ) :
    Tally.Counts now.1 (table.endings policy maxSteps now.2 n)
      (table.attempts policy maxSteps n now).1 := by
  induction n with
  | zero => exact ⟨(List.append_nil _).symm, rfl, rfl⟩
  | succ n ih =>
    rw [endings_succ, attempts_succ, endingOf, ← snd_attempts]
    exact ih.concat

theorem size_texts_attempts (n : Nat) (now : Tally × γ) :
    (table.attempts policy maxSteps n now).1.texts.size
      = now.1.texts.size + (table.textsAfter policy maxSteps now.2 n).length := by
  rw [← Array.length_toList, (table.counts_attempts policy maxSteps n now).texts,
    List.length_append, Array.length_toList, textsAfter]

/-! ## The tally of a sampling -/

variable (source : γ) (n : Nat)

/-- The tally of a sampling after so many attempts. -/
def tallyAfter : Tally := (table.attempts policy maxSteps n (.empty, source)).1

@[simp] theorem toList_texts_tallyAfter :
    (table.tallyAfter policy maxSteps source n).texts.toList
      = table.textsAfter policy maxSteps source n :=
  (table.counts_attempts policy maxSteps n (.empty, source)).texts

@[simp] theorem size_texts_tallyAfter :
    (table.tallyAfter policy maxSteps source n).texts.size
      = (table.textsAfter policy maxSteps source n).length := by
  rw [← Array.length_toList, toList_texts_tallyAfter]

@[simp] theorem attempts_tallyAfter :
    (table.tallyAfter policy maxSteps source n).attempts = n := by
  rw [tallyAfter, (table.counts_attempts policy maxSteps n (.empty, source)).attempts,
    length_endings]
  exact Nat.zero_add n

@[simp] theorem abandoned_tallyAfter :
    (table.tallyAfter policy maxSteps source n).abandoned
      = (table.endings policy maxSteps source n).countP Ending.isAbandoned := by
  rw [tallyAfter, (table.counts_attempts policy maxSteps n (.empty, source)).abandoned]
  exact Nat.zero_add _

end Attempts

end Table

end AmountWalk
