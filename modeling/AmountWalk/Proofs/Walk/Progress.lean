import AmountWalk.Walk
import Mathlib.Logic.Function.Iterate

/-!
# Walks under way

A walk makes one move after the other until it ends. `Progress` is what there is of it after some
moves, and `Table.proceed` makes one more. A walk that has ended stays as it is.

## One run behind both kinds of walks

Neither kind of walk has a run of its own. The unbounded walk looks at the progress after as many
moves as it was given (`walkFrom_eq`); the bounded one looks at the progress after its last step and
lets one more move decide (`walkBoundedFrom_eq`). So whatever `proceed` preserves holds at every
moment of every walk (`progress_invariant`).

## Counting

Every move but the last one records a step. A walk under way has as many steps as moves
(`length_of_going`), and a walk that halted has made one move more than it has steps
(`progress_of_halted`).
-/

namespace AmountWalk

/-- What there is of a walk after some moves. -/
inductive Progress (σ γ : Type) where
  /-- It goes on from this state, with this path behind it. -/
  | going (s : σ) (path : Path σ) (source : γ)
  /-- It halted in this state. -/
  | halted (s : σ) (path : Path σ) (source : γ)
  /-- Its last move broke the rules. -/
  | faulted (fault : Fault σ) (path : Path σ) (source : γ)

namespace Progress

variable {σ γ : Type}

/-- What is left of the source. -/
def source : Progress σ γ → γ
  | going _ _ source | halted _ _ source | faulted _ _ source => source

/-- The answer of an unbounded walk, once it has ended. -/
def answer? : Progress σ γ → Option (Except (Fault σ) (Path σ) × γ)
  | going .. => none
  | halted _ path source => some (.ok path, source)
  | faulted fault _ source => some (.error fault, source)

end Progress

namespace Table

variable {σ γ : Type} [DecidableEq σ] [StateSet σ] [ChoiceSource γ]

/-- One more move. -/
def proceed (table : Table σ) (policy : Policy σ) : Progress σ γ → Progress σ γ
  | .going s path source =>
    match table.advance policy s source with
    | (.step step, rest) => .going step.dst (path.record step) rest
    | (.halt, rest) => .halted s path rest
    | (.fault fault, rest) => .faulted fault path rest
  | .halted s path source => .halted s path source
  | .faulted fault path source => .faulted fault path source

/-- A walk from the start after so many moves. -/
def progress (table : Table σ) (policy : Policy σ) (moves : Nat) (source : γ) : Progress σ γ :=
  (table.proceed policy)^[moves] (.going table.start .empty source)

/-- How a bounded walk ends that may record no further step: by one move more. -/
def close (table : Table σ) (policy : Policy σ) : Progress σ γ → Ending σ × γ
  | .going s path source =>
    match table.advance policy s source with
    | (.step _, rest) => (.abandoned s, rest)
    | (.halt, rest) => (.finished path, rest)
    | (.fault fault, rest) => (.fault fault, rest)
  | .halted _ path source => (.finished path, source)
  | .faulted fault _ source => (.fault fault, source)

variable {table : Table σ} {policy : Policy σ}

/-! ## One move -/

section Move

variable {s : σ} {path : Path σ} {source rest : γ}

theorem proceed_of_step {step : Step σ} (h : table.advance policy s source = (.step step, rest)) :
    table.proceed policy (.going s path source) = .going step.dst (path.record step) rest := by
  rw [proceed, h]

theorem proceed_of_halt (h : table.advance policy s source = (.halt, rest)) :
    table.proceed policy (.going s path source) = .halted s path rest := by
  rw [proceed, h]

theorem proceed_of_fault {fault : Fault σ}
    (h : table.advance policy s source = (.fault fault, rest)) :
    table.proceed policy (.going s path source) = .faulted fault path rest := by
  rw [proceed, h]

/-- A walk that halted makes no more moves. -/
@[simp] theorem iterate_proceed_halted (moves : Nat) :
    (table.proceed policy)^[moves] (.halted s path source) = .halted s path source :=
  Function.iterate_fixed rfl moves

/-- A walk that broke the rules makes no more moves. -/
@[simp] theorem iterate_proceed_faulted {fault : Fault σ} (moves : Nat) :
    (table.proceed policy)^[moves] (.faulted fault path source) = .faulted fault path source :=
  Function.iterate_fixed rfl moves

/-- What one move makes of a walk. -/
inductive Proceeds (table : Table σ) (policy : Policy σ) : Progress σ γ → Progress σ γ → Prop where
  /-- A step is recorded. -/
  | step {s : σ} {path : Path σ} {source rest : γ} {step : Step σ}
      (h : table.advance policy s source = (.step step, rest)) :
      Proceeds table policy (.going s path source) (.going step.dst (path.record step) rest)
  /-- The walk halts where it is. -/
  | halt {s : σ} {path : Path σ} {source rest : γ}
      (h : table.advance policy s source = (.halt, rest)) :
      Proceeds table policy (.going s path source) (.halted s path rest)
  /-- The move breaks the rules. -/
  | fault {s : σ} {path : Path σ} {source rest : γ} {fault : Fault σ}
      (h : table.advance policy s source = (.fault fault, rest)) :
      Proceeds table policy (.going s path source) (.faulted fault path rest)
  /-- The walk had halted before. -/
  | halted {s : σ} {path : Path σ} {source : γ} :
      Proceeds table policy (.halted s path source) (.halted s path source)
  /-- The walk had broken the rules before. -/
  | faulted {fault : Fault σ} {path : Path σ} {source : γ} :
      Proceeds table policy (.faulted fault path source) (.faulted fault path source)

theorem proceeds_proceed (table : Table σ) (policy : Policy σ) (progress : Progress σ γ) :
    Proceeds table policy progress (table.proceed policy progress) := by
  cases progress with
  | going s path source =>
    cases h : table.advance policy s source with
    | mk advance rest =>
      cases advance with
      | step step => rw [proceed_of_step h]; exact .step h
      | halt => rw [proceed_of_halt h]; exact .halt h
      | fault fault => rw [proceed_of_fault h]; exact .fault h
  | halted => exact .halted
  | faulted => exact .faulted

/-! ## Both walks look at the same run -/

/-- **An unbounded walk tells the progress after its moves.** -/
theorem walkFrom_eq (moves : Nat) :
    table.walkFrom policy moves s path source
      = ((table.proceed policy)^[moves] (.going s path source)).answer? := by
  induction moves generalizing s path source with
  | zero => rfl
  | succ moves ih =>
    rw [walkFrom, Function.iterate_succ_apply]
    cases h : table.advance policy s source with
    | mk advance rest =>
      cases advance with
      | step step => rw [proceed_of_step h]; exact ih
      | halt => rw [proceed_of_halt h, iterate_proceed_halted]; rfl
      | fault fault => rw [proceed_of_fault h, iterate_proceed_faulted]; rfl

/-- **A bounded walk closes the progress after its steps.** -/
theorem walkBoundedFrom_eq (steps : Nat) :
    table.walkBoundedFrom policy steps s path source
      = table.close policy ((table.proceed policy)^[steps] (.going s path source)) := by
  induction steps generalizing s path source with
  | zero =>
    rw [walkBoundedFrom, Function.iterate_zero_apply, close]
    cases table.advance policy s source with
    | mk advance rest => cases advance <;> rfl
  | succ steps ih =>
    rw [walkBoundedFrom, Function.iterate_succ_apply]
    cases h : table.advance policy s source with
    | mk advance rest =>
      cases advance with
      | step step => rw [proceed_of_step h]; exact ih
      | halt => rw [proceed_of_halt h, iterate_proceed_halted]; rfl
      | fault fault => rw [proceed_of_fault h, iterate_proceed_faulted]; rfl

end Move

/-! ## Walks from the start -/

theorem progress_zero (source : γ) :
    table.progress policy 0 source = .going table.start .empty source := rfl

theorem progress_succ (moves : Nat) (source : γ) :
    table.progress policy (moves + 1) source
      = table.proceed policy (table.progress policy moves source) :=
  Function.iterate_succ_apply' _ _ _

theorem proceeds_progress (table : Table σ) (policy : Policy σ) (moves : Nat) (source : γ) :
    Proceeds table policy (table.progress policy moves source)
      (table.progress policy (moves + 1) source) := by
  rw [progress_succ]
  exact proceeds_proceed table policy _

/-- **What every move preserves holds after any number of them.** -/
theorem progress_invariant (Inv : Progress σ γ → Prop) {source : γ}
    (hstart : Inv (.going table.start .empty source))
    (hproceeds : ∀ before after, Proceeds table policy before after → Inv before → Inv after)
    (moves : Nat) : Inv (table.progress policy moves source) := by
  induction moves with
  | zero => exact hstart
  | succ moves ih => exact hproceeds _ _ (proceeds_progress table policy moves source) ih

variable {moves more : Nat} {s : σ} {path : Path σ} {source rest : γ} {fault : Fault σ}

theorem progress_add (moves more : Nat) (source : γ) :
    table.progress policy (moves + more) source
      = (table.proceed policy)^[more] (table.progress policy moves source) := by
  rw [Nat.add_comm]
  exact Function.iterate_add_apply _ _ _ _

-- The two halves of "ended is ended": what `iterate_proceed_halted` and `iterate_proceed_faulted`
-- say of one progress, for two numbers of moves.
theorem progress_halted_mono (h : table.progress policy moves source = .halted s path rest)
    (hle : moves ≤ more) : table.progress policy more source = .halted s path rest := by
  rw [← Nat.add_sub_cancel' hle, progress_add, h, iterate_proceed_halted]

theorem progress_faulted_mono
    (h : table.progress policy moves source = .faulted fault path rest) (hle : moves ≤ more) :
    table.progress policy more source = .faulted fault path rest := by
  rw [← Nat.add_sub_cancel' hle, progress_add, h, iterate_proceed_faulted]

/-! ## Counting -/

/-- **A walk under way has as many steps as moves.** -/
theorem length_of_going (h : table.progress policy moves source = .going s path rest) :
    path.length = moves := by
  induction moves generalizing s path rest with
  | zero =>
    rw [progress_zero] at h
    cases h
    rfl
  | succ moves ih =>
    have hmove := proceeds_progress table policy moves source
    rw [h] at hmove
    generalize hbefore : table.progress policy moves source = before at hmove
    -- only a step leaves a walk under way
    cases hmove with
    | step _ => rw [Path.length_record, ih hbefore]

/-- **A walk halts with its first move after its steps.** -/
theorem progress_of_halted (h : table.progress policy moves source = .halted s path rest) :
    path.length < moves ∧
      table.progress policy (path.length + 1) source = .halted s path rest := by
  induction moves with
  | zero => rw [progress_zero] at h; cases h
  | succ moves ih =>
    have hmove := proceeds_progress table policy moves source
    rw [h] at hmove
    generalize hbefore : table.progress policy moves source = before at hmove
    cases hmove with
    | halt _ =>
      rw [length_of_going hbefore]
      exact ⟨Nat.lt_succ_self _, h⟩
    | halted =>
      obtain ⟨hlt, hhalted⟩ := ih hbefore
      exact ⟨Nat.lt_succ_of_lt hlt, hhalted⟩

end Table

end AmountWalk
