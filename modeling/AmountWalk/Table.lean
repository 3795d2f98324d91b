import AmountWalk.Label
import AmountWalk.StateSet

/-!
# Transition tables

The table of a finite automaton: a start state and labelled transitions, in the order in which they
were added. A table reads a text character by character, always along the first transition that
reads the next character.

The table of a `Draft` that passes `Draft.build` is deterministic. Nothing here asks for that, since
a table may also come from an exported text that nobody has checked.
-/

namespace AmountWalk

/-- One labelled transition. -/
structure Transition (σ : Type) where
  /-- The state it leaves. -/
  src : σ
  /-- The state it enters. -/
  dst : σ
  /-- What it reads. -/
  label : Label
  deriving DecidableEq

/-- A start state and transitions, in order. -/
structure Table (σ : Type) where
  /-- Where every reading starts. -/
  start : σ
  /-- The transitions, in the order in which they were added. -/
  transitions : List (Transition σ)
  deriving DecidableEq

variable {σ : Type} [DecidableEq σ]

/-- Whether the transition leaves the state on the character. -/
def Transition.accepts (t : Transition σ) (s : σ) (ch : Char) : Bool :=
  t.src == s && t.label.reads ch

namespace Table

/-- The transitions that leave a state, in table order. -/
def outgoing (table : Table σ) (s : σ) : List (Transition σ) :=
  table.transitions.filter (·.src == s)

/-- The first transition that leaves the state on the character. -/
def transitionOn (table : Table σ) (s : σ) (ch : Char) : Option (Transition σ) :=
  table.transitions.find? (·.accepts s ch)

/-- The accepting states, in declaration order. -/
def acceptingStates [StateSet σ] (_table : Table σ) : List σ :=
  StateSet.all.filter StateSet.accepting

/-! ## Reading a text -/

/-- The state reached by reading a text from a state, unless the reading gets stuck. -/
def runFrom (table : Table σ) : σ → List Char → Option σ
  | s, [] => some s
  | s, ch :: rest => (table.transitionOn s ch).bind fun t => table.runFrom t.dst rest

/-- Whether the text leads from the start to an accepting state. -/
def accepts [StateSet σ] (table : Table σ) (text : List Char) : Bool :=
  (table.runFrom table.start text).any StateSet.accepting

/-- What a reading enters: a state for each character, or `none` for the character on which it got
stuck and stopped. With them comes the last state that it was in. -/
def visitFrom (table : Table σ) : σ → List Char → List (Option σ) × σ
  | s, [] => ([], s)
  | s, ch :: rest =>
    match table.transitionOn s ch with
    | none => ([none], s)
    | some t =>
      let later := table.visitFrom t.dst rest
      (some t.dst :: later.1, later.2)

theorem transitionOn_eq_some {table : Table σ} {s : σ} {ch : Char} {t : Transition σ}
    (h : table.transitionOn s ch = some t) : t ∈ table.transitions ∧ t.accepts s ch = true := by
  have hreads := List.find?_some h
  exact ⟨List.mem_of_find?_eq_some h, hreads⟩

@[simp] theorem runFrom_nil (table : Table σ) (s : σ) : table.runFrom s [] = some s := rfl

theorem runFrom_cons (table : Table σ) (s : σ) (ch : Char) (rest : List Char) :
    table.runFrom s (ch :: rest)
      = (table.transitionOn s ch).bind fun t => table.runFrom t.dst rest := rfl

/-- A text is read by reading its parts one after the other. -/
theorem runFrom_append (table : Table σ) (s : σ) (front back : List Char) :
    table.runFrom s (front ++ back)
      = (table.runFrom s front).bind fun mid => table.runFrom mid back := by
  induction front generalizing s with
  | nil => simp
  | cons ch rest ih =>
    simp only [List.cons_append, runFrom_cons]
    cases table.transitionOn s ch with
    | none => rfl
    | some t => simpa using ih t.dst

end Table

end AmountWalk
