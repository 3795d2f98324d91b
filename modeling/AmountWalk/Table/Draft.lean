import AmountWalk.Table

/-!
# Drafts of tables

A draft collects a start state and transitions step by step. `Draft.build` turns it into a table
after checking it; the first fault wins, in this order:

1. no start state was given;
2. no transition was added;
3. the first state, in declaration order, that has a fault of its own: it is a dead end (it accepts
   nothing and nothing leaves it), or two labels that leave it overlap.

Of several overlapping pairs the first is named: the earliest transition that has an overlap, and
the earliest later transition that overlaps it.
-/

namespace AmountWalk

/-- A table in the making. -/
structure Draft (σ : Type) where
  /-- The start state given last, if any. -/
  start : Option σ
  /-- The transitions added so far, in order. -/
  transitions : List (Transition σ)

/-- One step in making a table. -/
inductive DraftStep (σ : Type) where
  /-- Give the start state. A later one replaces an earlier one. -/
  | start (s : σ)
  /-- Add a transition given by its parts. -/
  | edge (src dst : σ) (label : Label)
  /-- Add a transition. -/
  | transition (t : Transition σ)
  /-- Add several transitions, in order. -/
  | transitions (ts : List (Transition σ))

/-- Why a draft is not a table. -/
inductive BuildError (σ : Type) where
  /-- No start state was given. -/
  | missingStart
  /-- No transition was added. -/
  | noTransitions
  /-- The state accepts nothing and nothing leaves it. -/
  | deadEnd (s : σ)
  /-- Two labels that leave the state overlap. -/
  | overlap (s : σ) (first second : Label)
  deriving DecidableEq

namespace BuildError

variable {σ : Type} [StateSet σ]

/-- The error in words. -/
def message : BuildError σ → String
  | missingStart => "Start state not specified. Call .start(state) before .build()"
  | noTransitions => "No transitions defined. Add at least one transition"
  | deadEnd s => "Non-accepting state '" ++ StateSet.label s ++ "' has no outgoing transition"
  | overlap s first second =>
    "Labels '" ++ String.ofList first.text ++ "' and '" ++ String.ofList second.text
      ++ "' leaving state '" ++ StateSet.label s ++ "' overlap"

end BuildError

namespace Draft

variable {σ : Type}

/-- The draft before the first step. -/
def empty : Draft σ := ⟨none, []⟩

/-- The draft after one more step. -/
def apply (draft : Draft σ) : DraftStep σ → Draft σ
  | .start s => { draft with start := some s }
  | .edge src dst label => { draft with transitions := draft.transitions ++ [⟨src, dst, label⟩] }
  | .transition t => { draft with transitions := draft.transitions ++ [t] }
  | .transitions ts => { draft with transitions := draft.transitions ++ ts }

/-- The draft that a sequence of steps makes. -/
def ofSteps (steps : List (DraftStep σ)) : Draft σ :=
  steps.foldl apply empty

/-- The labels of the first two transitions of a list that overlap. -/
def firstOverlap : List (Transition σ) → Option (Label × Label)
  | [] => none
  | first :: rest =>
    match rest.find? (·.label.overlaps first.label) with
    | some second => some (first.label, second.label)
    | none => firstOverlap rest

/-- No overlap is found exactly when no two transitions of the list overlap. -/
theorem firstOverlap_eq_none_iff {ts : List (Transition σ)} :
    firstOverlap ts = none ↔ ts.Pairwise fun a b => b.label.overlaps a.label = false := by
  induction ts with
  | nil => simp [firstOverlap]
  | cons first rest ih =>
    rw [firstOverlap, List.pairwise_cons, ← ih]
    cases h : rest.find? (·.label.overlaps first.label) with
    | none => simpa using fun _ => by simpa using List.find?_eq_none.mp h
    | some second =>
      have hmem := List.mem_of_find?_eq_some h
      have hov := List.find?_some h
      constructor
      · intro hn; simp at hn
      · intro hn; simp [hn.1 second hmem] at hov

variable [DecidableEq σ] [StateSet σ]

/-- The fault of one state, if it has one. -/
def faultAt (transitions : List (Transition σ)) (s : σ) : Option (BuildError σ) :=
  let outgoing := transitions.filter (·.src == s)
  if outgoing.isEmpty && !StateSet.accepting s then some (.deadEnd s)
  else (firstOverlap outgoing).map fun (first, second) => .overlap s first second

/-- The table of the draft, or its first fault. -/
def build (draft : Draft σ) : Except (BuildError σ) (Table σ) :=
  match draft.start with
  | none => .error .missingStart
  | some start =>
    if draft.transitions.isEmpty then .error .noTransitions
    else
      match (StateSet.all : List σ).findSome? (faultAt draft.transitions) with
      | some fault => .error fault
      | none => .ok ⟨start, draft.transitions⟩

end Draft

end AmountWalk
