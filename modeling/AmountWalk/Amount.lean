import AmountWalk.Policy
import AmountWalk.Table.Draft

/-!
# The automaton of amounts

Reads dollar amounts such as `$10` and `$3.45` and cent amounts such as `7c` and `42c`. States in
parentheses accept.

```text
q0 -$-> q1 -0-----> q2 -.-> q4 -[0-9]-> q5 -[0-9]-> (q6)
         \-[1-9]-> (q3) -.-> q4
                   (q3) -[0-9]-> (q3)
q0 -[1-9]-> q7 -c-> (q8)
             \-[0-9]-> (q9) -c-> (q8)
```

The table has the edge from `q3` to `q4`, so that the diagram shows the whole language. The policy
never takes it: in `q3` a walk appends one more digit or moves silently to `q6`, where it halts.
-/

namespace AmountWalk.Amount

/-- The states of the automaton. -/
inductive State where
  /-- The start. -/
  | q0
  /-- After `$`. -/
  | q1
  /-- After `$0`, where a point must follow. -/
  | q2
  /-- Inside dollars that do not start with zero. -/
  | q3
  /-- After the point. -/
  | q4
  /-- After the first digit of the fraction. -/
  | q5
  /-- A complete amount of dollars. -/
  | q6
  /-- After the first digit of cents. -/
  | q7
  /-- A complete amount of cents. -/
  | q8
  /-- After the second digit of cents. -/
  | q9
  deriving DecidableEq

namespace State

/-- The states in order. -/
def all : List State := [q0, q1, q2, q3, q4, q5, q6, q7, q8, q9]

def label : State → String
  | q0 => "q0" | q1 => "q1" | q2 => "q2" | q3 => "q3" | q4 => "q4"
  | q5 => "q5" | q6 => "q6" | q7 => "q7" | q8 => "q8" | q9 => "q9"

def ident : State → String
  | q0 => "Q0" | q1 => "Q1" | q2 => "Q2" | q3 => "Q3" | q4 => "Q4"
  | q5 => "Q5" | q6 => "Q6" | q7 => "Q7" | q8 => "Q8" | q9 => "Q9"

/-- Whether an amount may end in the state. -/
def accepting : State → Bool
  | q3 | q6 | q8 | q9 => true
  | _ => false

theorem mem_all (s : State) : s ∈ all := by
  cases s <;> decide

theorem ident_injective (s t : State) (h : ident s = ident t) : s = t := by
  have hall : ∀ a ∈ all, ∀ b ∈ all, ident a = ident b → a = b := by decide
  exact hall s (mem_all s) t (mem_all t) h

instance : StateSet State where
  all := all
  label := label
  ident := ident
  accepting := accepting
  mem_all := mem_all
  nodup_all := by decide

instance : DistinctStates State := ⟨ident_injective⟩

end State

open State

/-- The transitions of the automaton. -/
def transitions : List (Transition State) :=
  [⟨q0, q1, .literal '$'⟩,
   ⟨q0, q7, .digits .nonZero⟩,
   ⟨q1, q2, .literal '0'⟩,
   ⟨q1, q3, .digits .nonZero⟩,
   ⟨q2, q4, .literal '.'⟩,
   ⟨q3, q3, .digits .any⟩,
   ⟨q3, q4, .literal '.'⟩,
   ⟨q4, q5, .digits .any⟩,
   ⟨q5, q6, .digits .any⟩,
   ⟨q7, q8, .literal 'c'⟩,
   ⟨q7, q9, .digits .any⟩,
   ⟨q9, q8, .literal 'c'⟩]

/-- The table of the automaton. -/
def table : Table State := ⟨q0, transitions⟩

/-- The table passes the checks of a draft. -/
theorem build_transitions : Draft.build ⟨some q0, transitions⟩ = .ok table := rfl

/-- Where a walk through the automaton goes. -/
def policy : Policy State
  | q0 => .coin fun heads => if heads then .done (.emit q1 '$') else .emitDrawn q7 .nonZero
  | q1 => .coin fun heads => if heads then .done (.emit q2 '0') else .emitDrawn q3 .nonZero
  | q2 => .done (.emit q4 '.')
  | q3 => .coin fun heads => if heads then .emitDrawn q3 .any else .done (.silent q6)
  | q4 => .emitDrawn q5 .any
  | q5 => .emitDrawn q6 .any
  | q7 => .coin fun heads => if heads then .done (.emit q8 'c') else .emitDrawn q9 .any
  | q9 => .done (.emit q8 'c')
  | q6 | q8 => .done .halt

end AmountWalk.Amount
