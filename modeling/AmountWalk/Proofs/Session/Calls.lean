import AmountWalk.Sample

/-!
# Sessions

A session is a sequence of calls on one walker: each call goes on with what the calls before it left
of the source. A call that breaks the rules is a reply like any other, and the session goes on behind
it. Unbounded walks take a number of moves, and there is no answer when it does not suffice for one
of them; more moves than enough change nothing (`session_mono`).
-/

namespace AmountWalk

/-- The same run with something made of what came out. -/
def Run.map {γ α β : Type} (f : α → β) (run : Run γ α) : Run γ β :=
  ⟨f run.outcome, run.source, run.log⟩

/-- What a walker can be asked to do. -/
inductive Call where
  /-- Walk until the policy halts. -/
  | walk
  /-- Walk, and abandon a walk of more than so many steps. -/
  | walkBounded (maxSteps : Nat)
  /-- Walk, and keep the text only. -/
  | generate
  /-- Collect well-formed texts. -/
  | collect (config : SampleConfig)

/-- What a call comes to. -/
inductive Reply (σ : Type) where
  /-- The path of a walk. -/
  | walk (answer : Except (Fault σ) (Path σ))
  /-- How a bounded walk ended. -/
  | walkBounded (ending : Ending σ)
  /-- The text of a walk. -/
  | generate (answer : Except (Fault σ) (List Char))
  /-- The texts of a sampling. -/
  | collect (answer : Except (SampleError σ) (List (List Char)))

namespace Table

variable {σ γ : Type} [DecidableEq σ] [StateSet σ] [ChoiceSource γ]

/-- Answer one call. -/
def call (table : Table σ) (policy : Policy σ) (moves : Nat) (source : γ) :
    Call → Option (Run γ (Reply σ))
  | .walk => (table.walk policy moves source).map (Run.map .walk)
  | .walkBounded maxSteps => some ((table.walkBounded policy maxSteps source).map .walkBounded)
  | .generate => (table.generate policy moves source).map (Run.map .generate)
  | .collect config => some ((table.collect policy config source).map .collect)

/-- Answer calls one after the other. -/
def session (table : Table σ) (policy : Policy σ) (moves : Nat) :
    List Call → γ → Option (Run γ (List (Reply σ)))
  | [], source => some ⟨[], source, []⟩
  | call :: calls, source =>
    (table.call policy moves source call).bind fun run =>
      (session table policy moves calls run.source).map fun later =>
        ⟨run.outcome :: later.outcome, later.source, run.log ++ later.log⟩

variable {table : Table σ} {policy : Policy σ} {moves more : Nat} {source : γ}

theorem walk_mono {run : Run γ (Except (Fault σ) (Path σ))}
    (h : table.walk policy moves source = some run) (hle : moves ≤ more) :
    table.walk policy more source = some run := by
  obtain ⟨answer, hanswer, hrun⟩ := Option.map_eq_some_iff.mp h
  rw [walk, walkFrom_mono hanswer hle, Option.map_some, hrun]

theorem call_mono {call : Call} {run : Run γ (Reply σ)}
    (h : table.call policy moves source call = some run) (hle : moves ≤ more) :
    table.call policy more source call = some run := by
  cases call with
  | walk =>
    obtain ⟨walked, hwalk, hrun⟩ := Option.map_eq_some_iff.mp h
    rw [Table.call, walk_mono hwalk hle, Option.map_some, hrun]
  | walkBounded maxSteps => exact h
  | generate =>
    obtain ⟨text, htext, hrun⟩ := Option.map_eq_some_iff.mp h
    obtain ⟨walked, hwalk, hgenerate⟩ := Option.map_eq_some_iff.mp htext
    rw [Table.call, generate, walk_mono hwalk hle, Option.map_some, hgenerate, Option.map_some,
      hrun]
  | collect config => exact h

theorem session_mono {calls : List Call} {run : Run γ (List (Reply σ))}
    (h : table.session policy moves calls source = some run) (hle : moves ≤ more) :
    table.session policy more calls source = some run := by
  induction calls generalizing source run with
  | nil => exact h
  | cons call calls ih =>
    obtain ⟨first, hfirst, hrest⟩ := Option.bind_eq_some_iff.mp h
    obtain ⟨later, hlater, hrun⟩ := Option.map_eq_some_iff.mp hrest
    rw [session, call_mono hfirst hle, Option.bind_some, ih hlater, Option.map_some, hrun]

end Table

end AmountWalk
