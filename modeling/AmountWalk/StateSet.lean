/-!
# Closed sets of states

The states of an automaton form a closed set, listed in declaration order. A state has a *label*,
shown in diagrams and messages, and an *identifier*, which stands for it in exported texts. Neither is
necessarily unique. An identifier is read as the first state that has it, and so as the state for which
it was written if no two states share one, which `DistinctStates` says.

The instance `Roster` makes such a set out of a list of declarations.
-/

namespace AmountWalk

/-- A closed set of states. -/
class StateSet (σ : Type) where
  /-- Every state, in declaration order. -/
  all : List σ
  /-- The label of a state. -/
  label : σ → String
  /-- Whether a text may end in the state. -/
  accepting : σ → Bool
  /-- The identifier of a state. -/
  ident : σ → String
  /-- No state is left out. -/
  mem_all : ∀ s, s ∈ all
  /-- No state is listed twice. -/
  nodup_all : all.Nodup

/-- A set of states that their identifiers tell apart. -/
class DistinctStates (σ : Type) [StateSet σ] : Prop where
  /-- No two states share an identifier. -/
  ident_injective : ∀ s t : σ, StateSet.ident s = StateSet.ident t → s = t

/-! ## Declared sets -/

/-- The declaration of one state. -/
structure Declaration where
  ident : String
  label : String
  /-- Whether a text may end in it. -/
  accepting : Bool

/-- A set of states given by their declarations, in order. -/
structure Roster where
  declarations : List Declaration

namespace Roster

/-- A state of the roster: the place of its declaration. -/
structure State (r : Roster) where
  /-- The place in the list of declarations. -/
  place : Fin r.declarations.length
  deriving DecidableEq

namespace State

variable {r : Roster}

def declaration (s : r.State) : Declaration :=
  r.declarations[s.place]

instance : StateSet r.State where
  all := (List.finRange r.declarations.length).map State.mk
  label s := s.declaration.label
  accepting s := s.declaration.accepting
  ident s := s.declaration.ident
  mem_all s := List.mem_map.mpr ⟨s.place, List.mem_finRange _, rfl⟩
  nodup_all :=
    List.pairwise_map.mpr ((List.nodup_finRange _).imp fun hne h => hne (State.mk.inj h))

/-- Declarations whose identifiers differ declare states that these tell apart. -/
theorem distinctStates (h : (r.declarations.map Declaration.ident).Nodup) :
    DistinctStates r.State where
  ident_injective := by
    rintro ⟨⟨i, hi⟩⟩ ⟨⟨j, hj⟩⟩ heq
    have hne := List.pairwise_iff_getElem.mp h
    simp only [List.length_map, List.getElem_map] at hne
    rcases Nat.lt_trichotomy i j with hij | hij | hij
    · exact absurd heq (hne i j hi hj hij)
    · subst hij; rfl
    · exact absurd heq.symm (hne j i hj hi hij)

end State

end Roster

end AmountWalk
