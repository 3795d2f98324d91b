import AmountWalk.Proofs.Choice.Observed
import AmountWalk.Proofs.Walk.Outcome

/-!
# The coins of a walk

A walk is observed by recording its source. To the walk this makes no difference: it is the same walk
at every moment (`progress_recorded`), and what is recorded of it are the coins that it has flipped,
one behind the other (`coinsFlipped`). Later moves only add coins, so the coin with a given number is
the same one whenever it is looked for (`prefix_coinsFlipped`).
-/

namespace AmountWalk

variable {σ γ δ : Type}

/-- The same progress, with the source seen through a function. -/
def Progress.mapSource (view : γ → δ) : Progress σ γ → Progress σ δ
  | going s path source => going s path (view source)
  | halted s path source => halted s path (view source)
  | faulted fault path source => faulted fault path (view source)

namespace Table

variable [DecidableEq σ] [StateSet σ] [ChoiceSource γ]

section View

variable [ChoiceSource δ] {view : γ → δ}

theorem proceed_of_isView (hview : IsView view) (table : Table σ) (policy : Policy σ)
    (progress : Progress σ γ) :
    table.proceed policy (progress.mapSource view)
      = (table.proceed policy progress).mapSource view := by
  cases progress with
  | going s path source =>
    have hadvance : table.advance policy s (view source)
        = ((table.advance policy s source).1, view (table.advance policy s source).2) := by
      simp only [advance, hview.run]
    rw [Progress.mapSource, proceed, proceed, hadvance]
    cases table.advance policy s source with
    | mk advance rest => cases advance <;> rfl
  | halted => rfl
  | faulted => rfl

/-- **A walk cannot tell a source from what it is seen as.** -/
theorem progress_of_isView (hview : IsView view) (table : Table σ) (policy : Policy σ)
    (moves : Nat) (source : γ) :
    table.progress policy moves (view source)
      = (table.progress policy moves source).mapSource view := by
  induction moves with
  | zero => rfl
  | succ moves ih => rw [progress_succ, progress_succ, ih, proceed_of_isView hview]

end View

section Coins

variable (table : Table σ) (policy : Policy σ) (source : γ)

/-- The coins that a walk has flipped after so many moves, in order. -/
def coinsFlipped (moves : Nat) : List Bool :=
  (table.progress policy moves (Recording.start source)).source.answers.coins

/-- The walk flips a coin with this number, the first being number zero, and it falls on this
side. -/
def Flips (number : Nat) (heads : Bool) : Prop :=
  ∃ moves, (table.coinsFlipped policy source moves)[number]? = some heads

variable {table policy source} {moves more : Nat} {s : σ} {path : Path σ}

/-- Recording makes no difference to a walk. -/
theorem progress_recorded (table : Table σ) (policy : Policy σ) (moves : Nat) (source : γ) :
    table.progress policy moves source
      = (table.progress policy moves (Recording.start source)).mapSource
          fun recording => recording.source :=
  progress_of_isView Recording.isView_source table policy moves (Recording.start source)

theorem haltsWith_of_recorded {recording : Recording γ}
    (h : table.progress policy moves (Recording.start source) = .halted s path recording) :
    table.HaltsWith policy source path recording.source := by
  refine ⟨moves, walk_of_halted (s := s) ?_⟩
  rw [progress_recorded, h]
  rfl

theorem recorded_of_haltsWith {rest : γ} (h : table.HaltsWith policy source path rest) :
    ∃ s recording, table.progress policy (path.length + 1) (Recording.start source)
      = .halted s path recording := by
  obtain ⟨s, hs⟩ := haltsWith_iff.mp h
  rw [progress_recorded] at hs
  cases hp : table.progress policy (path.length + 1) (Recording.start source) with
  | going => rw [hp] at hs; cases hs
  | halted t same recording =>
    rw [hp] at hs
    cases hs
    exact ⟨s, recording, rfl⟩
  | faulted => rw [hp] at hs; cases hs

theorem source_proceed_going (table : Table σ) (policy : Policy σ) (s : σ) (path : Path σ)
    (source : γ) :
    (table.proceed policy (.going s path source)).source
      = (table.advance policy s source).2 := by
  rw [proceed]
  cases table.advance policy s source with
  | mk advance rest => cases advance <;> rfl

theorem prefix_coinsFlipped_succ (moves : Nat) :
    table.coinsFlipped policy source moves <+: table.coinsFlipped policy source (moves + 1) := by
  rw [coinsFlipped, coinsFlipped, progress_succ]
  cases table.progress policy moves (Recording.start source) with
  | going s path recording =>
    rw [source_proceed_going]
    exact Recording.coins_prefix_run (policy s) recording
  | halted => exact List.prefix_rfl
  | faulted => exact List.prefix_rfl

/-- **Later moves only add coins.** -/
theorem prefix_coinsFlipped (hle : moves ≤ more) :
    table.coinsFlipped policy source moves <+: table.coinsFlipped policy source more := by
  induction hle with
  | refl => exact List.prefix_rfl
  | @step more _ ih => exact ih.trans (prefix_coinsFlipped_succ more)

/-- A walk that has halted flips no more coins. -/
theorem lt_length_of_flips_of_halted {recording : Recording γ} {number : Nat} {heads : Bool}
    (h : table.progress policy moves (Recording.start source) = .halted s path recording)
    (hflips : table.Flips policy source number heads) :
    number < recording.answers.coins.length := by
  obtain ⟨more, hmore⟩ := hflips
  obtain ⟨hlt, -⟩ := List.getElem?_eq_some_iff.mp hmore
  have hlater : table.coinsFlipped policy source (max moves more) = recording.answers.coins := by
    rw [coinsFlipped, progress_halted_mono h (Nat.le_max_left _ _)]
    rfl
  have hprefix : table.coinsFlipped policy source more
      <+: table.coinsFlipped policy source (max moves more) :=
    prefix_coinsFlipped (Nat.le_max_right moves more)
  rw [hlater] at hprefix
  exact Nat.lt_of_lt_of_le hlt hprefix.length_le

end Coins

end Table

end AmountWalk
