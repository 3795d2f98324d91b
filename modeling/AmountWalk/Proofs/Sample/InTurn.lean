import AmountWalk.Proofs.Sample.Log
import AmountWalk.Proofs.Walk.Bounded
import Mathlib.Data.List.Basic
import Mathlib.Data.List.Induction

/-!
# Walks that halt in turn

If unbounded walks made one after the other halt, then a sampling, which makes bounded walks, makes
the same walks as long as they keep to the bound. If all do, and their texts are well formed, it
returns these texts and leaves what the walks leave (`collect_of_haltsInTurn`). If one does not, the
first of these is abandoned, which the log of the sampling shows (`collect_log_of_tooLong`).
-/

namespace AmountWalk.Table

variable {σ γ : Type} [DecidableEq σ] [StateSet σ] [ChoiceSource γ]

/-- Walks made one after the other halt with these paths and leave this source. -/
def HaltsInTurn (table : Table σ) (policy : Policy σ) : γ → List (Path σ) → γ → Prop
  | source, [], rest => source = rest
  | source, path :: paths, rest =>
    ∃ next, table.HaltsWith policy source path next ∧ HaltsInTurn table policy next paths rest

variable {table : Table σ} {policy : Policy σ} {source rest : γ} {paths front back : List (Path σ)}
  {path : Path σ} {maxSteps : Nat}

theorem haltsInTurn_append : table.HaltsInTurn policy source (front ++ back) rest
    ↔ ∃ mid, table.HaltsInTurn policy source front mid ∧ table.HaltsInTurn policy mid back rest := by
  induction front generalizing source with
  | nil => exact ⟨fun h => ⟨source, rfl, h⟩, fun ⟨_, hmid, h⟩ => hmid ▸ h⟩
  | cons path front ih =>
    constructor
    · rintro ⟨next, hpath, hlater⟩
      obtain ⟨mid, hfront, hback⟩ := ih.mp hlater
      exact ⟨mid, ⟨next, hpath, hfront⟩, hback⟩
    · rintro ⟨mid, ⟨next, hpath, hfront⟩, hback⟩
      exact ⟨next, hpath, ih.mpr ⟨mid, hfront, hback⟩⟩

/-! ## The same walks with a bound -/

/-- **Walks that keep to the bound are the walks of a sampling.** -/
theorem endings_of_haltsInTurn (h : table.HaltsInTurn policy source paths rest)
    (hle : ∀ path ∈ paths, path.length ≤ maxSteps) :
    table.endings policy maxSteps source paths.length = paths.map .finished ∧
      table.sourceAfter policy maxSteps source paths.length = rest := by
  -- from the end, since the walks of a sampling are counted up
  induction paths using List.reverseRecOn generalizing rest with
  | nil => exact ⟨rfl, h⟩
  | append_singleton front path ih =>
    obtain ⟨mid, hfront, last, hpath, hrest⟩ := haltsInTurn_append.mp h
    obtain ⟨hendings, hsource⟩ :=
      ih hfront fun earlier hmem => hle earlier (List.mem_append_left _ hmem)
    have hbounded := walkBounded_of_haltsWith hpath
      (hle path (List.mem_append_right _ (List.mem_singleton_self _)))
    rw [List.length_append, List.length_singleton, List.map_append, endings_succ, sourceAfter_succ,
      endingOf, hendings, hsource, hbounded]
    exact ⟨rfl, hrest⟩

/-- The first walk that does not keep to the bound is abandoned. -/
theorem endings_of_tooLong (h : table.HaltsInTurn policy source (front ++ path :: back) rest)
    (hle : ∀ earlier ∈ front, earlier.length ≤ maxSteps) (hlt : maxSteps < path.length) :
    ∃ s, table.endings policy maxSteps source (front.length + 1)
      = front.map .finished ++ [.abandoned s] := by
  obtain ⟨mid, hfront, next, hpath, -⟩ := haltsInTurn_append.mp h
  obtain ⟨hendings, hsource⟩ := endings_of_haltsInTurn hfront hle
  obtain ⟨s, hs⟩ := abandons_of_haltsWith hpath hlt
  refine ⟨s, ?_⟩
  rw [endings_succ, endingOf, hendings, hsource, hs]

/-! ## The sampling -/

theorem length_textsAfter_le (walks : Nat) :
    (table.textsAfter policy maxSteps source walks).length ≤ walks := by
  induction walks with
  | zero => exact Nat.le_refl 0
  | succ walks ih =>
    have hone := table.length_textsAfter_succ_le policy maxSteps source walks
    omega

variable {config : SampleConfig} {n : Nat}

theorem safeFor_of_endings
    (h : ∀ ending ∈ table.endings policy config.maxSteps.toNat source n, ending.isFault = false) :
    table.SafeFor policy config source n :=
  fun number hlt => h _ (List.mem_map.mpr ⟨number, List.mem_range.mpr hlt, rfl⟩)

omit [DecidableEq σ] [StateSet σ] in
/-- The texts of walks that halted, all of them well formed. -/
theorem filterMap_kept?_finished : ∀ {paths : List (Path σ)},
    (∀ path ∈ paths, isWellFormed path.output = true) →
    (paths.map Ending.finished).filterMap Ending.kept? = paths.map Path.output
  | [], _ => rfl
  | path :: paths, h => by
    have hkept : (Ending.finished path).kept? = some path.output :=
      if_pos (h path List.mem_cons_self)
    rw [List.map_cons, List.filterMap_cons_some hkept,
      filterMap_kept?_finished fun other hmem => h other (List.mem_cons_of_mem _ hmem), List.map_cons]

omit [DecidableEq σ] in
/-- All that is reported about such walks is that they halted. -/
theorem flatMap_reports_finished (h : ∀ path ∈ paths, isWellFormed path.output = true) :
    (paths.map Ending.finished).flatMap (table.reports maxSteps) = paths.map table.finishedEvent := by
  rw [List.flatMap_map, List.map_eq_flatMap]
  refine List.flatMap_congr fun path hmem => ?_
  rw [reports, Ending.rejection, if_pos (h path hmem)]
  rfl

section Collect

variable (hfits : config.count.toNat * 24 ≤ Nat.pow 2 63 - 1)
include hfits

/-- **Walks that halt in turn within the bound are what a sampling returns.** -/
theorem collect_of_haltsInTurn (h : table.HaltsInTurn policy source paths rest)
    (hle : ∀ path ∈ paths, path.length ≤ config.maxSteps.toNat)
    (hformed : ∀ path ∈ paths, isWellFormed path.output = true)
    (hcount : config.count.toNat = paths.length) (hmax : paths.length ≤ config.maxAttempts.toNat) :
    (table.collect policy config source).outcome = .ok (paths.map Path.output) ∧
      (table.collect policy config source).source = rest := by
  obtain ⟨hendings, hsource⟩ := endings_of_haltsInTurn h hle
  have htexts : table.textsAfter policy config.maxSteps.toNat source paths.length
      = paths.map Path.output := by
    rw [textsAfter, hendings, filterMap_kept?_finished hformed]
  have henough : table.EnoughAfter policy config source paths.length := by
    refine ⟨by rw [htexts, List.length_map, hcount], fun fewer hfewer => ?_⟩
    rw [hcount]
    exact Nat.lt_of_le_of_lt (length_textsAfter_le fewer) hfewer
  have hsafe : table.SafeFor policy config source paths.length := by
    refine safeFor_of_endings fun ending hmem => ?_
    rw [hendings] at hmem
    obtain ⟨path, -, rfl⟩ := List.mem_map.mp hmem
    rfl
  have hcollect := collect_of_enoughAfter hfits hmax henough hsafe
  rw [htexts, hsource] at hcollect
  exact hcollect

/-- **The first walk that does not keep to the bound is abandoned by the sampling,** and the walks
before it are reported before it. -/
theorem collect_log_of_tooLong
    (h : table.HaltsInTurn policy source (front ++ path :: back) rest)
    (hle : ∀ earlier ∈ front, earlier.length ≤ config.maxSteps.toNat)
    (hlt : config.maxSteps.toNat < path.length)
    (hformed : ∀ earlier ∈ front, isWellFormed earlier.output = true)
    (hcount : front.length < config.count.toNat) (hmax : front.length < config.maxAttempts.toNat) :
    ∃ s later, table.endings policy config.maxSteps.toNat source (front.length + 1)
        = front.map .finished ++ [.abandoned s] ∧
      (table.collect policy config source).log
        = front.map table.finishedEvent
          ++ .walkAbandoned config.maxSteps.toNat (StateSet.label s) :: later := by
  obtain ⟨s, hendings⟩ := endings_of_tooLong h hle hlt
  have hsafe : table.SafeFor policy config source (front.length + 1) := by
    refine safeFor_of_endings fun ending hmem => ?_
    rw [hendings] at hmem
    rcases List.mem_append.mp hmem with hmem | hmem
    · obtain ⟨path, -, rfl⟩ := List.mem_map.mp hmem
      rfl
    · rw [List.mem_singleton.mp hmem]
      rfl
  have hfew : ∀ j < front.length + 1,
      (table.textsAfter policy config.maxSteps.toNat source j).length < config.count.toNat :=
    fun j hj => Nat.lt_of_le_of_lt (length_textsAfter_le j) (by omega)
  obtain ⟨later, hlater⟩ := table.exists_log_collectFrom policy config
    (config.maxAttempts.toNat - (front.length + 1))
    (table.tallyAfter policy config.maxSteps.toNat source (front.length + 1))
    (table.sourceAfter policy config.maxSteps.toNat source (front.length + 1))
  -- the abandoned walk is the last of the attempts after which the sampling is looked at
  refine ⟨s, later, hendings, ?_⟩
  rw [collect_eq hfits hmax hfew hsafe, hlater, toList_log_tallyAfter, hendings,
    List.flatMap_append, flatMap_reports_finished hformed, List.append_assoc]
  rfl

end Collect

end AmountWalk.Table
