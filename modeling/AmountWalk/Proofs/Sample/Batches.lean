import AmountWalk.Proofs.Sample.Collect

/-!
# Sampling in batches

Two samplings on one source, the second on what the first leaves, find the texts that one sampling
finds which asks for the texts of both, and leave the same source (`collect_batches`). This is
because a sampling makes no walk after the one that brings its last text: where the first one ends,
the second goes on.

A batch may be empty. It makes no walks then, whatever it is allowed, and all of them are left to
the other.

## How many walks

All of it is about numbers of walks. A sampling that returns texts has made the first number of
walks that is enough for them, none of which broke the rules (`collects_iff`). The walks of the
second batch are those made after the walks of the first (`safeFor_add_iff`), so the first number
that is enough for both is the sum of the numbers for each (`EnoughAfter.add_iff`).
-/

namespace AmountWalk.Table

variable {σ γ : Type} [DecidableEq σ] [StateSet σ] [ChoiceSource γ]

/-- The sampling returns these texts and leaves this source. -/
def Collects (table : Table σ) (policy : Policy σ) (config : SampleConfig) (source : γ)
    (texts : List (List Char)) (rest : γ) : Prop :=
  (table.collect policy config source).outcome = .ok texts ∧
    (table.collect policy config source).source = rest

variable {table : Table σ} {policy : Policy σ} {source rest : γ} {texts : List (List Char)}

/-- **A sampling that returns texts has made the first number of walks that is enough.** -/
theorem collects_iff (config : SampleConfig) (hfits : config.count.toNat * 24 ≤ Nat.pow 2 63 - 1) :
    table.Collects policy config source texts rest
      ↔ ∃ walks ≤ config.maxAttempts.toNat, table.EnoughAfter policy config source walks ∧
          table.SafeFor policy config source walks ∧
          texts = table.textsAfter policy config.maxSteps.toNat source walks ∧
          rest = table.sourceAfter policy config.maxSteps.toNat source walks := by
  constructor
  · rintro ⟨houtcome, hsource⟩
    -- the other two exits return no texts
    rcases enough_or_fault_or_few table policy config source config.maxAttempts.toNat with
      ⟨walks, hle, henough, hsafe⟩ | ⟨number, hlt, fault, hfew, hsafe, hfault⟩ | ⟨hfew, hsafe⟩
    · obtain ⟨htexts, hrest⟩ := collect_of_enoughAfter hfits hle henough hsafe
      rw [houtcome] at htexts
      exact ⟨walks, hle, henough, hsafe, Except.ok.inj htexts, hsource.symm.trans hrest⟩
    · rw [(collect_of_fault hfits hlt hfew hsafe hfault).1] at houtcome
      cases houtcome
    · rw [(collect_of_few hfits hfew hsafe).1] at houtcome
      cases houtcome
  · rintro ⟨walks, hle, henough, hsafe, rfl, rfl⟩
    exact collect_of_enoughAfter hfits hle henough hsafe

/-! ## The walks of two batches -/

section Walks

variable {maxSteps k₁ k₂ A A₁ A₂ : UInt64} {m n : Nat}

/-- No walk of both batches breaks the rules if none does in either. -/
theorem safeFor_add_iff :
    table.SafeFor policy ⟨k₁ + k₂, A, maxSteps⟩ source (m + n)
      ↔ table.SafeFor policy ⟨k₁, A₁, maxSteps⟩ source m ∧
        table.SafeFor policy ⟨k₂, A₂, maxSteps⟩
          (table.sourceAfter policy maxSteps.toNat source m) n := by
  constructor
  · refine fun h => ⟨fun number hlt => h number (Nat.lt_add_right n hlt), fun number hlt => ?_⟩
    rw [← endingOf_add]
    exact h (m + number) (Nat.add_lt_add_left hlt m)
  · rintro ⟨hfirst, hsecond⟩ number hlt
    rcases Nat.lt_or_ge number m with hbefore | hfrom
    · exact hfirst number hbefore
    · obtain ⟨later, rfl⟩ := Nat.exists_eq_add_of_le hfrom
      rw [endingOf_add]
      exact hsecond later (Nat.lt_of_add_lt_add_left hlt)

/-- **After the walks for the first batch it takes as many for both as for the second.** -/
theorem EnoughAfter.add_iff (hcount : (k₁ + k₂).toNat = k₁.toNat + k₂.toNat)
    (h : table.EnoughAfter policy ⟨k₁, A₁, maxSteps⟩ source m) :
    table.EnoughAfter policy ⟨k₁ + k₂, A, maxSteps⟩ source (m + n)
      ↔ table.EnoughAfter policy ⟨k₂, A₂, maxSteps⟩
          (table.sourceAfter policy maxSteps.toNat source m) n := by
  have hlength (more : Nat) :
      (table.textsAfter policy maxSteps.toNat source (m + more)).length
        = k₁.toNat + (table.textsAfter policy maxSteps.toNat
            (table.sourceAfter policy maxSteps.toNat source m) more).length := by
    rw [textsAfter_add, List.length_append, h.length_eq]
  constructor
  · rintro ⟨henough, hfew⟩
    refine ⟨?_, fun fewer hlt => ?_⟩
    · rw [hcount, hlength] at henough
      exact Nat.le_of_add_le_add_left henough
    · have hless := hfew (m + fewer) (Nat.add_lt_add_left hlt m)
      rw [hcount, hlength] at hless
      exact Nat.lt_of_add_lt_add_left hless
  · rintro ⟨henough, hfew⟩
    refine ⟨?_, fun fewer hlt => ?_⟩
    · rw [hcount, hlength]
      exact Nat.add_le_add_left henough _
    · rw [hcount]
      rcases Nat.lt_or_ge fewer m with hbefore | hfrom
      · exact Nat.lt_of_lt_of_le (h.2 fewer hbefore) (Nat.le_add_right _ _)
      · obtain ⟨later, rfl⟩ := Nat.exists_eq_add_of_le hfrom
        rw [hlength]
        exact Nat.add_lt_add_left (hfew later (Nat.lt_of_add_lt_add_left hlt)) _

end Walks

/-! ## The samplings -/

/-- Words whose sum is a word add up as numbers do. -/
theorem toNat_add_of_lt {a b : UInt64} (h : a.toNat + b.toNat < UInt64.size) :
    (a + b).toNat = a.toNat + b.toNat := by
  rw [UInt64.toNat_add]
  exact Nat.mod_eq_of_lt h

section Samplings

variable {maxSteps k₁ k₂ A A₁ A₂ : UInt64} {xs ys : List (List Char)} {mid : γ}
  (hfits : (k₁.toNat + k₂.toNat) * 24 ≤ Nat.pow 2 63 - 1)
include hfits

/-- Where there is room for the texts of both batches, there is room for those of each, and their
number is a word. -/
theorem room_of_add : k₁.toNat * 24 ≤ Nat.pow 2 63 - 1 ∧ k₂.toNat * 24 ≤ Nat.pow 2 63 - 1 ∧
    (k₁ + k₂).toNat = k₁.toNat + k₂.toNat := by
  have hword : Nat.pow 2 63 - 1 < UInt64.size := by decide
  exact ⟨by omega, by omega, toNat_add_of_lt (by omega)⟩

/-- **Two batches make one sampling.** -/
theorem Collects.append (hattempts : A₁.toNat + A₂.toNat < UInt64.size)
    (hfirst : table.Collects policy ⟨k₁, A₁, maxSteps⟩ source xs mid)
    (hsecond : table.Collects policy ⟨k₂, A₂, maxSteps⟩ mid ys rest) :
    table.Collects policy ⟨k₁ + k₂, A₁ + A₂, maxSteps⟩ source (xs ++ ys) rest := by
  obtain ⟨hroom₁, hroom₂, hcount⟩ := room_of_add hfits
  obtain ⟨m, hm, henough₁, hsafe₁, rfl, rfl⟩ := (collects_iff ⟨k₁, A₁, maxSteps⟩ hroom₁).mp hfirst
  obtain ⟨n, hn, henough₂, hsafe₂, rfl, rfl⟩ := (collects_iff ⟨k₂, A₂, maxSteps⟩ hroom₂).mp hsecond
  have hle : m + n ≤ (A₁ + A₂).toNat := by
    rw [toNat_add_of_lt hattempts]
    exact Nat.add_le_add hm hn
  refine (collects_iff ⟨k₁ + k₂, A₁ + A₂, maxSteps⟩ (by rwa [hcount])).mpr ⟨m + n, hle,
    (henough₁.add_iff hcount).mpr henough₂, safeFor_add_iff.mpr ⟨hsafe₁, hsafe₂⟩, ?texts, ?rest⟩
  case texts => exact (textsAfter_add ..).symm
  case rest => exact (sourceAfter_add ..).symm

/-- **One sampling can be made in two batches,** each of which is allowed all its walks. -/
theorem Collects.split (h : table.Collects policy ⟨k₁ + k₂, A, maxSteps⟩ source texts rest) :
    ∃ mid, table.Collects policy ⟨k₁, A, maxSteps⟩ source (texts.take k₁.toNat) mid ∧
      table.Collects policy ⟨k₂, A, maxSteps⟩ mid (texts.drop k₁.toNat) rest := by
  obtain ⟨hroom₁, hroom₂, hcount⟩ := room_of_add hfits
  obtain ⟨walks, hle, henough, hsafe, rfl, rfl⟩ :=
    (collects_iff ⟨k₁ + k₂, A, maxSteps⟩ (by rwa [hcount])).mp h
  have hmany : k₁.toNat ≤ (table.textsAfter policy maxSteps.toNat source walks).length := by
    have hboth := henough.1
    rw [hcount] at hboth
    exact Nat.le_of_add_right_le hboth
  -- the first batch ends with the walk that brings its last text, which need not be the last
  obtain ⟨m, hm, hfirst⟩ : ∃ m ≤ walks, table.EnoughAfter policy ⟨k₁, A, maxSteps⟩ source m :=
    exists_enoughAfter hmany
  obtain ⟨n, rfl⟩ := Nat.exists_eq_add_of_le hm
  have hsecond : table.EnoughAfter policy ⟨k₂, A, maxSteps⟩
      (table.sourceAfter policy maxSteps.toNat source m) n := (hfirst.add_iff hcount).mp henough
  obtain ⟨hsafe₁, hsafe₂⟩ : table.SafeFor policy ⟨k₁, A, maxSteps⟩ source m ∧
      table.SafeFor policy ⟨k₂, A, maxSteps⟩
        (table.sourceAfter policy maxSteps.toNat source m) n := safeFor_add_iff.mp hsafe
  have hlength : (table.textsAfter policy maxSteps.toNat source m).length = k₁.toNat :=
    hfirst.length_eq
  refine ⟨table.sourceAfter policy maxSteps.toNat source m, ?first, ?second⟩
  case first =>
    refine (collects_iff ⟨k₁, A, maxSteps⟩ hroom₁).mpr
      ⟨m, Nat.le_trans hm hle, hfirst, hsafe₁, ?_, rfl⟩
    rw [textsAfter_add, List.take_left' hlength]
  case second =>
    refine (collects_iff ⟨k₂, A, maxSteps⟩ hroom₂).mpr
      ⟨n, Nat.le_trans (Nat.le_add_left n m) hle, hsecond, hsafe₂, ?_, sourceAfter_add ..⟩
    rw [textsAfter_add, List.drop_left' hlength]

end Samplings

/-- **Sampling in batches is sampling at once,** for every table, policy, source and bound on the
steps, and any two counts for whose texts together there is room.

* If a sampling returns its texts and another one, on what it leaves, returns its own, then one
  sampling that asks for as many texts as both, and is allowed as many walks, returns the texts of
  the first followed by those of the second, and leaves the same source.
* If a sampling returns as many texts as two counts together, then a sampling for the first count
  returns its first texts, and one for the second count, on what that leaves, returns the others and
  leaves the same source. Neither needs more walks than the one sampling was allowed. -/
theorem collect_batches (table : Table σ) (policy : Policy σ) (maxSteps k₁ k₂ : UInt64) (source : γ)
    (hfits : (k₁.toNat + k₂.toNat) * 24 ≤ Nat.pow 2 63 - 1) :
    (∀ (A₁ A₂ : UInt64) (xs ys : List (List Char)) (mid rest : γ),
      A₁.toNat + A₂.toNat < UInt64.size →
      table.Collects policy ⟨k₁, A₁, maxSteps⟩ source xs mid →
      table.Collects policy ⟨k₂, A₂, maxSteps⟩ mid ys rest →
      table.Collects policy ⟨k₁ + k₂, A₁ + A₂, maxSteps⟩ source (xs ++ ys) rest) ∧
    (∀ (A : UInt64) (zs : List (List Char)) (rest : γ),
      table.Collects policy ⟨k₁ + k₂, A, maxSteps⟩ source zs rest →
      ∃ mid, table.Collects policy ⟨k₁, A, maxSteps⟩ source (zs.take k₁.toNat) mid ∧
        table.Collects policy ⟨k₂, A, maxSteps⟩ mid (zs.drop k₁.toNat) rest) :=
  ⟨fun _ _ _ _ _ _ hattempts hfirst hsecond => hfirst.append hfits hattempts hsecond,
    fun _ _ _ h => h.split hfits⟩

/-- Two batches of one text each. The first makes two walks, of which one is abandoned. -/
theorem collect_batches_one_and_one :
    ((1 : UInt64).toNat + (1 : UInt64).toNat) * 24 ≤ Nat.pow 2 63 - 1 ∧
      Amount.table.Collects Amount.policy ⟨1 + 1, 2 + 1, 4⟩ twoAmounts [['7', 'c'], ['$', '9']]
        ⟨[true], []⟩ ∧
      ∃ mid, Amount.table.Collects Amount.policy ⟨1, 2 + 1, 4⟩ twoAmounts [['7', 'c']] mid ∧
        Amount.table.Collects Amount.policy ⟨1, 2 + 1, 4⟩ mid [['$', '9']] ⟨[true], []⟩ := by
  obtain ⟨happend, hsplit⟩ :=
    collect_batches Amount.table Amount.policy 4 1 1 twoAmounts (by decide)
  have hboth := happend 2 1 [['7', 'c']] [['$', '9']] ⟨[true, false, false, true], [9]⟩ ⟨[true], []⟩
    (by decide) ⟨by decide, by decide⟩ ⟨by decide, by decide⟩
  exact ⟨by decide, hboth, hsplit (2 + 1) _ _ hboth⟩

end AmountWalk.Table
