import AmountWalk.Amount
import AmountWalk.Choice.Script
import AmountWalk.Proofs.Sample.Attempts
import Mathlib.Data.Nat.Find

/-!
# What a sampling returns

A sampling returns the well-formed texts of its walks, in the order found, and makes no walk more
than it takes to find them. If the attempts do not suffice it reports how many walks were abandoned
and how many texts there were by then. A walk that breaks the rules ends it at once.

Every sampling is a number of attempts followed by one of these three exits, so the proofs are all
of one shape: go to the exit by `collectFrom_add`, take it, and read the tally by `counts_attempts`.
-/

namespace AmountWalk.Table

variable {σ γ : Type} [DecidableEq σ] [StateSet σ] [ChoiceSource γ]

variable {table : Table σ} {policy : Policy σ} {config : SampleConfig} {tally : Tally}
  {source : γ} {n : Nat} {fault : Fault σ}

/-! ## One round -/

theorem collectFrom_of_enough (h : config.count.toNat ≤ tally.texts.size) :
    table.collectFrom policy config n tally source
      = ⟨.ok tally.texts.toList, source,
          (tally.log.push
            (.samplingComplete tally.attempts tally.abandoned tally.texts.size)).toList⟩ := by
  unfold collectFrom
  rw [if_pos h]

theorem collectFrom_of_few (h : tally.texts.size < config.count.toNat) :
    table.collectFrom policy config 0 tally source
      = ⟨.error (.exhausted
            ⟨tally.attempts, tally.abandoned, tally.texts.size, config.count.toNat⟩),
          source, tally.log.toList⟩ := by
  rw [collectFrom, if_neg (Nat.not_le.mpr h)]

theorem collectFrom_of_fault (h : tally.texts.size < config.count.toNat)
    (hfault : (table.walkBounded policy config.maxSteps.toNat source).outcome = .fault fault) :
    table.collectFrom policy config (n + 1) tally source
      = ⟨.error (.fault fault),
          (table.walkBounded policy config.maxSteps.toNat source).source,
          ((table.attempt policy config.maxSteps.toNat (tally, source)).1).log.toList⟩ := by
  rw [collectFrom, if_neg (Nat.not_le.mpr h)]
  simp only [hfault, attempt]

/-- A sampling that has texts to find goes on after an attempt that broke no rule. -/
theorem collectFrom_succ (h : tally.texts.size < config.count.toNat)
    (hsafe : (table.walkBounded policy config.maxSteps.toNat source).outcome.isFault = false) :
    table.collectFrom policy config (n + 1) tally source
      = table.collectFrom policy config n
          (table.attempt policy config.maxSteps.toNat (tally, source)).1
          (table.attempt policy config.maxSteps.toNat (tally, source)).2 := by
  rw [collectFrom, if_neg (Nat.not_le.mpr h)]
  cases hends : (table.walkBounded policy config.maxSteps.toNat source).outcome with
  | finished path => simp only [hends, attempt]
  | abandoned s => simp only [hends, attempt]
  | fault f =>
    rw [hends] at hsafe
    cases hsafe

/-- **Attempts that find too few texts only prepare the tally.** -/
theorem collectFrom_add (table : Table σ) (policy : Policy σ) (more : Nat) (now : Tally × γ)
    (hfew : ∀ j < n, now.1.texts.size
      + (table.textsAfter policy config.maxSteps.toNat now.2 j).length < config.count.toNat)
    (hsafe : ∀ j < n, (table.endingOf policy config.maxSteps.toNat now.2 j).isFault = false) :
    table.collectFrom policy config (n + more) now.1 now.2
      = table.collectFrom policy config more
          (table.attempts policy config.maxSteps.toNat n now).1
          (table.attempts policy config.maxSteps.toNat n now).2 := by
  induction n generalizing more with
  | zero =>
    rw [Nat.zero_add]
    rfl
  | succ n ih =>
    have hsize := table.size_texts_attempts policy config.maxSteps.toNat n now
    have hlast := hsafe n (Nat.lt_succ_self n)
    rw [endingOf, ← snd_attempts] at hlast
    rw [show n + 1 + more = n + (more + 1) from by omega,
      ih (more + 1) (fun j hj => hfew j (Nat.lt_succ_of_lt hj))
        (fun j hj => hsafe j (Nat.lt_succ_of_lt hj)),
      collectFrom_succ (by rw [hsize]; exact hfew n (Nat.lt_succ_self n)) hlast, attempts_succ]

/-! ## The three exits -/

section Exits

variable (table policy config source)

/-- After this many walks, and no fewer, there are enough well-formed texts. -/
def EnoughAfter (walks : Nat) : Prop :=
  config.count.toNat ≤ (table.textsAfter policy config.maxSteps.toNat source walks).length ∧
    ∀ fewer < walks,
      (table.textsAfter policy config.maxSteps.toNat source fewer).length < config.count.toNat

/-- None of the first so many walks breaks the rules. -/
def SafeFor (walks : Nat) : Prop :=
  ∀ number < walks,
    (table.endingOf policy config.maxSteps.toNat source number).isFault = false

instance (walks : Nat) : Decidable (table.EnoughAfter policy config source walks) :=
  inferInstanceAs (Decidable (_ ∧ _))

instance (walks : Nat) : Decidable (table.SafeFor policy config source walks) :=
  inferInstanceAs (Decidable (∀ number < walks, _))

variable {table policy config source}

/-- There are never more texts than were asked for. -/
theorem EnoughAfter.length_eq (h : table.EnoughAfter policy config source n) :
    (table.textsAfter policy config.maxSteps.toNat source n).length = config.count.toNat := by
  refine Nat.le_antisymm ?_ h.1
  cases n with
  | zero => exact Nat.zero_le _
  | succ n =>
    have hbefore := h.2 n (Nat.lt_succ_self n)
    have hone := table.length_textsAfter_succ_le policy config.maxSteps.toNat source n
    omega

/-- If so many walks are enough, then some number of them is the first that is. -/
theorem exists_enoughAfter
    (h : config.count.toNat ≤ (table.textsAfter policy config.maxSteps.toNat source n).length) :
    ∃ walks ≤ n, table.EnoughAfter policy config source walks := by
  classical
  have hex : ∃ walks, config.count.toNat
      ≤ (table.textsAfter policy config.maxSteps.toNat source walks).length := ⟨n, h⟩
  exact ⟨Nat.find hex, Nat.find_min' hex h, Nat.find_spec hex,
    fun fewer hfewer => Nat.not_le.mp (Nat.find_min hex hfewer)⟩

/-- As long as no number of walks was enough, there have always been too few texts. -/
theorem few_of_not_exists_enoughAfter
    (h : ¬ ∃ walks ≤ n, table.EnoughAfter policy config source walks) :
    ∀ walks ≤ n, (table.textsAfter policy config.maxSteps.toNat source walks).length
      < config.count.toNat := by
  intro walks hle
  by_contra hmany
  obtain ⟨first, hfirst, henough⟩ := exists_enoughAfter (Nat.not_lt.mp hmany)
  exact h ⟨first, Nat.le_trans hfirst hle, henough⟩

/-- **There is no fourth exit.** Among so many walks, some number of them is enough, or one of them
breaks the rules while it is still needed, or all are made and the texts are too few. -/
theorem enough_or_fault_or_few (table : Table σ) (policy : Policy σ) (config : SampleConfig)
    (source : γ) (n : Nat) :
    (∃ walks ≤ n, table.EnoughAfter policy config source walks ∧
      table.SafeFor policy config source walks) ∨
    (∃ number < n, ∃ fault,
      (∀ walks ≤ number, (table.textsAfter policy config.maxSteps.toNat source walks).length
        < config.count.toNat) ∧
      table.SafeFor policy config source number ∧
      table.endingOf policy config.maxSteps.toNat source number = .fault fault) ∨
    ((∀ walks ≤ n, (table.textsAfter policy config.maxSteps.toNat source walks).length
        < config.count.toNat) ∧
      table.SafeFor policy config source n) := by
  induction n with
  | zero =>
    have hsafe : table.SafeFor policy config source 0 := fun number hlt => nomatch hlt
    by_cases hnone : config.count.toNat = 0
    · refine .inl ⟨0, Nat.le_refl 0, ⟨?_, fun fewer hlt => nomatch hlt⟩, hsafe⟩
      rw [hnone]
      exact Nat.zero_le _
    · refine .inr (.inr ⟨fun walks hle => ?_, hsafe⟩)
      rw [Nat.le_zero.mp hle]
      exact Nat.pos_of_ne_zero hnone
  | succ n ih =>
    rcases ih with ⟨walks, hle, hexit⟩ | ⟨number, hlt, hexit⟩ | ⟨hfew, hsafe⟩
    · exact .inl ⟨walks, Nat.le_succ_of_le hle, hexit⟩
    · exact .inr (.inl ⟨number, Nat.lt_succ_of_lt hlt, hexit⟩)
    · cases hfault : (table.endingOf policy config.maxSteps.toNat source n).isFault with
      | true =>
        obtain ⟨fault, hends⟩ := Ending.isFault_eq_true.mp hfault
        exact .inr (.inl ⟨n, Nat.lt_succ_self n, fault, hfew, hsafe, hends⟩)
      | false =>
        have hsafe' : table.SafeFor policy config source (n + 1) := fun number hlt =>
          (Nat.lt_succ_iff_lt_or_eq.mp hlt).elim (hsafe number) fun heq => heq ▸ hfault
        by_cases henough : config.count.toNat
            ≤ (table.textsAfter policy config.maxSteps.toNat source (n + 1)).length
        · exact .inl ⟨n + 1, Nat.le_refl _,
            ⟨henough, fun fewer hlt => hfew fewer (Nat.le_of_lt_succ hlt)⟩, hsafe'⟩
        · refine .inr (.inr ⟨fun walks hle => ?_, hsafe'⟩)
          rcases Nat.le_succ_iff.mp hle with hle | rfl
          · exact hfew walks hle
          · exact Nat.not_le.mp henough

/-- **Every sampling is a number of attempts and what it does then.** -/
theorem collect_eq (hfits : config.count.toNat * 24 ≤ Nat.pow 2 63 - 1)
    (hle : n ≤ config.maxAttempts.toNat)
    (hfew : ∀ j < n,
      (table.textsAfter policy config.maxSteps.toNat source j).length < config.count.toNat)
    (hsafe : table.SafeFor policy config source n) :
    table.collect policy config source
      = table.collectFrom policy config (config.maxAttempts.toNat - n)
          (table.tallyAfter policy config.maxSteps.toNat source n)
          (table.sourceAfter policy config.maxSteps.toNat source n) := by
  have hfits' : config.fits = true := decide_eq_true hfits
  have hadd := collectFrom_add table policy (config.maxAttempts.toNat - n) (.empty, source)
    (fun j hj => by simpa using hfew j hj) hsafe
  rw [Nat.add_sub_cancel' hle, snd_attempts] at hadd
  rw [collect, if_pos hfits']
  exact hadd

/-- Enough texts end the sampling. -/
theorem collect_of_enoughAfter (hfits : config.count.toNat * 24 ≤ Nat.pow 2 63 - 1)
    (hle : n ≤ config.maxAttempts.toNat) (henough : table.EnoughAfter policy config source n)
    (hsafe : table.SafeFor policy config source n) :
    (table.collect policy config source).outcome
        = .ok (table.textsAfter policy config.maxSteps.toNat source n) ∧
      (table.collect policy config source).source
        = table.sourceAfter policy config.maxSteps.toNat source n := by
  rw [collect_eq hfits hle henough.2 hsafe,
    collectFrom_of_enough (by rw [size_texts_tallyAfter]; exact henough.1),
    toList_texts_tallyAfter]
  exact ⟨rfl, rfl⟩

/-- Attempts that are used up end the sampling. -/
theorem collect_of_few (hfits : config.count.toNat * 24 ≤ Nat.pow 2 63 - 1)
    (hfew : ∀ walks ≤ config.maxAttempts.toNat,
      (table.textsAfter policy config.maxSteps.toNat source walks).length < config.count.toNat)
    (hsafe : table.SafeFor policy config source config.maxAttempts.toNat) :
    (table.collect policy config source).outcome
        = .error (.exhausted
            { attempts := config.maxAttempts.toNat
              abandoned := (table.endings policy config.maxSteps.toNat source
                config.maxAttempts.toNat).countP Ending.isAbandoned
              collected := (table.textsAfter policy config.maxSteps.toNat source
                config.maxAttempts.toNat).length
              wanted := config.count.toNat }) ∧
      (table.collect policy config source).source
        = table.sourceAfter policy config.maxSteps.toNat source config.maxAttempts.toNat := by
  rw [collect_eq hfits (Nat.le_refl _) (fun j hj => hfew j (Nat.le_of_lt hj)) hsafe, Nat.sub_self,
    collectFrom_of_few (by rw [size_texts_tallyAfter]; exact hfew _ (Nat.le_refl _)),
    attempts_tallyAfter, abandoned_tallyAfter, size_texts_tallyAfter]
  exact ⟨rfl, rfl⟩

/-- A walk that breaks the rules ends the sampling. -/
theorem collect_of_fault (hfits : config.count.toNat * 24 ≤ Nat.pow 2 63 - 1)
    (hlt : n < config.maxAttempts.toNat)
    (hfew : ∀ walks ≤ n,
      (table.textsAfter policy config.maxSteps.toNat source walks).length < config.count.toNat)
    (hsafe : table.SafeFor policy config source n)
    (hfault : table.endingOf policy config.maxSteps.toNat source n = .fault fault) :
    (table.collect policy config source).outcome = .error (.fault fault) ∧
      (table.collect policy config source).source
        = table.sourceAfter policy config.maxSteps.toNat source (n + 1) := by
  obtain ⟨more, hmore⟩ : ∃ more, config.maxAttempts.toNat - n = more + 1 :=
    ⟨config.maxAttempts.toNat - n - 1, by omega⟩
  rw [collect_eq hfits (Nat.le_of_lt hlt) (fun j hj => hfew j (Nat.le_of_lt hj)) hsafe, hmore,
    collectFrom_of_fault (by rw [size_texts_tallyAfter]; exact hfew n (Nat.le_refl n)) hfault,
    sourceAfter_succ]
  exact ⟨rfl, rfl⟩

end Exits

/-! ## The sampling as a whole -/

/-- **What a sampling returns,** for every table, policy, source and configuration for whose texts
there is room. Let its walks be made one after the other.

* If some number of walks that the configuration allows is the first to bring enough well-formed
  texts, the sampling returns these texts, as many as were asked for, and no further walk is made.
* If no such number does, it is exhausted, with all its walks made.
* If a walk that is still needed breaks the rules, the sampling ends with its fault. -/
theorem collect_exact (table : Table σ) (policy : Policy σ) (config : SampleConfig) (source : γ)
    (hfits : config.count.toNat * 24 ≤ Nat.pow 2 63 - 1) :
    (∀ walks ≤ config.maxAttempts.toNat, table.EnoughAfter policy config source walks →
      table.SafeFor policy config source walks →
      (table.collect policy config source).outcome
          = .ok (table.textsAfter policy config.maxSteps.toNat source walks) ∧
        (table.textsAfter policy config.maxSteps.toNat source walks).length
          = config.count.toNat ∧
        (table.collect policy config source).source
          = table.sourceAfter policy config.maxSteps.toNat source walks) ∧
    ((¬ ∃ walks ≤ config.maxAttempts.toNat, table.EnoughAfter policy config source walks) →
      table.SafeFor policy config source config.maxAttempts.toNat →
      (table.collect policy config source).outcome
          = .error (.exhausted
              { attempts := config.maxAttempts.toNat
                abandoned := (table.endings policy config.maxSteps.toNat source
                  config.maxAttempts.toNat).countP Ending.isAbandoned
                collected := (table.textsAfter policy config.maxSteps.toNat source
                  config.maxAttempts.toNat).length
                wanted := config.count.toNat }) ∧
        (table.textsAfter policy config.maxSteps.toNat source config.maxAttempts.toNat).length
          < config.count.toNat ∧
        (table.collect policy config source).source
          = table.sourceAfter policy config.maxSteps.toNat source config.maxAttempts.toNat) ∧
    (∀ number < config.maxAttempts.toNat, ∀ fault,
      (¬ ∃ walks ≤ number, table.EnoughAfter policy config source walks) →
      table.SafeFor policy config source number →
      table.endingOf policy config.maxSteps.toNat source number = .fault fault →
      (table.collect policy config source).outcome = .error (.fault fault) ∧
        (table.collect policy config source).source
          = table.sourceAfter policy config.maxSteps.toNat source (number + 1)) := by
  refine ⟨?enough, ?few, ?fault⟩
  case enough =>
    intro walks hle henough hsafe
    obtain ⟨houtcome, hsource⟩ := collect_of_enoughAfter hfits hle henough hsafe
    exact ⟨houtcome, henough.length_eq, hsource⟩
  case few =>
    intro hnone hsafe
    have hfew := few_of_not_exists_enoughAfter hnone
    obtain ⟨houtcome, hsource⟩ := collect_of_few hfits hfew hsafe
    exact ⟨houtcome, hfew _ (Nat.le_refl _), hsource⟩
  case fault =>
    intro number hlt fault hnone hsafe hfault
    exact collect_of_fault hfits hlt (few_of_not_exists_enoughAfter hnone) hsafe hfault

/-- A script for `$0.34`, `7c` and `$9`, and a coin. -/
def twoAmounts : Script :=
  ⟨[true, true, false, true, true, false, false, true], [3, 4, 7, 9]⟩

/-- Two texts out of a script: the first walk is a step too long, the next two bring one text each,
and the last coin is left. -/
theorem collect_exact_two_of_three :
    (2 : UInt64).toNat * 24 ≤ Nat.pow 2 63 - 1 ∧
      (Amount.table.collect Amount.policy ⟨2, 4, 4⟩ twoAmounts).outcome
        = .ok [['7', 'c'], ['$', '9']] ∧
      (Amount.table.collect Amount.policy ⟨2, 4, 4⟩ twoAmounts).source = ⟨[true], []⟩ := by
  obtain ⟨houtcome, _, hsource⟩ := (collect_exact Amount.table Amount.policy ⟨2, 4, 4⟩ twoAmounts
    (by decide)).1 3 (by decide) (by decide) (by decide)
  exact ⟨by decide, houtcome.trans (by decide), hsource.trans (by decide)⟩

/-- With one attempt less, one text is all there is. -/
example : (Amount.table.collect Amount.policy ⟨2, 2, 4⟩ twoAmounts).outcome
    = .error (.exhausted ⟨2, 1, 1, 2⟩) := by
  decide

end AmountWalk.Table
