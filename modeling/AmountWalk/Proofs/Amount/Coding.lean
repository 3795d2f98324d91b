import AmountWalk.Proofs.Amount.Filter
import AmountWalk.Proofs.Amount.Routes
import AmountWalk.Proofs.Amount.Spelling
import AmountWalk.Proofs.Sample.InTurn
import AmountWalk.Proofs.Session.Replay

/-!
# Scripts encode lists of amounts

A list of amounts can be written as a script and read back by generating: to every list belongs
exactly one script that generates it, fits, and is used up in the end.

There is one because there is a script for each amount, which can be made to fit, and the scripts can
be put one behind the other. There is no other because the text of a walk tells how the walk was
answered (`Amount.answers_unique`), so a script is determined amount by amount from its front. No
separators are needed, since each walk leaves what stands behind it.

A sampling on the script finds the same amounts, unless it bounds the walks too tightly.
-/

namespace AmountWalk.Amount

open State

variable {script front back : Script} {texts : List (List Char)} {text : List Char}
  {path other : Path State}

/-! ## One amount -/

/-- The script answers a walk from the start that takes this path. -/
def Codes (script : Script) (path : Path State) : Prop :=
  ∃ moves, (table.walkProgram policy moves table.start .empty).AnsweredBy script (some (.ok path))

theorem Codes.exists_route (h : Codes front path) :
    ∃ steps, table.Route policy q0 steps front ∧ path.steps.toList = steps := by
  obtain ⟨moves, h⟩ := h
  obtain ⟨steps, hroute, hsteps⟩ := Table.exists_route_of_answeredBy h
  exact ⟨steps, hroute, hsteps⟩

/-- **The text of a walk tells its script.** -/
theorem Codes.unique (h : Codes front path) (h' : Codes back other)
    (htext : path.output = other.output) : front = back := by
  obtain ⟨steps, hroute, rfl⟩ := h.exists_route
  obtain ⟨steps', hroute', rfl⟩ := h'.exists_route
  exact answers_unique hroute hroute' htext

theorem Codes.length_eq (h : Codes script path) : path.length = stepsFor path.output := by
  obtain ⟨steps, hroute, rfl⟩ := h.exists_route
  exact length_eq_stepsFor hroute

/-- A walk on a script that begins with its code leaves what stands behind it. -/
theorem Codes.haltsWith (h : Codes front path) (later : Script) :
    table.HaltsWith policy (front ++ later) path later := by
  obtain ⟨moves, h⟩ := h
  refine ⟨moves, ?_⟩
  rw [Table.walk_eq_run, h.run]
  rfl

/-- **Every amount has a code.** The digits of a script that generates it need not fit, but others in
their place do. -/
theorem exists_codes (h : Printed text) : ∃ script path, Codes script path ∧ path.output = text := by
  obtain ⟨script, moves, rest, log, hgenerate⟩ := printed_iff_exists_script.mp h
  obtain ⟨run, hwalk, hrun⟩ := Option.map_eq_some_iff.mp hgenerate
  obtain ⟨path, hok, -⟩ := printed_of_walk hwalk
  rw [hok] at hrun
  cases hrun
  rw [Table.walk_eq_run] at hwalk
  obtain ⟨answer, hanswer, hrun⟩ := Option.map_eq_some_iff.mp hwalk
  have hpath : answer = .ok path := by
    rw [← hrun] at hok
    exact hok
  -- the script need not fit, but the walk comes to the same path on answers that do
  obtain ⟨answers, hanswers⟩ :=
    (Table.clamped_walkProgram clamped_policy moves table.start .empty).exists_answeredBy script
  rw [hanswer, hpath] at hanswers
  exact ⟨answers, path, ⟨moves, hanswers⟩, rfl⟩

/-! ## Several amounts -/

/-- On this script as many calls as there are texts generate these texts in turn. No draw finds its
queue empty, every digit lies in the class for which it is drawn, and the script is used up in the
end. -/
def Encodes (script : Script) (texts : List (List Char)) : Prop :=
  ∃ moves log, table.session policy moves (texts.map fun _ => .generate) (Watched.start script)
    = some ⟨texts.map fun text => .generate (.ok text), Watched.start .empty, log⟩

/-- The same, said by the questions that the calls ask. -/
theorem encodes_iff : Encodes script texts ↔ ∃ moves log,
    (table.sessionProgram policy moves (texts.map fun _ => .generate)).AnsweredBy script
      (some (texts.map fun text => .generate (.ok text), log)) := by
  simp only [Encodes, Table.session_eq_some_iff, Draws.run_watched_iff, Script.append_empty,
    exists_eq_right']

theorem encodes_nil : Encodes .empty [] :=
  ⟨0, [], rfl⟩

/-- The code of one more amount comes in front. -/
theorem Codes.encodes (h : Codes front path) (hlater : Encodes back texts) :
    Encodes (front ++ back) (path.output :: texts) := by
  obtain ⟨moves, h⟩ := h
  obtain ⟨more, log, hlater⟩ := hlater
  have hrun : (table.walkProgram policy moves table.start .empty).run (Watched.start (front ++ back))
      = (some (.ok path), Watched.start back) :=
    Draws.run_watched_iff.mpr ⟨front, h, rfl⟩
  have hwalk : table.walk policy moves (Watched.start (front ++ back))
      = some ⟨.ok path, Watched.start back, [table.finishedEvent path]⟩ := by
    rw [Table.walk_eq_run, hrun]
    rfl
  refine ⟨max moves more, [table.finishedEvent path] ++ log, ?_⟩
  rw [List.map_cons, Table.session, Table.call, Table.generate,
    Table.walk_mono hwalk (Nat.le_max_left moves more), Option.map_some, Option.map_some,
    Option.bind_some]
  show (table.session policy (max moves more) _ (Watched.start back)).map _ = _
  rw [Table.session_mono hlater (Nat.le_max_right moves more)]
  rfl

/-- **The code of the first amount stands in front,** and the codes of the others stand behind it. -/
theorem Encodes.exists_codes (h : Encodes script (text :: texts)) :
    ∃ front back path, script = front ++ back ∧ Codes front path ∧ path.output = text ∧
      Encodes back texts := by
  obtain ⟨moves, log, h⟩ := encodes_iff.mp h
  obtain ⟨front, back, first, hfront, hback, rfl⟩ := Draws.answeredBy_bind_iff.mp h
  obtain ⟨answer?, hwalk, rfl⟩ := Draws.answeredBy_map_iff.mp hfront
  cases answer? with
  | none => cases hback
  | some answer =>
    -- the first reply is the text of this walk, the others are those of the calls behind it
    obtain ⟨later?, hlater, hreplies⟩ := Draws.answeredBy_map_iff.mp hback
    obtain ⟨⟨replies, rest⟩, rfl, heq⟩ := Option.map_eq_some_iff.mp hreplies
    obtain ⟨hcons, -⟩ := Prod.mk.inj heq
    obtain ⟨hfirst, rfl⟩ := List.cons.inj hcons
    cases answer with
    | error fault => cases hfirst
    | ok path =>
      cases hfirst
      exact ⟨front, back, path, rfl, ⟨moves, hwalk⟩, rfl, encodes_iff.mpr ⟨moves, rest, hlater⟩⟩

/-- **Every list of amounts is encoded by some script.** -/
theorem exists_encodes : ∀ {texts : List (List Char)}, (∀ text ∈ texts, Printed text) →
    ∃ script, Encodes script texts
  | [], _ => ⟨.empty, encodes_nil⟩
  | text :: texts, h => by
    obtain ⟨front, path, hcodes, rfl⟩ := exists_codes (h text List.mem_cons_self)
    obtain ⟨back, hback⟩ := exists_encodes fun other hmem => h other (List.mem_cons_of_mem _ hmem)
    exact ⟨front ++ back, hcodes.encodes hback⟩

/-- **No list of texts is encoded by two scripts.** -/
theorem Encodes.unique {second : Script} (h : Encodes script texts) (h' : Encodes second texts) :
    script = second := by
  induction texts generalizing script second with
  | nil =>
    obtain ⟨_, _, h⟩ := encodes_iff.mp h
    obtain ⟨_, _, h'⟩ := encodes_iff.mp h'
    cases h
    cases h'
    rfl
  | cons text texts ih =>
    obtain ⟨front, back, path, rfl, hcodes, htext, hback⟩ := h.exists_codes
    obtain ⟨front', back', path', rfl, hcodes', htext', hback'⟩ := h'.exists_codes
    rw [hcodes.unique hcodes' (htext.trans htext'.symm), ih hback hback']

/-! ## On the script by itself -/

theorem Encodes.session (h : Encodes script texts) : ∃ moves log,
    table.session policy moves (texts.map fun _ => .generate) script
      = some ⟨texts.map fun text => .generate (.ok text), .empty, log⟩ := by
  obtain ⟨moves, log, h⟩ := encodes_iff.mp h
  refine ⟨moves, log, Table.session_eq_some_iff.mpr ?_⟩
  have hrun := h.run .empty
  rwa [Script.append_empty] at hrun

/-- The walks that print the amounts, one after the other. -/
theorem Encodes.exists_haltsInTurn (h : Encodes script texts) :
    ∃ paths, table.HaltsInTurn policy script paths .empty ∧ paths.map Path.output = texts ∧
      ∀ path ∈ paths, path.length = stepsFor path.output := by
  induction texts generalizing script with
  | nil =>
    have hempty : script = .empty := h.unique encodes_nil
    exact ⟨[], hempty, rfl, fun path hmem => absurd hmem List.not_mem_nil⟩
  | cons text texts ih =>
    obtain ⟨front, back, path, rfl, hcodes, rfl, hback⟩ := h.exists_codes
    obtain ⟨paths, hpaths, rfl, hlength⟩ := ih hback
    refine ⟨path :: paths, ⟨back, hcodes.haltsWith back, hpaths⟩, rfl, fun other hmem => ?_⟩
    rcases List.mem_cons.mp hmem with rfl | hmem
    · exact hcodes.length_eq
    · exact hlength other hmem

/-! ## The encoding -/

/-- **Scripts and lists of amounts correspond one to one.** For every list of amounts there is exactly
one script on which as many calls generate it in turn, so that no queue is found empty, every digit
lies in the class for which it is drawn, and nothing is left. On this script:

* the calls come to the same when nobody watches, and leave nothing;
* a sampling for as many texts, with attempts for all and steps enough for each, returns the list and
  leaves nothing;
* if some amount takes too many steps, the walk of the first such amount is abandoned, behind the
  walks that print the amounts before it. -/
theorem exists_unique_encodes (texts : List (List Char)) (h : ∀ text ∈ texts, Printed text) :
    (∃! script, Encodes script texts) ∧
    ∀ script, Encodes script texts →
      (∃ moves log, table.session policy moves (texts.map fun _ => .generate) script
        = some ⟨texts.map fun text => .generate (.ok text), .empty, log⟩) ∧
      ∀ config : SampleConfig, config.count.toNat = texts.length →
        texts.length * 24 ≤ Nat.pow 2 63 - 1 → texts.length ≤ config.maxAttempts.toNat →
        ((∀ text ∈ texts, stepsFor text ≤ config.maxSteps.toNat) →
          (table.collect policy config script).outcome = .ok texts ∧
          (table.collect policy config script).source = .empty) ∧
        ∀ front text back, texts = front ++ text :: back →
          (∀ earlier ∈ front, stepsFor earlier ≤ config.maxSteps.toNat) →
          config.maxSteps.toNat < stepsFor text →
          ∃ (paths : List (Path State)) (s : State) (later : List Event),
            paths.map Path.output = front ∧
            table.endings policy config.maxSteps.toNat script (front.length + 1)
              = paths.map .finished ++ [.abandoned s] ∧
            (table.collect policy config script).log
              = paths.map table.finishedEvent
                ++ .walkAbandoned config.maxSteps.toNat (StateSet.label s) :: later := by
  refine ⟨?one, fun script hscript => ⟨hscript.session, fun config hcount hfits hmax => ?_⟩⟩
  case one =>
    obtain ⟨script, hscript⟩ := exists_encodes h
    exact ⟨script, hscript, fun other hother => hother.unique hscript⟩
  -- from here on the texts are those of the paths that the calls take
  obtain ⟨paths, hpaths, rfl, hlength⟩ := hscript.exists_haltsInTurn
  rw [List.length_map] at hcount hfits hmax
  rw [← hcount] at hfits
  have hformed : ∀ path ∈ paths, isWellFormed path.output = true := fun path hmem =>
    (h _ (List.mem_map_of_mem hmem)).isWellFormed
  refine ⟨fun hle => ?within, fun front text back heq hle hlt => ?tooLong⟩
  case within =>
    refine Table.collect_of_haltsInTurn hfits hpaths (fun path hmem => ?_) hformed hcount hmax
    rw [hlength path hmem]
    exact hle _ (List.mem_map_of_mem hmem)
  case tooLong =>
    obtain ⟨before, others, rfl, rfl, hothers⟩ := List.map_eq_append_iff.mp heq
    obtain ⟨path, behind, rfl, rfl, rfl⟩ := List.map_eq_cons_iff.mp hothers
    rw [List.length_append, List.length_cons] at hcount hmax
    have hpath : path ∈ before ++ path :: behind :=
      List.mem_append_right _ List.mem_cons_self
    obtain ⟨s, later, hendings, hlog⟩ := Table.collect_log_of_tooLong hfits hpaths
      (fun earlier hmem => by
        rw [hlength earlier (List.mem_append_left _ hmem)]
        exact hle _ (List.mem_map_of_mem hmem))
      (by rw [hlength path hpath]; exact hlt)
      (fun earlier hmem => hformed earlier (List.mem_append_left _ hmem)) (by omega) (by omega)
    rw [List.length_map]
    exact ⟨before, s, later, rfl, hendings, hlog⟩

/-- One amount of each shape. -/
def fourAmounts : List (List Char) :=
  [['$', '0', '.', '3', '4'], ['$', '1', '0'], ['7', 'c'], ['4', '2', 'c']]

/-- The script of the four amounts. -/
def fourCodes : Script :=
  ⟨[true, true, true, false, true, false, false, true, false, false], [3, 4, 1, 0, 7, 4, 2]⟩

/-- The four amounts have this script and no other, five steps are enough for each of them, and four
are not enough for the first. -/
theorem exists_unique_encodes_four :
    (∀ text ∈ fourAmounts, Printed text) ∧
    (∀ script, Encodes script fourAmounts ↔ script = fourCodes) ∧
    (table.collect policy ⟨4, 4, 5⟩ fourCodes).outcome = .ok fourAmounts ∧
    ∃ s later, (table.collect policy ⟨4, 4, 4⟩ fourCodes).log
      = .walkAbandoned 4 (StateSet.label (s : State)) :: later := by
  have hprinted : ∀ text ∈ fourAmounts, Printed text := by
    have hfraction : Printed ['$', '0', '.', '3', '4'] := .fraction (by decide) (by decide)
    have hwhole : Printed ['$', '1', '0'] :=
      .whole (.cons (by decide) fun ch hmem => by rw [List.mem_singleton.mp hmem]; decide)
    have hcent : Printed ['7', 'c'] := .cent (by decide)
    have hcents : Printed ['4', '2', 'c'] := .cents (by decide) (by decide)
    simp [fourAmounts, hfraction, hwhole, hcent, hcents]
  have hcodes : Encodes fourCodes fourAmounts := ⟨6, _, rfl⟩
  obtain ⟨⟨script, hscript, honly⟩, hall⟩ := exists_unique_encodes fourAmounts hprinted
  obtain ⟨-, hcollect⟩ := hall fourCodes hcodes
  refine ⟨hprinted, fun other => ⟨fun h => ?_, fun h => h ▸ hcodes⟩, ?_, ?_⟩
  · rw [honly other h, honly fourCodes hcodes]
  · exact ((hcollect ⟨4, 4, 5⟩ rfl (by decide) (by decide)).1 (by decide)).1
  · obtain ⟨paths, s, later, hnone, -, hlog⟩ :=
      (hcollect ⟨4, 4, 4⟩ rfl (by decide) (by decide)).2 [] _ _ rfl (by decide) (by decide)
    rw [List.map_eq_nil_iff.mp hnone] at hlog
    exact ⟨s, later, hlog⟩

end AmountWalk.Amount
