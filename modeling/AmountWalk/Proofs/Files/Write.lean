import AmountWalk.Files

/-!
# What a write leaves

A path that can be opened for writing leads to one place (`Files.target`). What a write does there
depends on what stands there: a device takes the content and loses it, or takes nothing, and anything
else becomes a file with the content (`Stores`). No other place is touched.

The path of a file that was stored still leads to it, so reading the path gives the content
(`Stores.read`). No link gets in the way of that: what is opened for writing is what stands at the end
of all links (`follow_not_link`), and storing something there changes none of them (`Stores.follow_eq`).
-/

namespace AmountWalk

namespace Files

variable {files after : Files} {place other start parent : Location} {node : Node}
  {path content : Utf8.Bytes} {cause : IoError}

/-! ## Nodes -/

theorem node?_nil (files : Files) : files.node? [] = some .directory := if_pos rfl

theorem node?_of_ne_nil (h : place ≠ []) :
    files.node? place = (files.nodes.find? (·.1 == place)).map Prod.snd := if_neg h

/-- Something else at a place shows at that place only. -/
theorem node?_put (h : place ≠ []) (other : Location) :
    (files.put place node).node? other = if other = place then some node else files.node? other := by
  by_cases hroot : other = []
  · rw [if_neg (fun heq => h (heq.symm.trans hroot)), hroot, node?_nil, node?_nil]
  rw [node?_of_ne_nil hroot, node?_of_ne_nil hroot]
  unfold put
  split
  · next hany =>
    -- Replacing keeps the places, so the same entry is found, and it may have been replaced.
    have hsame : ((fun entry : Location × Node => entry.1 == other) ∘ fun entry =>
        if entry.1 = place then (place, node) else entry) = fun entry => entry.1 == other := by
      funext entry
      by_cases hentry : entry.1 = place <;> simp [hentry]
    simp only [List.find?_map, hsame]
    cases hfind : files.nodes.find? (·.1 == other) with
    | none =>
      have hne : other ≠ place := by
        rintro rfl
        obtain ⟨entry, hmem, hentry⟩ := List.any_eq_true.mp hany
        exact absurd hentry (List.find?_eq_none.mp hfind entry hmem)
      simp [hne]
    | some entry =>
      have hentry : entry.1 = other := by simpa using List.find?_some hfind
      by_cases heq : other = place <;> simp [hentry, heq]
  · next hany =>
    have hnone : files.nodes.find? (·.1 == place) = none := by
      rw [List.find?_eq_none]
      exact fun entry hmem hentry => hany (List.any_eq_true.mpr ⟨entry, hmem, hentry⟩)
    simp only [List.find?_append]
    by_cases heq : other = place
    · simp [heq, hnone]
    · have hlast : (place == other) = false := by simpa using fun h : place = other => heq h.symm
      simp [heq, hlast]

theorem workingDir_put : (files.put place node).workingDir = files.workingDir := by
  unfold put
  split <;> rfl

/-- A file keeps on being a program, or not. -/
theorem putContent_eq (files : Files) (place : Location) (content : Utf8.Bytes) :
    files.putContent place content = files.put place (.file content (files.isProgram place)) := by
  unfold putContent isProgram
  split <;> simp [*]

/-! ## Links -/

/-- Where links have been followed to is no link. -/
theorem follow_not_link {left : Nat} (h : files.follow left start = .ok place) (next : Location) :
    files.node? place ≠ some (.link next) := by
  induction left generalizing start with
  | zero => cases h
  | succ left ih =>
    unfold follow at h
    split at h
    · exact ih h
    · next hlink =>
      cases h
      exact hlink next

/-! ## Targets -/

/-- The last component of a path that leads to a place to write to is a name, and what stands at the
place is something that can be written to. -/
theorem exists_name_of_target (h : files.target path = .ok place) :
    ∃ start components parent, files.start path = .ok (start, components) ∧
      components.getLastD [] ≠ [] ∧ components.getLastD [] ≠ PathText.here ∧
      components.getLastD [] ≠ PathText.parent ∧
      (components.getLastD []).length ≤ PathText.maxComponent ∧
      files.descend start components.dropLast = .ok parent ∧
      files.through (parent ++ [components.getLastD []]) = .ok place ∧
      files.node? place ≠ some .directory := by
  unfold target at h
  cases hstart : files.start path with
  | error flaw => simp [hstart, bind, Except.bind] at h
  | ok begun =>
    obtain ⟨start, components⟩ := begun
    simp only [hstart, bind, Except.bind] at h
    split at h
    · cases h
    · next parent hparent =>
      split at h
      · cases h
      · next hname =>
        rw [not_or, not_or] at hname
        rw [if_neg hname.1] at hparent
        split at h
        · cases h
        · next hlength =>
          refine ⟨start, components, parent, rfl, hname.1, hname.2.1, hname.2.2,
            Nat.le_of_not_lt hlength, hparent, ?_⟩
          split at h
          · cases h
          · next location hthrough =>
            split at h
            · cases h
            · cases h
            · next node hdirectory _ hnode =>
              cases h
              exact ⟨hthrough, fun heq => hdirectory (Option.some.inj (hnode.symm.trans heq))⟩
            · next hnone =>
              split at h
              · split at h
                · cases h
                · cases h
                  exact ⟨hthrough, by rw [hnone]; exact nofun⟩
              · cases h
              · cases h

theorem place_ne_nil_of_target (h : files.target path = .ok place) : place ≠ [] := by
  obtain ⟨-, -, -, -, -, -, -, -, -, -, hnode⟩ := exists_name_of_target h
  rintro rfl
  exact hnode files.node?_nil

theorem not_link_of_target (h : files.target path = .ok place) (next : Location) :
    files.node? place ≠ some (.link next) := by
  obtain ⟨_, _, _, -, -, -, -, -, -, hthrough, -⟩ := exists_name_of_target h
  exact follow_not_link hthrough next

/-! ## Writes -/

theorem write_of_unopened (h : files.target path = .error cause) :
    files.write path content = .error cause := by
  rw [write, h]
  rfl

theorem write_of_full (h : files.target path = .ok place)
    (hnode : files.node? place = some (.device .full)) :
    files.write path content = .error .noSpace := by
  simp only [write, h, bind, Except.bind, hnode]
  rfl

/-- What is written to a device is lost. -/
theorem write_of_device {device : Device} (h : files.target path = .ok place)
    (hnode : files.node? place = some (.device device)) (hfull : device ≠ .full) :
    files.write path content = .ok files := by
  simp only [write, h, bind, Except.bind, hnode]
  cases device with
  | full => exact absurd rfl hfull
  | null | zero | terminal => rfl

theorem write_of_file (h : files.target path = .ok place)
    (hnode : ∀ device, files.node? place ≠ some (.device device)) :
    files.write path content = .ok (files.putContent place content) := by
  simp only [write, h, bind, Except.bind]
  split
  · next heq => exact absurd heq (hnode _)
  · next heq => exact absurd heq (hnode _)
  · rfl

/-- At a place there is now a file with a content, and nothing else has changed. -/
structure Stores (before : Files) (place : Location) (content : Utf8.Bytes) (after : Files) :
    Prop where
  node : after.node? place = some (.file content (before.isProgram place))
  others : ∀ other ≠ place, after.node? other = before.node? other
  workingDir : after.workingDir = before.workingDir

theorem stores_putContent (h : place ≠ []) (content : Utf8.Bytes) :
    files.Stores place content (files.putContent place content) := by
  rw [putContent_eq]
  exact ⟨by rw [node?_put h, if_pos rfl], fun other hother => by rw [node?_put h, if_neg hother],
    workingDir_put⟩

/-! ## Reading what was stored -/

namespace Stores

variable (h : files.Stores place content after)
include h

theorem start_eq (path : Utf8.Bytes) : after.start path = files.start path := by
  rw [start, start, h.workingDir]

/-- Where no link was, what is stored leads no path elsewhere. -/
theorem follow_eq (hlink : ∀ next, files.node? place ≠ some (.link next)) (left : Nat) (other : Location) :
    after.follow left other = files.follow left other := by
  induction left generalizing other with
  | zero => rfl
  | succ left ih =>
    unfold follow
    by_cases heq : other = place
    · rw [heq, h.node]
      cases hnode : files.node? place with
      | none => rfl
      | some node =>
        cases node with
        | link next => exact absurd hnode (hlink next)
        | _ => rfl
    · rw [h.others other heq]
      split
      · exact ih _
      · rfl

theorem through_eq (hlink : ∀ next, files.node? place ≠ some (.link next)) (other : Location) :
    after.through other = files.through other :=
  h.follow_eq hlink _ other

/-- The directories on the way to the place are still there. -/
theorem descend_eq (hlink : ∀ next, files.node? place ≠ some (.link next))
    (hdirectory : files.node? place ≠ some .directory) {components : List FileName}
    (hparent : files.descend start components = .ok parent) :
    after.descend start components = .ok parent := by
  fun_induction files.descend start components with
  | case1 => exact hparent
  | case2 start component rest hhere ih =>
    rw [descend, if_pos hhere]
    exact ih hparent
  | case3 start rest hhere ih =>
    rw [descend, if_neg hhere, if_pos rfl]
    exact ih hparent
  | case4 | case5 | case6 | case8 => cases hparent
  | case7 start component rest hhere hup hlong spot hthrough hnode ih =>
    have hne : spot ≠ place := fun heq => hdirectory (heq ▸ hnode)
    rw [descend, if_neg hhere, if_neg hup, if_neg hlong, h.through_eq hlink, hthrough]
    simp only [h.others spot hne, hnode]
    exact ih hparent

/-- **The path of a stored file leads to it.** -/
theorem read (htarget : files.target path = .ok place) : after.read path = .ok content := by
  obtain ⟨start, components, parent, hstart, hempty, hhere, hup, hlong, hdescend, hplace,
    hdirectory⟩ := exists_name_of_target htarget
  have hlink := not_link_of_target htarget
  have hspot : after.spot path = .ok (parent ++ [components.getLastD []]) := by
    have hway := h.descend_eq hlink hdirectory hdescend
    simp only [spot, h.start_eq, hstart, bind, Except.bind, hway, hempty, hhere, hup, or_self,
      if_false, if_neg (Nat.not_lt.mpr hlong)]
    rfl
  have hlocate : after.locate path = .ok (place, .file content (files.isProgram place)) := by
    simp only [locate, resolve, hspot, bind, Except.bind, h.through_eq hlink, hplace, h.node]
    rfl
  simp only [Files.read, hlocate, bind, Except.bind]
  rfl

end Stores

end Files

end AmountWalk
