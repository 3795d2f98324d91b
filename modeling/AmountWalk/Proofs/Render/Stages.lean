import AmountWalk.Amount
import AmountWalk.Proofs.Files.Write
import AmountWalk.Proofs.Render.Outcome

/-!
# What each stage of a rendering leaves

A rendering that cannot write its source ends there, whatever programs there are. Any other one hands
the files with the source in them to the drawing program, and what it comes to is read off that launch:
each way in which a launch goes is one result, and no result has two ways (`DrawnBy`). The viewer comes
too late to change a file or the result (`render_viewed`).

A source need not be kept. A device takes it and loses it, and the drawing program finds the files as
they were. A device that is full takes nothing, and counts as a source that cannot be written.
-/

namespace AmountWalk

/-- The files after a program was started on some files. -/
def Launch.filesAfter : Launch → Files → Files
  | refused _, before => before
  | ended _ _ left, _ => left

namespace RenderConfig

variable {σ : Type} [StateSet σ] {config : RenderConfig} {host : Host} {files written : Files}
  {table : Table σ} {cause : IoError} {place : Location}

/-- The path of the source cannot be opened for writing, or it leads to the device that takes nothing. -/
def Unwritable (config : RenderConfig) (files : Files) (cause : IoError) : Prop :=
  files.target (Utf8.ofString config.outputStem) = .error cause ∨
    ∃ place, files.target (Utf8.ofString config.outputStem) = .ok place ∧
      files.node? place = some (.device .full) ∧ cause = .noSpace

/-- A source was written to a place. Either it stands there, and the path of the source reads it, or the
place is a device, and nothing has changed. -/
inductive Keeps (config : RenderConfig) (files : Files) (place : Location) (source : Utf8.Bytes) :
    Files → Prop
  | lost (device : Device) (hnode : files.node? place = some (.device device)) :
    Keeps config files place source files
  | stored {written : Files} (hnode : ∀ device, files.node? place ≠ some (.device device))
    (hstores : files.Stores place source written)
    (hread : written.read (Utf8.ofString config.outputStem) = .ok source) :
    Keeps config files place source written

/-- A rendering comes to what a launch of the drawing program comes to. -/
structure DrawnBy (config : RenderConfig) (launch : Launch) (written : Files) (rendering : Rendering) :
    Prop where
  sourced : ∀ path cause, rendering.result ≠ .error (.writeSource path cause)
  missing : ∀ program cause, rendering.result = .error (.backendMissing program cause) ↔
    launch = .refused cause ∧ program = config.program
  failed : ∀ status message, rendering.result = .error (.backendFailed status message) ↔
    ∃ stderr left, launch = .ended status stderr left ∧ status ≠ .exited 0 ∧
      message = Blank.trim (Utf8.decodeLossy stderr)
  drawn : ∀ image, rendering.result = .ok image ↔
    (∃ stderr left, launch = .ended (.exited 0) stderr left) ∧
      image = config.outputStem ++ "." ++ config.format
  files : rendering.files = launch.filesAfter written

/-! ## The source -/

theorem write_of_unwritable (h : config.Unwritable files cause) (content : Utf8.Bytes) :
    files.write (Utf8.ofString config.outputStem) content = .error cause := by
  obtain htarget | ⟨place, htarget, hnode, rfl⟩ := h
  · exact Files.write_of_unopened htarget
  · exact Files.write_of_full htarget hnode

/-- What can be opened and is not full takes the source. -/
theorem exists_keeps (htarget : files.target (Utf8.ofString config.outputStem) = .ok place)
    (hfull : files.node? place ≠ some (.device .full)) (source : Utf8.Bytes) :
    ∃ written, files.write (Utf8.ofString config.outputStem) source = .ok written ∧
      config.Keeps files place source written := by
  by_cases hdevice : ∃ device, files.node? place = some (.device device)
  · obtain ⟨device, hnode⟩ := hdevice
    have hne : device ≠ .full := fun heq => hfull (heq ▸ hnode)
    exact ⟨files, Files.write_of_device htarget hnode hne, .lost device hnode⟩
  · have hnode : ∀ device, files.node? place ≠ some (.device device) := not_exists.mp hdevice
    have hstores : files.Stores place source (files.putContent place source) :=
      Files.stores_putContent (Files.place_ne_nil_of_target htarget) source
    exact ⟨_, Files.write_of_file htarget hnode, .stored hnode hstores (hstores.read htarget)⟩

/-! ## The drawing program -/

theorem drawnBy_run (hwrites : config.Writes files table written) :
    config.DrawnBy (host.run config.program config.arguments written) written
      (config.render host files table) := by
  cases hrun : host.run config.program config.arguments written with
  | refused cause =>
    rw [render_of_refused hwrites hrun]
    constructor <;> simp [Launch.filesAfter, eq_comm, and_comm]
  | ended status stderr left =>
    by_cases hstatus : status = .exited 0
    · rw [hstatus] at hrun ⊢
      rw [render_of_drawn hwrites hrun]
      refine ⟨by simp, by simp, fun status message => ?_, by simp [imagePath, eq_comm], rfl⟩
      refine iff_of_false nofun ?_
      rintro ⟨stderr, left, heq, hne, -⟩
      cases heq
      exact hne rfl
    · rw [render_of_failed hwrites hrun hstatus]
      refine ⟨by simp, by simp, fun status' message => ⟨fun h => ?_, ?_⟩, by simp [hstatus], rfl⟩
      · cases h
        exact ⟨stderr, left, rfl, hstatus, rfl⟩
      · rintro ⟨stderr', left', heq, -, rfl⟩
        cases heq
        rfl

/-- **Whether the image is opened, and whether the viewer starts,** changes neither the result nor a
file. -/
theorem render_viewed (config : RenderConfig) (host : Host) (files : Files) (table : Table σ) (view : Bool)
    (spawn : String → List String → Files → Option IoError) :
    (RenderConfig.render { config with view } { host with spawn } files table).result
        = (config.render host files table).result ∧
      (RenderConfig.render { config with view } { host with spawn } files table).files
        = (config.render host files table).files := by
  unfold RenderConfig.render
  simp only [source, arguments, imagePath]
  split
  · exact ⟨rfl, rfl⟩
  · split
    · exact ⟨rfl, rfl⟩
    · split <;> exact ⟨rfl, rfl⟩

end RenderConfig

end AmountWalk
