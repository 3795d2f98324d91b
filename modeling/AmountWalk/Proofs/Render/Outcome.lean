import AmountWalk.Render

/-!
# How a rendering comes out

A rendering writes the source, has it drawn and perhaps opens the image. What comes of it is decided
by the first two: one lemma for each way they can go, and `render_result_eq_ok_iff` for the way that
ends with an image. The viewer decides nothing.
-/

namespace AmountWalk.RenderConfig

variable {σ : Type} [StateSet σ] {config : RenderConfig} {host : Host} {files written left : Files}
  {table : Table σ} {cause : IoError} {status : ExitStatus} {stderr : Utf8.Bytes}

/-- The source of the diagram is written, with these files as the outcome. -/
def Writes (config : RenderConfig) (files : Files) (table : Table σ) (written : Files) : Prop :=
  files.write (Utf8.ofString config.outputStem) (Utf8.encode (config.source table)) = .ok written

/-- The source is written, the drawing program starts, and it ends with success. -/
def Draws (config : RenderConfig) (host : Host) (files : Files) (table : Table σ) : Prop :=
  ∃ written stderr left, config.Writes files table written ∧
    host.run config.program config.arguments written = .ended (.exited 0) stderr left

theorem render_of_unwritten
    (h : files.write (Utf8.ofString config.outputStem) (Utf8.encode (config.source table))
      = .error cause) :
    config.render host files table
      = ⟨.error (.writeSource config.outputStem cause), files, []⟩ := by
  rw [render, h]

theorem render_of_refused (hwrites : config.Writes files table written)
    (hrun : host.run config.program config.arguments written = .refused cause) :
    config.render host files table
      = ⟨.error (.backendMissing config.program cause), written, []⟩ := by
  unfold Writes at hwrites
  rw [render, hwrites]
  simp only [hrun]

theorem render_of_failed (hwrites : config.Writes files table written)
    (hrun : host.run config.program config.arguments written = .ended status stderr left)
    (hstatus : status ≠ .exited 0) :
    config.render host files table
      = ⟨.error (.backendFailed status (Blank.trim (Utf8.decodeLossy stderr))), left, []⟩ := by
  unfold Writes at hwrites
  rw [render, hwrites]
  simp only [hrun, if_neg hstatus]

theorem render_of_drawn (hwrites : config.Writes files table written)
    (hrun : host.run config.program config.arguments written = .ended (.exited 0) stderr left) :
    config.render host files table
      = ⟨.ok config.imagePath, left, config.successLog host left⟩ := by
  unfold Writes at hwrites
  rw [render, hwrites]
  simp only [hrun, if_true]

/-- **A rendering succeeds exactly when the source is drawn,** and then with the image that the
configuration names, whatever becomes of the viewer. -/
theorem render_result_eq_ok_iff {image : String} :
    (config.render host files table).result = .ok image
      ↔ config.Draws host files table ∧ image = config.imagePath := by
  constructor
  · intro hok
    cases hwrite : files.write (Utf8.ofString config.outputStem)
        (Utf8.encode (config.source table)) with
    | error cause =>
      rw [render_of_unwritten hwrite] at hok
      cases hok
    | ok written =>
      cases hrun : host.run config.program config.arguments written with
      | refused cause =>
        rw [render_of_refused hwrite hrun] at hok
        cases hok
      | ended status stderr left =>
        by_cases hstatus : status = .exited 0
        · rw [hstatus] at hrun
          rw [render_of_drawn hwrite hrun] at hok
          cases hok
          exact ⟨⟨written, stderr, left, hwrite, hrun⟩, rfl⟩
        · rw [render_of_failed hwrite hrun hstatus] at hok
          cases hok
  · rintro ⟨⟨written, stderr, left, hwrites, hrun⟩, rfl⟩
    rw [render_of_drawn hwrites hrun]

end AmountWalk.RenderConfig
