import AmountWalk.Dot
import AmountWalk.Event
import AmountWalk.ExitStatus
import AmountWalk.Files
import AmountWalk.Render.Config
import AmountWalk.Render.GraphName
import AmountWalk.Text.Blank

/-!
# Rendering

A table is drawn in three stages: its source is written to a file, a program draws the image from
that file, and the image is opened in a viewer if that was asked for. Each stage may fail, and each
failure but the last one ends the work and leaves what the stages before it have done. A viewer that
does not start is only reported.

Files are a value, and so is the `Host` that starts programs, so a rendering is a function of both.
-/

namespace AmountWalk

/-! ## Programs -/

/-- What came of starting a program and waiting for its end. -/
inductive Launch where
  /-- It could not be started. -/
  | refused (error : IoError)
  /-- It ended with this status and these error messages and left these files. -/
  | ended (status : ExitStatus) (stderr : Utf8.Bytes) (files : Files)

/-- Something that starts programs. -/
structure Host where
  /-- Start a program with arguments on some files and wait for its end. -/
  run : String → List String → Files → Launch
  /-- Start a program with arguments and leave it alone; an error when it does not start. -/
  spawn : String → List String → Files → Option IoError

/-- A host without programs. -/
def Host.bare : Host := ⟨fun _ _ _ => .refused .notFound, fun _ _ _ => some .notFound⟩

/-! ## Errors -/

/-- Why no diagram was drawn. -/
inductive RenderError where
  | writeSource (path : String) (cause : IoError)
  /-- The program could not be started. -/
  | backendMissing (program : String) (cause : IoError)
  /-- The program ended by a signal or with a code other than zero. -/
  | backendFailed (status : ExitStatus) (stderr : List Char)
  deriving DecidableEq

namespace RenderError

/-- The error in words. -/
def message : RenderError → String
  | writeSource path cause => "Failed to write DOT source to " ++ path ++ ": " ++ cause.message
  | backendMissing program cause =>
    "Graphviz executable '" ++ program ++ "' could not be run: " ++ cause.message
      ++ ". Make sure Graphviz is installed and on PATH"
  | backendFailed status stderr =>
    "Graphviz exited with " ++ status.message ++ ": " ++ String.ofList stderr

/-- The refusal behind the error, if there is one. -/
def cause? : RenderError → Option IoError
  | writeSource _ cause => some cause
  | backendMissing _ cause => some cause
  | backendFailed _ _ => none

end RenderError

/-! ## Drawing -/

/-- What came of drawing a diagram. -/
structure Rendering where
  /-- The path of the image, or why there is none. -/
  result : Except RenderError String
  /-- The files afterwards. -/
  files : Files
  /-- What was reported. -/
  log : List Event

namespace RenderConfig

/-- The program that opens images. -/
def viewer : String := "xdg-open"

/-- The arguments that the drawing program is given. -/
def arguments (config : RenderConfig) : List String :=
  ["-T" ++ config.format, "-o", config.imagePath, config.outputStem]

/-- The source of the diagram of a table. -/
def source {σ : Type} [StateSet σ] (config : RenderConfig) (table : Table σ) : List Char :=
  Dot.text (graphName config.outputStem.toList) table

/-- What is reported when the image is there. -/
def successLog (config : RenderConfig) (host : Host) (files : Files) : List Event :=
  let drawn := Event.renderedDiagram config.imagePath
  if config.view then
    match host.spawn viewer [config.imagePath] files with
    | none => [drawn]
    | some error => [drawn, .viewerFailed viewer error.message]
  else [drawn]

/-- Draw the diagram of a table. -/
def render {σ : Type} [StateSet σ] (config : RenderConfig) (host : Host) (files : Files)
    (table : Table σ) : Rendering :=
  match files.write (Utf8.ofString config.outputStem) (Utf8.encode (config.source table)) with
  | .error cause => ⟨.error (.writeSource config.outputStem cause), files, []⟩
  | .ok files =>
    match host.run config.program config.arguments files with
    | .refused cause => ⟨.error (.backendMissing config.program cause), files, []⟩
    | .ended status stderr files =>
      if status = .exited 0 then ⟨.ok config.imagePath, files, config.successLog host files⟩
      else
        ⟨.error (.backendFailed status (Blank.trim (Utf8.decodeLossy stderr))), files, []⟩

end RenderConfig

end AmountWalk
