/-!
# Render configurations

Where a diagram is drawn, in which format, by which program.
-/

namespace AmountWalk

/-- Where and how a diagram is drawn. -/
structure RenderConfig where
  /-- The path of the DOT source. -/
  outputStem : String
  /-- The format of the image, such as `png`. -/
  format : String
  /-- Whether the image is opened in a viewer. -/
  view : Bool
  /-- The program that draws. -/
  program : String
  deriving DecidableEq

namespace RenderConfig

/-- A PNG image drawn by `dot` and opened in a viewer. -/
def default : RenderConfig := ⟨"currency_dfa", "png", true, "dot"⟩

/-- The path of the image: beside the source, with the format as one more extension. -/
def imagePath (config : RenderConfig) : String :=
  config.outputStem ++ "." ++ config.format

end RenderConfig

end AmountWalk
