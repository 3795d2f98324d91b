import AmountWalk.Amount
import AmountWalk.Render
import AmountWalk.Sample

/-!
# The command line

The program draws the diagram of the automaton of amounts and then prints five amounts, one a line.
It takes no arguments into account. When the diagram cannot be drawn no choice is made and nothing is
printed; when the sampling fails nothing is printed either. Either way the error goes to the error
stream, with its causes below it, and the status tells of it.
-/

namespace AmountWalk

/-! ## Error reports -/

namespace ErrorReport

/-- The lines of a text. -/
def lines : List Char → List (List Char)
  | [] => [[]]
  | ch :: rest =>
    if ch = '\n' then [] :: lines rest
    else
      match lines rest with
      | [] => [[ch]]
      | first :: others => (ch :: first) :: others

/-- A text behind a lead, its other lines indented. -/
def indent (lead rest : List Char) (text : List Char) : List Char :=
  match lines text with
  | [] => lead
  | first :: others => lead ++ first ++ others.flatMap fun line => '\n' :: rest ++ line

/-- A cause under its number, which stands in a column of five. -/
def numbered (number : Nat) (cause : List Char) : List Char :=
  let digits := (toString number).toList
  indent (List.replicate (5 - digits.length) ' ' ++ digits ++ [':', ' ']) (List.replicate 7 ' ')
    cause

/-- The causes of an error, each on lines of its own. A cause that stands alone has no number. -/
def causes : List (List Char) → List Char
  | [] => []
  | [cause] => "\n\nCaused by:\n".toList ++ indent (List.replicate 4 ' ') (List.replicate 4 ' ') cause
  | several =>
    "\n\nCaused by:".toList
      ++ (several.zipIdx.flatMap fun (cause, number) => '\n' :: numbered number cause)

/-- The report of an error with its causes. -/
def text (headline : List Char) (chain : List (List Char)) : List Char :=
  "Error: ".toList ++ headline ++ causes chain ++ ['\n']

end ErrorReport

/-! ## The program -/

/-- What one run of the program leaves behind. -/
structure CliReport where
  /-- The exit status. -/
  status : UInt8
  /-- The lines of the standard output. -/
  lines : List (List Char)
  /-- The error stream. -/
  stderr : List Char
  files : Files

namespace CliReport

/-- The standard output. -/
def stdout (report : CliReport) : List Char :=
  report.lines.flatMap fun line => line ++ ['\n']

end CliReport

namespace Cli

/-- The causes of an error that kept the diagram from being drawn. -/
def renderChain (error : RenderError) : List (List Char) :=
  error.message.toList :: (error.cause?.map fun cause => cause.message.toList).toList

/-- The status of a program whose sampling failed. -/
def samplingStatus {σ : Type} : SampleError σ → UInt8
  | .exhausted _ => 1
  | .capacityOverflow | .fault _ => 101

/-- Run the program on some files with a source of choices: its report, and what is left of the
source. -/
def run {γ : Type} [ChoiceSource γ] (host : Host) (files : Files) (source : γ) : CliReport × γ :=
  let rendering := RenderConfig.default.render host files Amount.table
  match rendering.result with
  | .error error =>
    let headline := "Failed to render the currency automaton".toList
    (⟨1, [], ErrorReport.text headline (renderChain error), rendering.files⟩, source)
  | .ok _ =>
    let sampling := Amount.table.collect Amount.policy .default source
    match sampling.outcome with
    | .error error =>
      (⟨samplingStatus error, [], ErrorReport.text error.message.toList [], rendering.files⟩,
        sampling.source)
    | .ok texts => (⟨0, texts, [], rendering.files⟩, sampling.source)

end Cli

end AmountWalk
