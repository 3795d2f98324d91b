import AmountWalk.Choice.Seeded
import AmountWalk.Cli

/-!
# The executable

Runs `Cli.run` with a seed from the system and does outside what the report says. No program is
started here, so the diagram's source is written and the drawing program counts as missing.

The run sees a tree in which the directory of the process is empty. What it leaves in there is just what
it has written, and that is all that is written outside.
-/

namespace AmountWalk.Main

/-- A seed from eight random bytes. -/
def seedOf (bytes : ByteArray) : UInt64 :=
  bytes.toList.foldl (fun seed byte => seed <<< 8 ||| byte.toUInt64) 0

/-- The place of the directory in which the program runs. -/
def workingDir : Location := PathText.location "/work"

/-- Write the files that a run has left in its directory. -/
def writeFiles (report : CliReport) : IO Unit :=
  report.files.listing.forM fun (name, content) =>
    IO.FS.writeBinFile (String.ofList (Utf8.decodeLossy name)) ⟨content.toArray⟩

end AmountWalk.Main

/-- Draw the diagram and print five amounts. -/
def main : IO UInt32 := do
  let seed := AmountWalk.Main.seedOf (← IO.getRandomBytes 8)
  let (report, _) := AmountWalk.Cli.run .bare (.system AmountWalk.Main.workingDir)
    (AmountWalk.Seeded.ofSeed seed)
  AmountWalk.Main.writeFiles report
  IO.print (String.ofList report.stdout)
  IO.eprint (String.ofList report.stderr)
  return report.status.toUInt32
