import AmountWalk.Shell.Redirect

/-!
# Where scripts are read from

A shell reads a script block by block from a channel, and runs what it has read before it reads more. So a
script may still be changed behind the block that was read last, and other processes that read from the
same opened file go on behind that block.

A script with a path of its own gets a channel that no script can name.
-/

namespace AmountWalk.Shell

/-- The greatest number of bytes that are read at once. -/
def blockLength : Nat := 8192

namespace Session

/-- The session in which the script at a path has been opened, and the channel from which it is read. -/
def openScript (s : Session) (path : Text) : Except Text (Session × Nat) := do
  let (s, channel) ← Redirect.openPath s .read path
  let (s, channel) ←
    if firstPlace ≤ channel then pure (s, channel)
    else
      match s.nextPlace with
      | .ok place => pure ((s.lead place (s.channel? channel)).lead channel none, place)
      | .error error => throw (digitsOf channel ++ ": ".toList ++ error.words.toList)
  return ({ s with inputs := channel :: s.inputs }, channel)

/-- The session that has done with the script that it reads from a channel. -/
def closeScript (s : Session) (channel : Nat) : Session :=
  { s.lead channel none with inputs := s.inputs.erase channel }

end Session

/-- Read the next block from a channel, which is empty when nothing is left. Every turn but the last has
to wait. -/
def readBlock : Nat → Nat → Act Text
  | 0, _ => return []
  | fuel + 1, channel => do
    let s ← get
    match (s.channel? channel).bind fun n => (s.world.opened.get? n).map (n, ·) with
    | none => return []
    | some (number, file) =>
      let (text, isAll) := s.world.available file
      if text.isEmpty && !isAll then
        Act.await fun world => world.isReadable file
        readBlock fuel channel
      else
        let block := text.take blockLength
        set { s with world := s.world.consume number block.length }
        return block

end AmountWalk.Shell
