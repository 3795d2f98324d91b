import AmountWalk.Files

/-!
# Names of graphs

The name of a diagram's graph comes from the path of its source: the last component without its
extension, every other character than an ASCII letter or digit replaced by an underscore, and a `g`
in front where the name would be empty or start with a digit.
-/

namespace AmountWalk

namespace PathText

/-- The name of the file that a path leads to. There is none when the path is empty, leads to the
root, or ends in `..`. -/
def fileName? (path : List Char) : Option (List Char) :=
  match ((components '/' path).filter fun c => c ≠ [] ∧ c ≠ ['.']).getLast? with
  | none => none
  | some name => if name = ['.', '.'] then none else some name

/-- A file name without its extension, which starts at its last point. A point at the beginning of a
name starts no extension. -/
def stem (name : List Char) : List Char :=
  match name.reverse.dropWhile (· ≠ '.') with
  | [] => name
  | _ :: before => if before = [] then name else before.reverse

end PathText

/-- Whether a character may stand in the name of a graph. -/
def isNameChar (ch : Char) : Bool :=
  ('0' ≤ ch && ch ≤ '9') || ('A' ≤ ch && ch ≤ 'Z') || ('a' ≤ ch && ch ≤ 'z')

/-- A name behind a `g` where it would be empty or start with a digit. -/
def leadWithLetter (name : List Char) : List Char :=
  match name with
  | [] => ['g']
  | ch :: _ => if '0' ≤ ch ∧ ch ≤ '9' then 'g' :: name else name

/-- The name of the graph whose source has the given path. -/
def graphName (path : List Char) : List Char :=
  let stem := ((PathText.fileName? path).map PathText.stem).getD []
  leadWithLetter (stem.map fun ch => if isNameChar ch then ch else '_')

end AmountWalk
