import AmountWalk.Shell.Text

/-!
# File permissions in words

A set of permissions has nine bits: three for the owner of a file, three for its group and three for
all others. It is written in octal digits or as clauses such as `u=rwx,go-w`, which change a set of
permissions one after another.
-/

namespace AmountWalk.Shell.Mask

/-- All permissions. -/
def full : Nat := 0o777

/-- What a letter of a clause allows. -/
inductive Permission where
  /-- These bits. -/
  | bits (n : Nat)
  /-- To run the file, if somebody may run it before. -/
  | runAgain
  /-- What those at this place of the bits were allowed before. -/
  | copy (place : Nat)

/-- A change: for whom, with which sign, and what. -/
structure Change where
  /-- The bits that may change. -/
  who : Nat
  /-- Whether the permissions are added, taken away or set. -/
  sign : Char
  permissions : List Permission

/-- The bits of those that a letter names. -/
def whoOf? (ch : Char) : Option Nat :=
  match ch with
  | 'u' => some 0o700
  | 'g' => some 0o070
  | 'o' => some 0o007
  | 'a' => some full
  | _ => none

/-- What a letter allows. -/
def permissionOf? (ch : Char) : Option Permission :=
  match ch with
  | 'r' => some (.bits 0o444)
  | 'w' => some (.bits 0o222)
  | 'x' => some (.bits 0o111)
  | 's' => some (.bits 0)
  | 'X' => some .runAgain
  | 'u' => some (.copy 6)
  | 'g' => some (.copy 3)
  | 'o' => some (.copy 0)
  | _ => none

/-- Whether a character is the sign of a change. -/
def isSign (ch : Char) : Bool := ch == '+' || ch == '-' || ch == '='

/-- The changes of a clause behind its first letters. -/
def changes? (who : Nat) : Text → Option (List Change)
  | [] => some []
  | ch :: rest =>
    if isSign ch then (changes? who rest).map (⟨who, ch, []⟩ :: ·)
    else
      match permissionOf? ch, changes? who rest with
      | some permission, some others => some (⟨who, ' ', [permission]⟩ :: others)
      | _, _ => none

/-- Changes in which the permissions stand with the sign before them. -/
def gathered : List Change → List Change
  | [] => []
  | change :: rest =>
    if change.sign = ' ' then gathered rest
    else
      let own := rest.takeWhile (·.sign = ' ')
      { change with permissions := own.flatMap Change.permissions } :: gathered rest

/-- The changes that a clause writes. -/
def clause? (text : Text) : Option (List Change) :=
  let letters := text.takeWhile fun ch => (whoOf? ch).isSome
  let rest := text.drop letters.length
  let who := letters.foldl (fun bits ch => bits ||| (whoOf? ch).getD 0) 0
  if rest.head?.any isSign then (changes? (if letters = [] then full else who) rest).map gathered
  else none

/-- The changes that clauses write. -/
def clauses? (text : Text) : Option (List Change) :=
  let texts := text.splitOn ','
  let texts := if texts.getLast? = some [] then texts.dropLast else texts
  (texts.mapM clause?).map List.flatten

/-- The bits of a permission, given the set before all changes. -/
def Permission.resolve (before : Nat) : Permission → Nat
  | bits n => n
  | runAgain => if before &&& 0o111 = 0 then 0 else 0o111
  | copy place => (before >>> place &&& 7) * 0o111

/-- A set of permissions after changes. -/
def change (before : Nat) (changes : List Change) : Nat :=
  changes.foldl
    (fun bits change =>
      let wanted := change.permissions.foldl (fun bits p => bits ||| p.resolve before) 0 &&& change.who
      match change.sign with
      | '+' => bits ||| wanted
      | '-' => bits &&& (full ^^^ wanted)
      | _ => bits &&& (full ^^^ change.who) ||| wanted)
    before

/-- A set of permissions in octal digits. -/
def digits (bits : Nat) : Text :=
  '0' :: [6, 3, 0].map fun place => Nat.digitChar (bits >>> place &&& 7)

/-- A set of permissions as clauses. -/
def clauses (bits : Nat) : Text :=
  let part (who : Char) (place : Nat) : Text :=
    let own := bits >>> place &&& 7
    let letter (bit : Nat) (ch : Char) : Text := if own &&& bit = 0 then [] else [ch]
    who :: '=' :: letter 4 'r' ++ letter 2 'w' ++ letter 1 'x'
  [','].intercalate [part 'u' 6, part 'g' 3, part 'o' 0]

end AmountWalk.Shell.Mask
