import AmountWalk.Shell.Builtin.Basic
import AmountWalk.Shell.Mask

/-!
# Builtins for what a process may do

`umask`, the permissions that new files do not get, and `ulimit`, the amounts of something that a process
may use.
-/

namespace AmountWalk.Shell.Builtin

/-! ## Permissions -/

/-- The number that octal digits write. -/
def octal? (text : Text) : Option Nat :=
  if text.all fun ch => isDigit ch && digitValue ch < 8 then some (numberOf 8 text) else none

/-- Write or change the permissions that new files do not get. -/
def umask (s : Session) (arguments : List Text) : Session :=
  withOptions s "S" arguments fun letters arguments =>
    let s := s.done 0
    match arguments with
    | [] =>
      s.printLine
        (if letters.isEmpty then Mask.digits s.mask else Mask.clauses (Mask.full ^^^ s.mask))
    | text :: _ =>
      if text.head?.any isDigit then
        match octal? text with
        | some mask => { s with mask := mask % 0o1000 }
        | none => s.fail ("Illegal number: ".toList ++ text)
      else
        match Mask.clauses? text with
        | some changes => { s with mask := Mask.full ^^^ Mask.change (Mask.full ^^^ s.mask) changes }
        | none => s.fail ("Illegal mode: ".toList ++ text)

/-! ## Limits -/

/-- Something of which a process may use only so much. -/
structure Resource where
  /-- The letter that stands for it. -/
  letter : Char
  name : String
  /-- How much of it the shell counts as one. -/
  factor : Nat

/-- What is limited. -/
def resources : List Resource :=
  [⟨'t', "time(seconds)", 1⟩, ⟨'f', "file(blocks)", 512⟩, ⟨'d', "data(kbytes)", 1024⟩,
    ⟨'s', "stack(kbytes)", 1024⟩, ⟨'c', "coredump(blocks)", 512⟩, ⟨'m', "memory(kbytes)", 1024⟩,
    ⟨'l', "locked memory(kbytes)", 1024⟩, ⟨'p', "process", 1⟩, ⟨'n', "nofiles", 1⟩,
    ⟨'v', "vmemory(kbytes)", 1024⟩, ⟨'w', "locks", 1⟩, ⟨'r', "rtprio", 1⟩]

namespace Resource

/-- The number of bits in an amount. An amount of which all are set stands for no limit. -/
def amountBits : Nat := 64

/-- An amount as a number with a sign: the greater half of them are less than zero. -/
def signedAmount (n : Nat) : Int := Int.bmod n (Nat.pow 2 amountBits)

def amountText (resource : Resource) (amount : Option Nat) : Text :=
  match amount with
  | none => "unlimited".toList
  | some n => digitsOfInt (signedAmount (n / resource.factor))

/-- The amount that a text writes. Bits that are too many are lost. -/
def amount? (resource : Resource) (text : Text) : Option (Option Nat) :=
  if text = "unlimited".toList then some none
  else if text.all isDigit then
    let n := numberOf 10 text * resource.factor % Nat.pow 2 amountBits
    some (if n + 1 = Nat.pow 2 amountBits then none else some n)
  else none

end Resource

/-- Whether an amount is greater than another one. -/
def exceeds : Option Nat → Option Nat → Bool
  | _, none => false
  | none, some _ => true
  | some a, some b => b < a

/-- Set a limit, if that is allowed: no limit may be greater than the one that cannot be raised. -/
def setLimit (s : Session) (letter : Char) (before after : Limit) : Session :=
  let refused (why : String) : Session :=
    s.fail ("error setting limit (".toList ++ why.toList ++ [')'])
  if exceeds after.soft after.hard then refused "Invalid argument"
  else if exceeds after.hard before.hard then refused "Operation not permitted"
  else
    let limits := s.limits.map fun (known, limit) => (known, if known = letter then after else limit)
    let s := { s with limits }
    if letter = 'f' then
      { s with
        world := s.world.change s.process fun p =>
          { p with fileLimit := after.soft.map fun n => (Resource.signedAmount n).toNat } }
    else s

/-- Write or set limits. -/
def ulimit (s : Session) (arguments : List Text) : Session :=
  withOptions s "HSatfdscmlpnvwr" arguments fun letters arguments =>
    let s := s.done 0
    let choice? := (letters.filter fun ch => ch == 'H' || ch == 'S').getLast?
    let letter :=
      ((letters.filter fun ch => ch != 'H' && ch != 'S' && ch != 'a').getLast?).getD 'f'
    let resource := (resources.find? (·.letter = letter)).getD ⟨letter, "", 1⟩
    let all : Bool := letters.contains 'a'
    let limitOf (letter : Char) : Limit := (s.limits.lookup letter).getD ⟨none, none⟩
    let shown (resource : Resource) : Text :=
      let limit := limitOf resource.letter
      resource.amountText (if choice? = some 'H' then limit.hard else limit.soft)
    match arguments with
    | [] =>
      if all then
        s.printLines <|
          resources.map fun resource =>
            resource.name.toList ++ List.replicate (20 - resource.name.length) ' ' ++ ' '
              :: shown resource
      else s.printLine (shown resource)
    | text :: rest =>
      if all || !rest.isEmpty then s.fail "too many arguments".toList
      else
        match resource.amount? text with
        | none => s.fail "bad number".toList
        | some amount =>
          let before := limitOf letter
          setLimit s letter before
            { soft := if choice? = some 'H' then before.soft else amount
              hard := if choice? = some 'S' then before.hard else amount }

end AmountWalk.Shell.Builtin
