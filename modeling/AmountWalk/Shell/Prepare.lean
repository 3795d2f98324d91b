import AmountWalk.Shell.Builtin
import AmountWalk.Shell.Redirect

/-!
# What a simple command runs

The words of a simple command are expanded one after another until it is clear what is run, because that
decides how the others are expanded: behind a builtin that sets variables, those that do so are not
split. The builtin `command` is looked through.
-/

namespace AmountWalk.Shell

/-- Words that are being expanded. -/
structure Filling where
  /-- The fields so far. -/
  fields : List Text
  /-- The words that are left. -/
  words : List Word

/-- Expand words until there are so many fields, or no words are left. -/
def fillFrom (run : Runner) (count : Nat) (fields : List Text) : List Word → Attempt Filling
  | [] => return ⟨fields, []⟩
  | word :: words =>
    if count ≤ fields.length then return ⟨fields, word :: words⟩
    else do
      let more ← Expand.fields run word
      fillFrom run count (fields ++ more) words

/-- Expand words until there are so many fields, or no words are left. -/
def Filling.upTo (f : Filling) (run : Runner) (count : Nat) : Attempt Filling :=
  fillFrom run count f.fields f.words

inductive Runnable where
  /-- Nothing. -/
  | nothing
  | builtin
  | function (body : Command)
  | program

/-- What a simple command runs, as far as that is known before all its words are expanded. -/
structure Prepared where
  target : Runnable
  /-- The fields before the name of what is run. -/
  skipped : Nat
  /-- Whether the first builtin is one whose errors end a shell, if the command runs a builtin at all. -/
  isSpecial : Option Bool
  /-- Whether programs are searched in the directories that every system has. -/
  isDefault : Bool

namespace Prepared

/-- The place behind the options of `command` from a place on, whether one of them asks for the default
directories, and the fields so far. There is no place when `command` itself is to be run. -/
def behindOptions (run : Runner) : Nat → Nat → Bool → Filling →
    Attempt (Filling × Option Nat × Bool)
  | 0, _, isDefault, f => return (f, none, isDefault)
  | fuel + 1, place, isDefault, f => do
    let f ← f.upTo run (place + 1)
    match f.fields[place]? with
    | none => return (f, none, isDefault)
    | some ['-', '-'] =>
      let f ← f.upTo run (place + 2)
      return (f, if place + 1 < f.fields.length then some (place + 1) else none, isDefault)
    | some ('-' :: letter :: letters) =>
      if (letter :: letters).all (· = 'p') then behindOptions run fuel (place + 1) true f
      else return (f, none, isDefault)
    | some _ => return (f, some place, isDefault)

/-- Find what is run, from the name at a place on. -/
def find (run : Runner) : Nat → Nat → Option Bool → Bool → Bool → Filling →
    Attempt (Prepared × Filling)
  | 0, place, isSpecial, _, isDefault, f => return (⟨.nothing, place, isSpecial, isDefault⟩, f)
  | fuel + 1, place, isSpecial, withFunctions, isDefault, f => do
    let s ← get
    let name := f.fields.getD place []
    match (if withFunctions then s.functions.get? name else none) with
    | some body => return (⟨.function body, place, isSpecial, isDefault⟩, f)
    | none =>
      if !Builtin.isBuiltin name then return (⟨.program, place, isSpecial, isDefault⟩, f)
      else
        let isSpecial := some (isSpecial.getD (specialBuiltins.contains name))
        if name ≠ "command".toList then return (⟨.builtin, place, isSpecial, isDefault⟩, f)
        else
          let (f, place?, isDefault') ← behindOptions run (fuel + 1) (place + 1) isDefault f
          match place? with
          | none => return (⟨.builtin, place, isSpecial, isDefault⟩, f)
          | some place => find run fuel place isSpecial false isDefault' f

/-- Whether the fields behind the name set variables. -/
def setsVariables (p : Prepared) (fields : List Text) : Bool :=
  match p.target with
  | .builtin => Builtin.setsVariables (fields.getD p.skipped [])
  | _ => false

/-- Whether the channels of the command stay where they are. -/
def isExec (p : Prepared) (fields : List Text) : Bool :=
  match p.target with
  | .builtin => fields.getD p.skipped [] == "exec".toList
  | _ => false

/-- Whether what is set in front of the command is restored at its end. -/
def restores (p : Prepared) : Bool :=
  match p.target with
  | .nothing => false
  | .builtin => p.isSpecial != some true
  | _ => true

end Prepared

/-- Expand the other words of a command. Those that set variables may not be split. -/
def restFields (run : Runner) (setsVariables : Bool) : List Word → Attempt (List Text)
  | [] => return []
  | word :: words => do
    let first ←
      match (if setsVariables then word.setting? else none) with
      | some (name, value) =>
        let text ← Expand.text run .ofSetting value
        pure [name ++ '=' :: text]
      | none => Expand.fields run word
    return first ++ (← restFields run setsVariables words)

/-- What a simple command runs, and its fields. -/
def prepare (run : Runner) (words : List Word) : Attempt (Prepared × List Text) := do
  let f ← fillFrom run 1 [] words
  if f.fields.isEmpty then return (⟨.nothing, 0, none, false⟩, [])
  else
    let (p, f) ← Prepared.find run (words.length + f.fields.length + 1) 0 none true false f
    let rest ← restFields run (p.setsVariables f.fields) f.words
    return (p, f.fields ++ rest)

end AmountWalk.Shell
