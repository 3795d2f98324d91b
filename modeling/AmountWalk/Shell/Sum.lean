import AmountWalk.Shell.Text

/-!
# Arithmetic

The arithmetic expressions of a shell: the operators of C on signed numbers of 64 bits, except those
that step a variable and the comma. An expression is read by recursive descent; every call has one
unit of fuel less than its caller, and `Sum.ofText` gives more than any expression of that length
can use.

Every text is an expression, because one that is not well formed is evaluated up to the place at which
that can be told: what is wrong there is a part of the expression.
-/

namespace AmountWalk.Shell

/-- An operator between two operands that are both evaluated. -/
inductive SumOperator where
  | times | divide | modulo | plus | minus | shiftLeft | shiftRight
  | less | lessEqual | greater | greaterEqual | equal | differ
  | bitAnd | bitXor | bitOr
  deriving DecidableEq

/-- Why an expression has no value. -/
inductive SumError where
  /-- It is not well formed, or divides by zero. -/
  | mistaken (message : Text)
  /-- A variable has no number for a value, or may not be set. -/
  | refused (message : Text)
  /-- The result of a division is too great. -/
  | overflow

/-- An arithmetic expression. -/
inductive Sum where
  | number (n : Int)
  /-- The value of a variable. -/
  | named (name : Text)
  /-- The opposite number. -/
  | negative (operand : Sum)
  /-- One for zero, and zero for anything else. -/
  | isZero (operand : Sum)
  /-- The number with all bits inverted. -/
  | complement (operand : Sum)
  | operation (operator : SumOperator) (left right : Sum)
  /-- Whether both are not zero; the right one is evaluated only if the left one is not. -/
  | both (left right : Sum)
  /-- Whether one is not zero; the right one is evaluated only if the left one is. -/
  | either (left right : Sum)
  /-- One of two, by whether a test is not zero. -/
  | choice (test yes no : Sum)
  /-- Set a variable, perhaps to the result of an operation on its value. -/
  | assign (name : Text) (operator : Option SumOperator) (value : Sum)
  /-- Something that is no expression. -/
  | nothing (message : Text)
  /-- An expression behind which something is missing. -/
  | unfinished (inner : Sum) (message : Text)

namespace SumOperator

/-- The spellings of operators that an equals sign may follow. -/
def assignable : List (Text × SumOperator) :=
  [("<<".toList, shiftLeft), (">>".toList, shiftRight), (['*'], times), (['/'], divide),
    (['%'], modulo), (['+'], plus), (['-'], minus), (['&'], bitAnd), (['^'], bitXor),
    (['|'], bitOr)]

/-- The other spellings. -/
def comparing : List (Text × SumOperator) :=
  [("<=".toList, lessEqual), (">=".toList, greaterEqual), ("==".toList, equal),
    ("!=".toList, differ), (['<'], less), (['>'], greater)]

/-- How tightly an operator binds. -/
def tightness : SumOperator → Nat
  | times | divide | modulo => 8
  | plus | minus => 7
  | shiftLeft | shiftRight => 6
  | less | lessEqual | greater | greaterEqual => 5
  | equal | differ => 4
  | bitAnd => 3
  | bitXor => 2
  | bitOr => 1

/-- The bits of a number. -/
def bits (n : Int) : Nat := (n % Int.pow 2 64).toNat

/-- The result of an operation. -/
def apply (operator : SumOperator) (a b : Int) : Except SumError Int :=
  let truth (b : Bool) : Except SumError Int := .ok (if b then 1 else 0)
  let wrapped (n : Int) : Except SumError Int := .ok (n.bmod (Nat.pow 2 64))
  let divided (n : Int) : Except SumError Int :=
    if b = 0 then .error (.mistaken "division by zero".toList)
    else if a = -Int.pow 2 63 ∧ b = -1 then .error .overflow
    else .ok n
  match operator with
  | times => wrapped (a * b)
  | divide => divided (a.tdiv b)
  | modulo => divided (a.tmod b)
  | plus => wrapped (a + b)
  | minus => wrapped (a - b)
  | shiftLeft => wrapped (a * Int.pow 2 (bits b % 64))
  | shiftRight => wrapped (a / Int.pow 2 (bits b % 64))
  | less => truth (a < b)
  | lessEqual => truth (a ≤ b)
  | greater => truth (b < a)
  | greaterEqual => truth (b ≤ a)
  | equal => truth (a = b)
  | differ => truth (a ≠ b)
  | bitAnd => wrapped (bits a &&& bits b)
  | bitXor => wrapped (bits a ^^^ bits b)
  | bitOr => wrapped (bits a ||| bits b)

end SumOperator

namespace Sum

/-! ## Reading -/

/-- A reader of expressions: what is left of the text. -/
abbrev Reader := StateM Text

/-- The text that is left, without the blanks at its beginning. -/
def rest : Reader Text := do
  modify fun text => text.dropWhile isFieldBlank
  get

/-- Skip characters. -/
def skip (n : Nat) : Reader Unit := modify (·.drop n)

/-- Skip a spelling, if it comes next. -/
def skip? (spelling : String) : Reader Bool := do
  if spelling.toList.isPrefixOf (← rest) then
    skip spelling.length
    return true
  else return false

/-- Read no further, because something is missing. -/
def stop (sum : Sum) : Reader Sum := do
  set ([] : Text)
  return sum

/-- Read no further, because the text is too long. -/
def tooLong : Reader Sum := stop (.nothing "expression too long".toList)

/-- The operator that comes next, and its length. One that sets a variable is none of these, nor is
one that stands between tests. -/
def operator? (text : Text) : Option (SumOperator × Nat) :=
  if "&&".toList.isPrefixOf text ∨ "||".toList.isPrefixOf text then none
  else
    match SumOperator.assignable.find? fun (spelling, _) => spelling.isPrefixOf text with
    | some (spelling, operator) =>
      if (text.drop spelling.length).head? = some '=' then none
      else some (operator, spelling.length)
    | none =>
      (SumOperator.comparing.find? fun (spelling, _) => spelling.isPrefixOf text).map
        fun (spelling, operator) => (operator, spelling.length)

/-- The operator that sets a variable, and its length, if one comes next. -/
def assignment? (text : Text) : Option (Option SumOperator × Nat) :=
  match text with
  | '=' :: '=' :: _ => none
  | '=' :: _ => some (none, 1)
  | _ =>
    (SumOperator.assignable.find? fun (spelling, _) =>
      (spelling ++ ['=']).isPrefixOf text).map
        fun (spelling, operator) => (some operator, spelling.length + 1)

mutual

/-- Read an expression that may set a variable. -/
def readAssignment : Nat → Reader Sum
  | 0 => tooLong
  | fuel + 1 => do
    let text ← rest
    let name := text.takeWhile continuesName
    let behind := (text.drop name.length).dropWhile isFieldBlank
    match (if isName name then assignment? behind else none) with
    | some (operator, length) =>
      set (behind.drop length)
      return .assign name operator (← readAssignment fuel)
    | none => readChoice fuel

/-- Read an expression between `?` and `:`. -/
def readChoice : Nat → Reader Sum
  | 0 => tooLong
  | fuel + 1 => do
    let test ← readEither fuel
    if ← skip? "?" then
      let yes ← readAssignment fuel
      if ← skip? ":" then return .choice test yes (← readChoice fuel)
      else stop (.choice test (.unfinished yes "expecting ':'".toList) (.number 0))
    else return test

/-- Read an expression between `||`. -/
def readEither : Nat → Reader Sum
  | 0 => tooLong
  | fuel + 1 => do
    let left ← readBoth fuel
    if ← skip? "||" then return .either left (← readEither fuel) else return left

/-- Read an expression between `&&`. -/
def readBoth : Nat → Reader Sum
  | 0 => tooLong
  | fuel + 1 => do
    let left ← readOperation fuel 0
    if ← skip? "&&" then return .both left (← readBoth fuel) else return left

/-- Read an expression whose operators bind more tightly than a given one. -/
def readOperation : Nat → Nat → Reader Sum
  | 0, _ => tooLong
  | fuel + 1, tightness => do
    let left ← readOperand fuel
    readOperations fuel tightness left

/-- Read the rest of such an expression. -/
def readOperations : Nat → Nat → Sum → Reader Sum
  | 0, _, _ => tooLong
  | fuel + 1, tightness, left => do
    match operator? (← rest) with
    | some (operator, length) =>
      if operator.tightness ≤ tightness then return left
      else
        skip length
        let right ← readOperation fuel operator.tightness
        readOperations fuel tightness (.operation operator left right)
    | none => return left

/-- Read a number, a variable, an expression in brackets or one behind a sign. -/
def readOperand : Nat → Reader Sum
  | 0 => tooLong
  | fuel + 1 => do
    let text ← rest
    match text with
    | '(' :: _ =>
      skip 1
      let inner ← readAssignment fuel
      if ← skip? ")" then return inner
      else stop (.unfinished inner "expecting ')'".toList)
    | '+' :: _ =>
      skip 1
      readOperand fuel
    | '-' :: _ =>
      skip 1
      return .negative (← readOperand fuel)
    | '!' :: _ =>
      skip 1
      return .isZero (← readOperand fuel)
    | '~' :: _ =>
      skip 1
      return .complement (← readOperand fuel)
    | _ =>
      match leadingNat? text with
      | some (n, after) =>
        set after
        return .number (clampInt n)
      | none =>
        let name := text.takeWhile continuesName
        if isName name then
          skip name.length
          return .named name
        else stop (.nothing "expecting primary".toList)

end

/-- The expression that a text writes. -/
def ofText (text : Text) : Sum :=
  let (sum, left) := (readAssignment (16 * text.length + 16)).run text
  if left.all isFieldBlank then sum else .unfinished sum "expecting EOF".toList

/-! ## Evaluation -/

/-- What is wrong with an expression that is not evaluated. -/
def flaw? : Sum → Option Text
  | number _ | named _ => none
  | negative e | isZero e | complement e | assign _ _ e => flaw? e
  | operation _ left right | both left right | either left right => (flaw? left).or (flaw? right)
  | choice test yes no => ((flaw? test).or (flaw? yes)).or (flaw? no)
  | nothing message => some message
  | unfinished inner message => (flaw? inner).or (some message)

/-- Skip an expression that is not evaluated. -/
def skipped (e : Sum) : Except SumError Unit :=
  match flaw? e with
  | some message => .error (.mistaken message)
  | none => .ok ()

/-- Variables that expressions read and set. -/
structure Store (σ : Type) where
  /-- The value of a variable. -/
  get : Text → σ → Option Text
  /-- Set a variable, unless that is an error. -/
  set : Text → Text → σ → Except Text σ

variable {σ : Type}

/-- The number that a variable holds. One that is empty or has no value holds zero. -/
def Store.number (store : Store σ) (name : Text) (s : σ) : Except SumError Int :=
  let text := (store.get name s).getD []
  let illegal : Except SumError Int := .error (.refused ("Illegal number: ".toList ++ text))
  match leadingInt? text with
  | some (n, after) => if after.all isNumberBlank ∧ clampInt n = n then .ok n else illegal
  | none => if text.all isNumberBlank then .ok 0 else illegal

/-- Set a variable to a number. -/
def Store.put (store : Store σ) (name : Text) (n : Int) (s : σ) : Except SumError σ :=
  match store.set name (digitsOfInt n) s with
  | .ok s => .ok s
  | .error message => .error (.refused message)

/-- The value of an expression, and the variables afterwards. -/
def value (store : Store σ) : Sum → σ → Except SumError (Int × σ)
  | number n, s => .ok (n, s)
  | named name, s => return (← store.number name s, s)
  | negative e, s => do
    let (n, s) ← value store e s
    return ((-n).bmod (Nat.pow 2 64), s)
  | isZero e, s => do
    let (n, s) ← value store e s
    return (if n = 0 then 1 else 0, s)
  | complement e, s => do
    let (n, s) ← value store e s
    return (-n - 1, s)
  | operation operator left right, s => do
    let (a, s) ← value store left s
    let (b, s) ← value store right s
    return (← operator.apply a b, s)
  | both left right, s => do
    let (a, s) ← value store left s
    if a = 0 then
      skipped right
      return (0, s)
    let (b, s) ← value store right s
    return (if b = 0 then 0 else 1, s)
  | either left right, s => do
    let (a, s) ← value store left s
    if a ≠ 0 then
      skipped right
      return (1, s)
    let (b, s) ← value store right s
    return (if b = 0 then 0 else 1, s)
  | choice test yes no, s => do
    let (a, s) ← value store test s
    if a ≠ 0 then
      let result ← value store yes s
      skipped no
      return result
    else
      skipped yes
      value store no s
  | assign name operator e, s => do
    let (b, s) ← value store e s
    let n ←
      match operator with
      | none => pure b
      | some operator => operator.apply (← store.number name s) b
    return (n, ← store.put name n s)
  | nothing message, _ => throw (.mistaken message)
  | unfinished inner message, s => do
    let _ ← value store inner s
    throw (.mistaken message)

end Sum

end AmountWalk.Shell
