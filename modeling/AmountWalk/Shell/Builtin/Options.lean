import AmountWalk.Shell.Builtin.Variables

/-!
# Builtins for options

`set`, which turns the options of the shell on and off, and `getopts`, with which a script finds its own.
-/

namespace AmountWalk.Shell.Builtin

/-! ## Options of the shell -/

/-- The options of a shell by letter, with their names. -/
def shellOptions : List (Char × String) :=
  [('e', "errexit"), ('f', "noglob"), ('I', "ignoreeof"), ('i', "interactive"), ('m', "monitor"),
    ('n', "noexec"), ('s', "stdin"), ('x', "xtrace"), ('v', "verbose"), ('V', "vi"), ('E', "emacs"),
    ('C', "noclobber"), ('a', "allexport"), ('b', "notify"), ('u', "nounset"), ('p', "privileged"),
    ('l', "nolog"), ('d', "debug")]

/-- Whether one of two options turns the other one off. -/
def excludes (letter other : Char) : Bool :=
  letter == 'V' && other == 'E' || letter == 'E' && other == 'V'

/-- Turn an option on or off. The options stay in the order in which they are listed. -/
def turn (s : Session) (letter : Char) (on : Bool) : Session :=
  let isOn (ch : Char) : Bool :=
    if ch = letter then on else s.has ch && !(on && excludes letter ch)
  { s with options := (shellOptions.reverse.map Prod.fst).filter isOn }

def listOptions (s : Session) (asCommands : Bool) : Session :=
  let line (letter : Char) (name : String) : Text :=
    if asCommands then
      "set ".toList ++ (if s.has letter then ['-'] else ['+']) ++ "o ".toList ++ name.toList
    else
      name.toList ++ List.replicate (16 - name.length) ' '
        ++ (if s.has letter then "on".toList else "off".toList)
  let head := if asCommands then [] else ["Current option settings".toList]
  s.printLines (head ++ shellOptions.map fun (letter, name) => line letter name)

/-- Turn options on and off by their letters, of which `o` takes a name from the arguments. -/
def turnLetters (s : Session) (on : Bool) : Text → List Text → Session × List Text
  | [], arguments => (s, arguments)
  | 'o' :: letters, arguments =>
    match arguments with
    | [] => turnLetters (listOptions s !on) on letters []
    | name :: rest =>
      match shellOptions.find? fun (_, known) => known.toList = name with
      | some (letter, _) => turnLetters (turn s letter on) on letters rest
      | none => (s.fail ("Illegal option -o ".toList ++ name), rest)
  | letter :: letters, arguments =>
    if letter ≠ 'l' ∧ letter ≠ 'd' ∧ (shellOptions.lookup letter).isSome then
      turnLetters (turn s letter on) on letters arguments
    else (s.fail ("Illegal option -".toList ++ [letter]), arguments)

/-- Set the arguments of the script. -/
def setArguments (s : Session) (arguments : List Text) : Session :=
  { s with arguments, optionIndex := 1, optionOffset := none }

/-- Turn options on and off, and set the arguments if some are given. -/
def setFrom : Nat → Session → List Text → Session
  | 0, s, _ => s
  | fuel + 1, s, arguments =>
    match arguments with
    | [] => s
    | argument :: rest =>
      match argument with
      | ['-', '-'] => setArguments s rest
      | ['-'] =>
        let s := turn (turn s 'x' false) 'v' false
        if rest.isEmpty then s else setArguments s rest
      | '-' :: letters =>
        let (s, rest) := turnLetters s true letters rest
        if s.isOn then setFrom fuel s rest else s
      | '+' :: letters =>
        let (s, rest) := turnLetters s false letters rest
        if s.isOn then setFrom fuel s rest else s
      | _ => setArguments s arguments

/-- Without a terminal there is no job control. -/
def withoutJobControl (s : Session) : Session :=
  if s.has 'm' && !s.isSubshell then
    turn (s.complain "can't access tty; job control turned off".toList) 'm' false
  else s

/-- List the variables, or change options and arguments. -/
def setOptions (s : Session) (arguments : List Text) : Session :=
  let s := s.done 0
  if arguments.isEmpty then
    s.printLines <|
      s.bindings.sorted.filterMap fun (name, binding) =>
        binding.value.map fun value => listing [] name (some value)
  else
    let s := setFrom (arguments.length + 1) s arguments
    if s.isOn then withoutJobControl s else s

/-! ## Options of a script -/

/-- What the search for an option has found. -/
structure OptionFound where
  /-- The letter, or a sign that there is none. -/
  letter : Char
  /-- The value for `OPTARG`, if it has one. -/
  argument : Option Text
  /-- The message, if something is wrong. -/
  message : Option Text
  /-- Where the search goes on: the number of the next argument and the place in the one before. -/
  next : Nat × Option Nat
  /-- Whether there are no more options. -/
  ended : Bool

/-- What follows the letter of an option in the text that lists them. A colon behind a letter says
that the option takes a value. -/
def behindOption? (letter : Char) : Text → Option Text
  | [] => none
  | ch :: ':' :: rest => if ch = letter then some (':' :: rest) else behindOption? letter rest
  | ch :: rest => if ch = letter then some rest else behindOption? letter rest

/-- Search for the next option. -/
def nextOption (known : Text) (arguments : List Text) (index : Nat) (offset : Option Nat) :
    OptionFound :=
  let silent : Bool := known.head? == some ':'
  let current? : Option Text :=
    match offset with
    | some n => if 1 < index then (arguments[index - 2]?.map (·.drop n)).filter (· ≠ []) else none
    | none => none
  let ended (next : Nat) : OptionFound := ⟨'?', none, none, (next, none), true⟩
  let found (letter : Char) (rest : Text) (index : Nat) : OptionFound :=
    let word := arguments.getD (index - 2) []
    let stay : Nat × Option Nat := (index, some (word.length - rest.length))
    match behindOption? letter known with
    | none =>
      if silent then ⟨'?', some [letter], none, stay, false⟩
      else ⟨'?', none, some ("Illegal option -".toList ++ [letter]), stay, false⟩
    | some (':' :: _) =>
      if rest ≠ [] then ⟨letter, some rest, none, (index, none), false⟩
      else
        match arguments[index - 1]? with
        | some argument => ⟨letter, some argument, none, (index + 1, none), false⟩
        | none =>
          if silent then ⟨':', some [letter], none, (index, none), false⟩
          else ⟨'?', none, some ("No arg for -".toList ++ [letter] ++ " option".toList),
            (index, none), false⟩
    | _ => ⟨letter, some [], none, stay, false⟩
  match current? with
  | some (letter :: rest) => found letter rest index
  | _ =>
    match arguments[index - 1]? with
    | some ['-', '-'] => ended (index + 1)
    | some ('-' :: letter :: rest) => found letter rest (index + 1)
    | _ => ended index

/-- Find the next option among the arguments. A search that would go on behind all of them starts again, and
so does one that has failed. -/
def getopts (s : Session) (arguments : List Text) : Session :=
  match arguments with
  | known :: name :: given =>
    let searched := if given.isEmpty then s.arguments else given
    let o :=
      if searched.length + 1 < s.optionIndex then nextOption known searched 1 none
      else nextOption known searched s.optionIndex s.optionOffset
    let s := { s with optionIndex := 1, optionOffset := none }
    let s :=
      match o.message with
      | some message => s.warn (message ++ ['\n'])
      | none => s
    let s :=
      match o.argument with
      | some value => s.set "OPTARG".toList value
      | none => if o.ended then s else orFail s (s.unset "OPTARG".toList)
    if !s.isOn then s
    else
      let s :=
        { s.set "OPTIND".toList (digitsOf o.next.1) with
          optionIndex := s.optionIndex, optionOffset := s.optionOffset }
      if !s.isOn then s
      else
        withVariable s name fun name =>
          match s.assign name [o.letter] with
          | .error message => s.fail message
          | .ok s => { s with optionIndex := o.next.1, optionOffset := o.next.2 }.verdict !o.ended
  | _ => s.fail "Usage: getopts optstring var [arg...]".toList

end AmountWalk.Shell.Builtin
