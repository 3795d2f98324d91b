import AmountWalk.Shell.Builtin.Basic
import AmountWalk.Shell.Expand

/-!
# Builtins for jobs

`jobs`, which lists the jobs, `wait`, which waits for some, and `fg` and `bg`, which would let one go on
if there were job control.
-/

namespace AmountWalk.Shell.Builtin

/-- The job that an argument names. Without job control, the text of no job is known. -/
def job (s : Session) (forControl : Bool) (name : Text) : Except Text Job :=
  let missing : Text := "No such job: ".toList ++ name
  let found (job? : Option Job) (message : Text) : Except Text Job :=
    match job? with
    | none => .error message
    | some job =>
      if forControl then .error ("job ".toList ++ name ++ " not created under job control".toList)
      else .ok job
  match name with
  | ['%'] | ['%', '+'] | ['%', '%'] => found s.jobs.head? "No current job".toList
  | ['%', '-'] => found s.jobs[1]? "No previous job".toList
  | ['%', '?'] =>
    match s.jobs with
    | [job] => found (some job) missing
    | [] => .error missing
    | _ => .error (name ++ ": ambiguous".toList)
  | '%' :: text => found ((number? text).bind s.job?) missing
  | _ => .error missing

/-- What has become of a job. -/
def stateOf (job : Job) : Text :=
  if job.isRunning then "Running".toList
  else
    match job.ending? with
    | none => "Done".toList
    | some (.exited code) =>
      if code = 0 then "Done".toList else "Done(".toList ++ digitsOf code.toNat ++ [')']
    | some (.killed signal) => (Signal.description signal).toList

/-- The column at which the text of a job would stand. -/
def jobColumn : Nat := 33

def toColumn (text : Text) : Text := text ++ List.replicate (max 1 (jobColumn - text.length)) ' '

/-- The lines that list a job, perhaps with the numbers of its processes. -/
def jobLines (s : Session) (withProcesses : Bool) (job : Job) : List Text :=
  let isAt (place : Nat) : Bool := (s.jobs[place]?.map Job.number) == some job.number
  let mark := if isAt 0 then '+' else if isAt 1 then '-' else ' '
  let head := '[' :: digitsOf job.number ++ ']' :: ' ' :: mark :: [' ']
  let processes := job.processes.map (·.1)
  if withProcesses then
    let first := toColumn (head ++ digitsOf (processes.headD 0) ++ ' ' :: stateOf job)
    let others := processes.tail.map fun process =>
      let text := List.replicate head.length ' ' ++ digitsOf process ++ [' ']
      text ++ List.replicate (max 1 (jobColumn - text.length)) ' '
    match others with
    | [] => [first]
    | _ => (first ++ [' ', '|']) :: (others.dropLast.map (· ++ [' ', '|']) ++ others.getLast?.toList)
  else [toColumn (head ++ stateOf job) ++ (processes.tail.flatMap fun _ => " | ".toList)]

/-- List a job, and forget it if it has ended. -/
def listJob (letter? : Option Char) (s : Session) (job : Job) : Session :=
  if letter? = some 'p' then s.printLine (digitsOf ((job.processes.map (·.1)).headD 0))
  else
    let s := s.printLines (jobLines s (letter? == some 'l') job)
    if job.isRunning then s else s.dropJob job.number

def jobs (s : Session) (arguments : List Text) : Session :=
  withOptions s "lp" arguments fun letters names =>
    let s := s.done 0
    let letter? := letters.getLast?
    if names.isEmpty then
      let s := s.collectAll
      s.jobs.foldl (listJob letter?) s
    else
      s.forEach names fun s name =>
        match job s false name with
        | .ok job => listJob letter? s job
        | .error message => s.fail message

/-- Let a job go on, which cannot be done without job control. -/
def resume (s : Session) (arguments : List Text) : Session :=
  withOptions s "" arguments fun _ names =>
    match names with
    | name :: _ =>
      match job s true name with
      | .ok _ => s.done 0
      | .error message => s.fail message
    | [] =>
      if s.jobs.isEmpty then s.fail "No current job".toList
      else s.fail "job (null) not created under job control".toList

/-! ## Waiting -/

/-- The signals that have arrived, the last one first. -/
def arrived (s : Session) : List Nat :=
  ((s.world.running? s.process).map Process.arrived).getD []

/-- Wait until something is the case, or a signal arrives; the status that the signal gives, if it comes
first. Those who have ended are noticed on the way. -/
def waitUntil (isOver : Session → Bool) : Nat → Act (Option Nat)
  | 0 => return none
  | fuel + 1 => do
    modify Session.collectAll
    let s ← get
    if isOver s then return none
    else
      match arrived s with
      | signal :: _ => return some (128 + signal)
      | [] =>
        let running := s.jobs.flatMap fun job => (job.processes.filter (·.2.isNone)).map (·.1)
        let process := s.process
        Act.await fun world =>
          running.any world.hasEnded
            || ((world.running? process).map Process.arrived).any fun arrived => !arrived.isEmpty
        waitUntil isOver fuel

/-- The fuel to wait for all processes: each time, another one ends or a signal arrives. -/
def waitFuel (s : Session) : Nat :=
  (s.jobs.foldl (fun sum job => sum + job.processes.length) 0) + 2

/-- Wait for one job; its status, unless a signal comes first. -/
def waitForJob (number : Nat) : Act (Nat × Bool) := do
  let before := ((← get).job? number).map fun job => job.processes.filter (·.2.isNone)
  let isOver (s : Session) : Bool := !(s.job? number).any Job.isRunning
  match ← waitUntil isOver (waitFuel (← get)) with
  | some status => return (status, false)
  | none =>
    let s ← get
    let job? := s.job? number
    let endings := (before.getD []).filterMap fun (process, _) =>
      (job?.bind (·.processes.get? process)).join
    set ((endings.foldl Session.mourn s).changeJob number fun job => { job with hasWaited := true })
    return (((job?.bind Job.ending?).map Session.codeOf).getD 0, true)

/-- Wait for the jobs that arguments name, one after another. -/
def waitForAll (status : Nat) : List Text → Act Unit
  | [] => modify (·.done status)
  | name :: rest => do
    let s ← get
    let job? : Except Text (Option Job) :=
      match name with
      | '%' :: _ => (job s false name).map some
      | _ =>
        match count? name with
        | none => .error ("Illegal number: ".toList ++ name)
        | some process =>
          .ok (s.jobs.find? fun job => (job.processes.getLast?.map (·.1)) == some process)
    match job? with
    | .error message => modify (·.fail message)
    | .ok none => waitForAll status rest
    | .ok (some job) =>
      let (status, hasEnded) ← waitForJob job.number
      if hasEnded then waitForAll status rest else modify (·.done status)

/-- Wait for processes in the background. -/
def wait (arguments : List Text) : Act Unit := do
  match options ⟨"", ""⟩ arguments with
  | .error message => modify (·.fail message)
  | .ok (_, []) =>
    let isOver (s : Session) : Bool := !s.jobs.any Job.isRunning
    let status? ← waitUntil isOver (waitFuel (← get))
    modify fun s =>
      { s with jobs := s.jobs.map fun job => { job with hasWaited := job.hasWaited || !job.isRunning } }
    modify (·.done (status?.getD 0))
  | .ok (_, names) => waitForAll 127 names

end AmountWalk.Shell.Builtin
