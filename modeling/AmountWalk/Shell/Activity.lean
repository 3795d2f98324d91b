import AmountWalk.Shell.Session

/-!
# What processes do

Several processes share a world, and each one now and then lets others go on: at the end of every
command, and wherever it has to wait. An `Activity` is what a process does from some moment on, as a
tree of such moments. A process that starts another one goes on first.

`Act` builds activities out of steps on a session. A step is given what follows it, because it may have
to wait before that.
-/

namespace AmountWalk.Shell

/-- What a process does from some moment on. -/
inductive Activity where
  | ended (world : World)
  /-- It goes on when something is the case. -/
  | paused (world : World) (isReady : World → Bool) (resume : World → Activity)
  /-- It has started another process, and both go on. -/
  | forked (world : World) (child : Nat) (start resume : World → Activity)

/-- Something that a shell does, with a result. -/
def Act (α : Type) : Type := (α → Session → Activity) → Session → Activity

namespace Act

instance : Monad Act where
  pure a := fun next s => next a s
  bind act f := fun next s => act (fun a => f a next) s

instance : MonadStateOf Session Act where
  get := fun next s => next s s
  set s := fun next _ => next () s
  modifyGet f := fun next s =>
    let (a, s) := f s
    next a s

/-- Let others go on, until something is the case. -/
def await (isReady : World → Bool) : Act Unit := fun next s =>
  .paused s.world isReady fun world => next () { s with world }

/-- Let others go on. -/
def pause : Act Unit := await fun _ => true

/-- Let others go on, until some time has passed. -/
def sleep (nanoseconds : Nat) : Act Unit := fun next s =>
  let time := s.world.clock + nanoseconds
  let world := s.world.change s.process fun p => { p with wakes := some time }
  .paused world (fun world => time ≤ world.clock) fun world => next () { s with world }

/-- End the process with a status. -/
def stop {α : Type} (ending : ExitStatus) : Act α := fun _ s =>
  .ended (s.world.finish s.process ending)

/-- Go on as another session, and never come back. -/
def become {α : Type} (other : Session) (act : Act Unit) : Act α := fun _ _ =>
  act (fun _ s => .ended (s.world.finish s.process (.exited 0))) other

/-- Start another process, for which the world is prepared before either goes on; its number. -/
def fork (prepare : Nat → World → World) (child : Act Unit) : Act Nat := fun next s =>
  let (world, number) := s.world.fork s.process
  let start (world : World) : Activity :=
    child (fun _ s => .ended (s.world.finish s.process (.exited 0))) (s.forked world number)
  .forked (prepare number world) number start fun world => next number { s with world }

end Act

/-- The greatest number of times that something is waited for. -/
def maxWaits : Nat := 1000000

/-! ## Taking turns -/

/-- A process that waits for its turn. -/
structure Waiting where
  /-- The number of the process. -/
  process : Nat
  /-- Whether it can go on. -/
  isReady : World → Bool
  /-- What it does then. -/
  resume : World → Activity

/-- The number of turns that a process may take at once. -/
def turnsAtOnce : Nat := 400

/-- The world, the processes that wait and the number of turns that are left to the first one, when it
has come to the end of a turn. Starting another process takes none. -/
def afterTurn (process : Nat) (others : List Waiting) (turns : Nat) :
    Activity → World × List Waiting × Nat
  | .ended world => (world, others, turnsAtOnce)
  | .paused world isReady resume => (world, ⟨process, isReady, resume⟩ :: others, turns - 1)
  | .forked world child start resume =>
    (world, ⟨process, fun _ => true, resume⟩ :: others ++ [⟨child, fun _ => true, start⟩], turns)

/-- Let processes take turns, until they have all ended, none can go on, or what was wanted has come
about; the processes that are left. The first one goes on for some turns, while it can; `idle` of them in
a row could not. When none can, time may pass. -/
def takeTurns (isOver : World → Bool) (mayPass : Bool) :
    Nat → Nat → Nat → World → List Waiting → World × List Waiting
  | 0, _, _, world, waiting => (world, waiting)
  | _ + 1, _, _, world, [] => (world, [])
  | fuel + 1, turns, idle, world, first :: others =>
    let world := world.struck
    if isOver world then (world, first :: others)
    else if idle > others.length then
      match if mayPass then world.later? else none with
      | none => (world, first :: others)
      | some world => takeTurns isOver mayPass fuel turns 0 world (first :: others)
    else if world.hasEnded first.process then takeTurns isOver mayPass fuel turnsAtOnce idle world others
    else if turns = 0 then takeTurns isOver mayPass fuel turnsAtOnce idle world (others ++ [first])
    else if world.mayGoOn first.process && first.isReady world then
      let world := world.goOn first.process
      if world.hasEnded first.process then takeTurns isOver mayPass fuel turnsAtOnce 0 world others
      else
        let (world, waiting, turns) := afterTurn first.process others turns (first.resume world)
        takeTurns isOver mayPass fuel turns 0 world waiting
    else takeTurns isOver mayPass fuel turnsAtOnce (idle + 1) world (others ++ [first])

end AmountWalk.Shell
