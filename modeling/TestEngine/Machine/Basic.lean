import TestEngine.Machine.Task

/-!
# Machines

A machine runs the tasks of an engine one at a time on a clock of its own. Tasks that can go on are
polled in the order in which they became able to; a lock that is handed over wakes its new owner,
and alarms go off in the order of the moments they are set to, those of one moment in the order in
which they were set. The clock stands still while a task can go on.
-/

namespace TestEngine

structure Task (ω α : Type) where
  session : Nat
  stage : Stage ω α
  doneAt : Option Nat

/-- Tasks with their sessions and what they share. -/
structure Machine (ω α : Type) where
  registry : Registry ω
  world : World ω
  sessions : List Session
  tasks : List (Task ω α)
  /-- The places of the tasks that are to be polled, the next one first. -/
  queue : List Nat

namespace Machine

variable {ω α : Type}

def initial (registry : Registry ω) (world : World ω) : Machine ω α := ⟨registry, world, [], [], []⟩

def session (machine : Machine ω α) (place : Nat) : Session :=
  (machine.sessions[place]?).getD default

def modifySession (machine : Machine ω α) (place : Nat) (change : Session → Session) :
    Machine ω α :=
  { machine with sessions := machine.sessions.modify place change }

def modifyControl (machine : Machine ω α) (place : Nat) (change : Control Hook → Control Hook) :
    Machine ω α :=
  machine.modifySession place fun session => session.mapControl change

def openSession (machine : Machine ω α) (session : Session) : Machine ω α × Nat :=
  ({ machine with sessions := machine.sessions ++ [session] }, machine.sessions.length)

/-- Adds a task that will be polled after those that wait for it now. -/
def spawn (machine : Machine ω α) (session : Nat) (program : Program α) : Machine ω α :=
  { machine with
    tasks := machine.tasks ++ [⟨session, .ready program, none⟩]
    queue := machine.queue ++ [machine.tasks.length] }

def enqueue (machine : Machine ω α) (places : List Nat) : Machine ω α :=
  { machine with
    queue := places.foldl (fun queue place => if place ∈ queue then queue else queue ++ [place])
      machine.queue }

def placesWhere (machine : Machine ω α) (test : Task ω α → Bool) : List Nat :=
  (List.range machine.tasks.length).filter fun place => machine.tasks[place]?.any test

/-- Queues the tasks that have become able to go on: first the new owners of locks. -/
def wake (machine : Machine ω α) : Machine ω α :=
  let owners := machine.world.handed.flatMap fun ticket =>
    machine.placesWhere fun task => task.stage.ticket? = some ticket
  let awake := machine.placesWhere fun task =>
    task.stage.isAwake (machine.session task.session) machine.world
  { machine with world := { machine.world with handed := [] } }.enqueue (owners ++ awake)

def poll (machine : Machine ω α) (place : Nat) : Machine ω α :=
  match machine.tasks[place]? with
  | none => machine
  | some task =>
    let after := task.stage.poll machine.registry (machine.session task.session) machine.world
    let doneAt := task.doneAt <|> after.stage.value?.map fun _ => after.world.clock
    { machine with
      world := after.world
      sessions := machine.sessions.set task.session after.session
      tasks := machine.tasks.set place { task with stage := after.stage, doneAt } }

def drain : (fuel : Nat) → Machine ω α → Machine ω α
  | 0, machine => machine
  | fuel + 1, machine =>
    match machine.queue with
    | [] => machine
    | place :: rest => drain fuel ({ machine with queue := rest }.poll place).wake

def settle (fuel : Nat) (machine : Machine ω α) : Machine ω α := machine.wake.drain fuel

def alarms (machine : Machine ω α) : List Alarm :=
  machine.tasks.filterMap fun task => task.stage.alarm?

def nextDue? (machine : Machine ω α) : Option Nat := (machine.alarms.map Alarm.due).min?

/-- Moves the clock on and queues the tasks whose alarms go off. -/
def ring (machine : Machine ω α) (moment : Nat) : Machine ω α :=
  let machine := { machine with world := { machine.world with clock := moment } }
  let due := machine.alarms.filter machine.world.isDue
  let sorted := due.mergeSort fun a b => a.due < b.due || (a.due = b.due && a.rank ≤ b.rank)
  machine.enqueue <| sorted.flatMap fun alarm =>
    machine.placesWhere fun task => task.stage.alarm? = some alarm

/-- Moves the clock to a moment, if one is given. -/
def setClock (machine : Machine ω α) : (moment : Option Nat) → Machine ω α
  | some moment => { machine with world := { machine.world with clock := moment } }
  | none => machine

/-- Lets everything go on, moving the clock from alarm to alarm, until a condition holds. The clock
is not moved beyond a given moment, and it is moved there if the condition does not come true
before. -/
def advanceUntil (pollFuel : Nat) (stop : Machine ω α → Bool) (moment : Option Nat) :
    (fuel : Nat) → Machine ω α → Machine ω α
  | 0, machine => machine
  | fuel + 1, machine =>
    if stop machine then machine
    else
      match machine.nextDue? with
      | none => machine.setClock moment
      | some due =>
        if moment.all fun moment => due ≤ moment then
          advanceUntil pollFuel stop moment fuel
            ((machine.ring (max due machine.world.clock)).drain pollFuel)
        else machine.setClock moment

/-- Moves the clock to a moment and lets everything go on that can on the way. -/
def advanceTo (pollFuel fuel moment : Nat) (machine : Machine ω α) : Machine ω α :=
  machine.advanceUntil pollFuel (fun _ => false) (some moment) fuel

/-- Moves the clock on by some milliseconds and lets everything go on that can on the way. -/
def advance (fuel duration : Nat) (machine : Machine ω α) : Machine ω α :=
  machine.advanceTo fuel fuel (machine.world.clock + duration)

def value? (machine : Machine ω α) (place : Nat) : Option α :=
  machine.tasks[place]?.bind fun task => task.stage.value?

def doneAt? (machine : Machine ω α) (place : Nat) : Option Nat :=
  machine.tasks[place]?.bind Task.doneAt

def isDone (machine : Machine ω α) : Bool :=
  machine.tasks.all fun task => task.stage.value?.isSome

/-- Lets everything go on until all tasks are done or nothing more can happen. -/
def runToEnd (fuel : Nat) (machine : Machine ω α) : Machine ω α :=
  (machine.settle fuel).advanceUntil fuel isDone none fuel

end Machine

end TestEngine
