import TestEngine.Machine.Wait

/-!
# Tasks

A task is a program under way. `Program.advance` carries out its requests one after the other up to
the first that has to wait, and the task is then at a `Stage` that says for what. Polling the task
goes on from there if the wait is over, and changes nothing otherwise.
-/

namespace TestEngine

variable {ω α : Type}

inductive Stage (ω α : Type) where
  | ready (program : Program α)
  | waiting {request : Request} (wait : Wait ω request) (next : request.Answer → Program α)
  | done (value : α)

/-- A task with what it works on. -/
structure Situation (ω α : Type) where
  session : Session
  world : World ω
  stage : Stage ω α

/-- Carries out the requests of a program up to the first that has to wait. -/
def Program.advance (registry : Registry ω) :
    Program α → Session → World ω → Situation ω α
  | .done value, session, world => ⟨session, world, .done value⟩
  | .ask request next, session, world =>
    let carried := request.carryOut registry session world
    match carried.outcome with
    | .answered answer => (next answer).advance registry carried.session carried.world
    | .waiting wait => ⟨carried.session, carried.world, .waiting wait next⟩

namespace Stage

def alarm? : Stage ω α → Option Alarm
  | waiting wait _ => wait.alarm?
  | _ => none

def ticket? : Stage ω α → Option Ticket
  | waiting wait _ => wait.ticket?
  | _ => none

def value? : Stage ω α → Option α
  | done value => some value
  | _ => none

def isAwake (session : Session) (world : World ω) : Stage ω α → Bool
  | ready _ => true
  | waiting wait _ => wait.isAwake session world
  | done _ => false

/-- Lets a task that is awake go on; any other one stays as it is. -/
def poll (registry : Registry ω) (session : Session) (world : World ω) :
    Stage ω α → Situation ω α
  | ready program => program.advance registry session world
  | waiting wait next =>
    if wait.isAwake session world then
      let carried := wait.resume session world
      match carried.outcome with
      | .answered answer => (next answer).advance registry carried.session carried.world
      | .waiting wait => ⟨carried.session, carried.world, .waiting wait next⟩
    else ⟨session, world, .waiting wait next⟩
  | done value => ⟨session, world, .done value⟩

end Stage

end TestEngine
