import TestEngine.Catalog
import TestEngine.Order
import TestEngine.Run.Program

/-!
# Visits

The visit of a step is a program with a `Frame`: the context of the run, and what the script's
result holds so far. A visit ends with a `Flow`, which says whether the loop around the step goes
on, or it stops with an `Abort`. The frame is kept either way.
-/

namespace TestEngine

/-- What the visits of a run have in common. -/
structure Setting where
  catalog : Catalog
  /-- Milliseconds to wait for a lock that names no time of its own. -/
  lockTimeout : Nat
  /-- Whether the run belongs to a job, whose client can deliver manual results. -/
  attended : Bool

/-- Where a visit that went well leads. -/
inductive Flow where
  | next
  | leave
  deriving DecidableEq

/-- Why a visit stopped early. -/
inductive Abort where
  /-- The run was interrupted. No frame takes this for a failure of its own. -/
  | interrupted
  | crashed
  | failed (error : EngineError)
  deriving DecidableEq

/-- The state of the visits of one script. -/
structure Frame where
  context : Context
  log : List LogEntry
  entries : List ScriptEntry

abbrev Visit := ExceptT Abort (StateT Frame Program)

namespace Visit

variable {α : Type}

def ask (request : Request) : Visit request.Answer :=
  ExceptT.lift (StateT.lift (Program.request request))

def frame : Visit Frame := ExceptT.lift StateT.get

def modify (change : Frame → Frame) : Visit Unit :=
  ExceptT.lift (StateT.modifyGet fun frame => ((), change frame))

def abort (reason : Abort) : Visit α := ExceptT.mk (pure (.error reason))

def fail (error : EngineError) : Visit α := abort (.failed error)

/-- Goes on with a value or stops with an error of the step. -/
def ofExcept : Except EngineError α → Visit α
  | .ok value => pure value
  | .error error => fail error

/-- Runs a visit and goes on with its outcome, whatever it is. -/
def attempt (visit : Visit α) : Visit (Except Abort α) := ExceptT.lift visit.run

def conclude : Except Abort α → Visit α
  | .ok value => pure value
  | .error reason => abort reason

def context : Visit Context := return (← frame).context

def store : Visit Store := return (← context).properties

def modifyStore (change : Store → Store) : Visit Unit :=
  modify fun frame =>
    { frame with context := { frame.context with properties := change frame.context.properties } }

def put (property : Property) : Visit Unit := modifyStore fun store => store.put property

def moveTo (change : Context → Context) : Visit Unit := do
  let moved := change (← context)
  modify fun frame => { frame with context := moved }
  ask (.moveTo moved.cursor)

def record (entry : ScriptEntry) : Visit Unit :=
  modify fun frame => { frame with entries := frame.entries ++ [entry] }

def log (level : LogLevel) (messages : List String) : Visit Unit := do
  let timestamp ← ask .now
  let user := (← context).user
  modify fun frame =>
    { frame with log := frame.log ++ messages.map fun message => ⟨timestamp, level, user, message⟩ }

/-- Pauses if a pause is requested, and stops if the run is interrupted. -/
def checkpoint : Visit Unit := do
  if ← ask .checkpoint then return () else abort .interrupted

end Visit

end TestEngine
