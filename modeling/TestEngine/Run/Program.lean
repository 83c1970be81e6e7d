import TestEngine.Context
import TestEngine.Result.Basic

/-!
# Programs

A run is a `Program`: a finite tree that either is done or asks its surroundings something and goes
on as the answer decides. Everything that a run does not decide by itself is such a request, so a
statement about all answers is one about every behaviour of the capabilities, every course of the
clock and every schedule of client calls.
-/

namespace TestEngine

open Calendar

structure ActionCall where
  backend : String
  action : String
  operation : String
  actionType : Option String
  metadata : List Metadata
  properties : List Property
  context : Context

/-- The call of the scripting capability. -/
structure FunctionCall where
  function : Function
  properties : List Property

/-- What becomes of a call that may take time. -/
inductive Reply (α : Type) where
  | returned (answer : α)
  | abandoned
  /-- The capability failed in a way that takes the whole run down. -/
  | crashed

/-- What becomes of waiting for a lock. -/
inductive LockAnswer where
  | granted
  | timedOut
  | cancelled
  deriving DecidableEq

/-- How a walk or a script ended. -/
inductive Ending where
  | completed | interrupted | crashed
  deriving DecidableEq, Inhabited

/-- What a run asks of its surroundings. -/
inductive Request where
  /-- A place to pause or to be interrupted: whether the run may go on. -/
  | checkpoint
  | sleep (duration : Nat)
  /-- The clock that measures durations, in milliseconds. -/
  | elapsed
  | now
  | acquire (lock : String) (timeout : Nat)
  | release (lock : String)
  | perform (call : ActionCall)
  /-- Execute a function; the answer holds the lines it logged, whatever became of it. -/
  | execute (call : FunctionCall)
  /-- Check a property; no answer means that the check failed in a way that takes the run down. -/
  | verify (check : String) (property : Option Property)
  | moveTo (cursor : Cursor)
  /-- Note the start of the run unless it is noted already. -/
  | noteStart
  | publish (results : List ElementResult)
  /-- Say that the run waits for a tester; what was delivered before does not count. -/
  | openInteraction
  /-- Wait for what a client delivers; no answer means that the run was interrupted. -/
  | awaitInteraction
  | cancelRun
  | awaitResume
  /-- Start the job; an answer means that it was not possible, and gives the job's status. -/
  | beginJob
  | endJob (ending : Ending)

abbrev Request.Answer : Request → Type
  | checkpoint => Bool
  | elapsed => Nat
  | now => Instant
  | acquire .. => LockAnswer
  | perform _ => Reply (Except EngineError ActionResponse)
  | execute _ => List String × Reply (Except EngineError (List Property))
  | verify .. => Option (Except EngineError Unit)
  | awaitInteraction => Option (Option Interaction)
  | beginJob => Option JobStatus
  | endJob _ => JobStatus
  | sleep _ | release _ | moveTo _ | noteStart | publish _ | openInteraction | cancelRun
  | awaitResume => Unit

/-- A course of requests and answers that ends with a value. -/
inductive Program (α : Type) where
  | done (value : α)
  | ask (request : Request) (next : request.Answer → Program α)

namespace Program

variable {α β : Type}

def bind : Program α → (α → Program β) → Program β
  | done value, next => next value
  | ask request rest, next => ask request fun answer => (rest answer).bind next

instance : Monad Program where
  pure := done
  bind := bind

def request (request : Request) : Program request.Answer := ask request done

@[simp]
theorem bind_done (program : Program α) : program.bind done = program := by
  induction program with
  | done value => rfl
  | ask request rest ih => simp [bind, ih]

theorem bind_assoc {γ : Type} (program : Program α) (next : α → Program β)
    (last : β → Program γ) :
    (program.bind next).bind last = program.bind fun value => (next value).bind last := by
  induction program with
  | done value => rfl
  | ask request rest ih => simp [bind, ih]

instance : LawfulMonad Program := LawfulMonad.mk' Program
  (fun program => bind_done program) (fun _ _ => rfl) bind_assoc

end Program

end TestEngine
