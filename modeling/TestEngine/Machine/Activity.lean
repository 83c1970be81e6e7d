import TestEngine.Catalog
import TestEngine.Control
import TestEngine.Run.Program

/-!
# Activities of capabilities

A capability that is called runs an `Activity`: a finite course of effects on the state `ω` that the
capabilities share, of pauses, log lines and signals to the run's control, which ends with an
answer, with a crash, or not at all.
-/

namespace TestEngine

/-- What a client can do to a run, and a capability to the run that calls it. -/
inductive Signal where
  | pause | resume | interrupt
  | interact (interaction : Interaction)
  deriving DecidableEq

def Signal.act {η : Type} : Signal → Control η → Control η
  | pause => Control.pause
  | resume => Control.resume
  | interrupt => Control.interrupt
  | interact interaction => fun control => control.interact interaction

/-- What a capability does when it is called. -/
inductive Activity (ω α : Type) where
  | finish (answer : α)
  | crash
  | hang
  | sleep (duration : Nat) (next : Activity ω α)
  | log (line : String) (next : Activity ω α)
  /-- Reach for the control of the run, if it can be reached. -/
  | signal (signal : Signal) (next : Activity ω α)
  | consult (effect : ω → ω) (next : ω → Activity ω α)

abbrev Backend (ω : Type) := ActionCall → Activity ω (Except EngineError ActionResponse)

/-- A check of a property: its answer, or none if it takes the run down. -/
abbrev Check := Option Property → Option (Except EngineError Unit)

/-- A capability that executes functions. -/
abbrev Runner (ω : Type) := FunctionCall → Activity ω (Except EngineError (List Property))

/-- The registered capabilities. -/
structure Registry (ω : Type) where
  backends : NameMap (Backend ω)
  checks : NameMap Check
  runner : Option (Runner ω)
  hasTraceCache : Bool

namespace Registry

variable {ω : Type}

/-- The registry without capabilities. -/
def empty : Registry ω := ⟨.empty, .empty, none, false⟩

def withBackend (registry : Registry ω) (name : String) (backend : Backend ω) : Registry ω :=
  { registry with backends := registry.backends.insert name backend }

def withCheck (registry : Registry ω) (name : String) (check : Check) : Registry ω :=
  { registry with checks := registry.checks.insert name check }

def catalog (registry : Registry ω) : Catalog where
  backends := registry.backends.names
  checks := registry.checks.names
  scripting := registry.runner.isSome
  tracing := registry.hasTraceCache

end Registry

/-! ### Capabilities that are always there -/

/-- The backend that returns the properties it is given, unless a BOOLEAN property `fail` of them is
true. -/
def logBackend {ω : Type} : Backend ω := fun call =>
  let requestsFailure := call.properties.any fun property =>
    property.name = "fail" && match property.value with
      | .boolean (some true) => true
      | _ => false
  .finish <| .ok <|
    if requestsFailure then .failed call.action "Requested failure"
    else { ActionResponse.passed call.action with returned := call.properties }

def notNullCheck : Check := fun property =>
  match property with
  | none => some (.error (.assertion "Property is missing"))
  | some property =>
    if property.isNull then
      some (.error (.assertion ("Property '" ++ property.name ++ "' is null")))
    else some (.ok ())

/-- The registry of the capabilities that are always there. -/
def Registry.builtin {ω : Type} : Registry ω :=
  { (empty.withBackend "log" logBackend).withCheck "not_null" notNullCheck with
    hasTraceCache := true }

end TestEngine
