import TestEngine.Condition

/-!
# Test scripts

A script is an ordered container of steps. Steps of some kinds hold further steps, and a step may
hold a whole script. Siblings are visited in ascending order, those of equal order as the author
wrote them.
-/

namespace TestEngine

/-- The severity of a log line. -/
inductive LogLevel where
  | trace | debug | info | warn | error
  deriving DecidableEq, Inhabited

namespace LogLevel

def all : List LogLevel := [.trace, .debug, .info, .warn, .error]

def name : LogLevel → String
  | trace => "TRACE"
  | debug => "DEBUG"
  | info => "INFO"
  | warn => "WARN"
  | error => "ERROR"

def ofName? (name : String) : Option LogLevel := all.find? fun level => level.name = name

end LogLevel

/-- A piece of text with an optional property whose text follows it. -/
structure TextMessage where
  text : String
  property : Option String
  deriving DecidableEq

/-- A condition on a property. The literal to compare with is the text of another property if one
is named, else the given one. -/
structure Guard where
  property : String
  operator : Operator
  value : Option String
  valueProperty : Option String
  deriving DecidableEq

/-- One link of the chain that describes what an action is aimed at. -/
structure Metadata where
  name : String
  engine : String
  operation : Option String
  actionType : Option String
  deriving DecidableEq

/-- A call of a backend, which the last link of the chain selects together with its operation. -/
structure Action where
  name : String
  metadata : List Metadata
  properties : List Property
  delay : Option UInt64

/-- A check: fails always, or as a registered check of a property decides. -/
structure Assertion where
  fail : Bool
  message : Option String
  checkName : Option String
  property : Option String
  deriving DecidableEq

structure LoopBounds where
  maxIterations : UInt32
  /-- Milliseconds after which no iteration begins, 0 for none given. -/
  maxDuration : UInt64
  index : Option String
  /-- Milliseconds to wait between two iterations. -/
  wait : UInt64
  deriving DecidableEq

/-- What a property action does to its target. -/
inductive PropertyVerb where
  | clear | copy | delete | set
  deriving DecidableEq

namespace PropertyVerb

def all : List PropertyVerb := [.clear, .copy, .delete, .set]

def name : PropertyVerb → String
  | clear => "CLEAR"
  | copy => "COPY"
  | delete => "DELETE"
  | set => "SET"

def ofName? (name : String) : Option PropertyVerb := all.find? fun verb => verb.name = name

end PropertyVerb

structure PropertyAction where
  verb : PropertyVerb
  target : String
  source : Option String
  value : Option String
  kind : Option PropertyKind
  deriving DecidableEq

/-- Code for the scripting capability. -/
structure Function where
  name : String
  source : String
  properties : List Property

mutual

/-- An ordered container of steps. -/
structure Script where
  id : String
  name : String
  order : UInt32
  steps : List Step

structure Step where
  id : String
  order : UInt32
  kind : StepKind

inductive StepKind where
  | logger (level : LogLevel) (children : List Step)
  | textMessage (message : TextMessage)
  | condition (block : Block)
  | execution (children : List Step)
  | action (action : Action)
  | assertion (assertion : Assertion)
  | loop (bounds : LoopBounds) (children : List Step)
  /-- Visits its children for every item of a list, bound to a name. -/
  | foreach (list : String) (element : String) (children : List Step)
  /-- Leaves the loop around it if one of its guards holds, or if it has none. -/
  | breakLoop (conditions : List Block)
  | lock (name : String) (timeout : Option UInt64) (children : List Step)
  | propertyAction (action : PropertyAction)
  | script (script : Script)
  | function (function : Function)

structure Block where
  guard : Guard
  children : List Step

end

def StepKind.name : StepKind → String
  | logger .. => "logger"
  | textMessage .. => "text_message"
  | condition .. => "condition"
  | execution .. => "execution"
  | action .. => "action"
  | assertion .. => "assertion"
  | loop .. => "loop"
  | foreach .. => "foreach"
  | breakLoop .. => "break_loop"
  | lock .. => "lock"
  | propertyAction .. => "property_action"
  | script .. => "test_script"
  | function .. => "function"

def Step.label (step : Step) : String := step.kind.name ++ " " ++ step.id

end TestEngine
