import TestEngine.Configuration.Basic
import TestEngine.Status

/-!
# Results

The result of a configuration is a tree with one node for every visited element. A node holds the
results of the element's children and of its scripts; a script result holds the responses of its
actions and the results of the scripts embedded in it.

Verdicts are rolled up from the leaves: a level fails as soon as something below it failed, and
passes if nothing did and it has no verdict yet. A skipped element stays skipped.
-/

namespace TestEngine

open Calendar

structure LogEntry where
  timestamp : Instant
  level : LogLevel
  user : Option String
  message : String
  deriving DecidableEq

inductive TraceKind where
  | screenshot | file
  deriving DecidableEq, Inhabited

namespace TraceKind

def all : List TraceKind := [.screenshot, .file]

def name : TraceKind → String
  | screenshot => "SCREENSHOT"
  | file => "FILE"

def ofName? (name : String) : Option TraceKind := all.find? fun kind => kind.name = name

end TraceKind

abbrev Content := List UInt8

/-- A recording that an action leaves behind. -/
structure Trace where
  id : String
  kind : TraceKind
  name : String
  /-- Whether the content lies in the trace cache until the run is over. -/
  deferred : Bool
  content : Option Content
  deriving DecidableEq

/-- Whether an action did what it should. -/
inductive ActionStatus where
  | passed | failed
  deriving DecidableEq, Inhabited

namespace ActionStatus

def all : List ActionStatus := [.passed, .failed]

def name : ActionStatus → String
  | passed => "PASSED"
  | failed => "FAILED"

def ofName? (name : String) : Option ActionStatus := all.find? fun status => status.name = name

end ActionStatus

/-- What a backend answers to an action. -/
structure ActionResponse where
  action : String
  status : ActionStatus
  message : Option String
  returned : List Property
  traces : List Trace
  delay : Option UInt64

namespace ActionResponse

def passed (action : String) : ActionResponse := ⟨action, .passed, none, [], [], none⟩

def failed (action message : String) : ActionResponse :=
  ⟨action, .failed, some message, [], [], none⟩

end ActionResponse

mutual

/-- The result of one run of a script. -/
structure ScriptResult where
  scriptId : String
  name : String
  verdict : Option Verdict
  start : Option Instant
  stop : Option Instant
  duration : Option Int
  message : Option String
  log : List LogEntry
  entries : List ScriptEntry

/-- What a script result holds for a step. -/
inductive ScriptEntry where
  | action (response : ActionResponse)
  | script (result : ScriptResult)

end

/-- How far a manual element has come. -/
inductive ManualStatus where
  | waiting | finished | aborted
  deriving DecidableEq, Inhabited

namespace ManualStatus

def all : List ManualStatus := [.waiting, .finished, .aborted]

def name : ManualStatus → String
  | waiting => "WAITING"
  | finished => "FINISHED"
  | aborted => "ABORTED"

def title : ManualStatus → String
  | waiting => "Waiting"
  | finished => "Finished"
  | aborted => "Aborted"

def ofName? (name : String) : Option ManualStatus := all.find? fun status => status.name = name

end ManualStatus

structure ManualResult where
  status : ManualStatus
  verdict : Option Verdict
  comment : Option String
  tester : Option String
  deriving DecidableEq

/-- The result of a manual element that nobody has looked at yet. -/
def ManualResult.waiting : ManualResult := ⟨.waiting, none, none, none⟩

/-- What a client delivers to a waiting run. -/
structure Interaction where
  manualResult : Option ManualResult
  deriving DecidableEq, Inhabited

/-- The result of a visited element. -/
structure ElementResult where
  elementId : String
  name : String
  level : UInt32
  schemaId : Option String
  verdict : Option Verdict
  start : Option Instant
  stop : Option Instant
  duration : Option Int
  message : Option String
  results : List ElementResult
  scripts : List ScriptResult
  manual : Option ManualResult

/-- The result of a configuration. -/
structure ConfigurationResult where
  configurationId : String
  name : String
  runStatus : RunStatus
  verdict : Option Verdict
  start : Option Instant
  stop : Option Instant
  duration : Option Int
  results : List ElementResult

def Verdict.isFailed (verdict : Option Verdict) : Bool := verdict.any Verdict.isFailure

namespace ScriptResult

def isFailed (result : ScriptResult) : Bool := Verdict.isFailed result.verdict

def actions (result : ScriptResult) : List ActionResponse :=
  result.entries.filterMap fun entry =>
    match entry with
    | .action response => some response
    | .script _ => none

end ScriptResult

namespace ElementResult

def ofElement (element : Element) (schema : Option Schema) (now : Instant) : ElementResult where
  elementId := element.id
  name := element.name
  level := (schema.map Schema.level).getD 0
  schemaId := schema.map Schema.id
  verdict := none
  start := some now
  stop := none
  duration := none
  message := none
  results := []
  scripts := []
  manual := none

def isSkipped (result : ElementResult) : Bool := result.verdict = some .skipped

def isFailed (result : ElementResult) : Bool := Verdict.isFailed result.verdict

def skip (result : ElementResult) (message : String) : ElementResult :=
  { result with verdict := some .skipped, message := some message }

def fail (result : ElementResult) (message : String) : ElementResult :=
  { result with verdict := some .failed, message := some message }

def rollUp (result : ElementResult) : ElementResult :=
  if result.isSkipped then result
  else if result.results.any isFailed || result.scripts.any ScriptResult.isFailed then
    { result with verdict := some .failed }
  else { result with verdict := some (result.verdict.getD .passed) }

def finish (result : ElementResult) (now : Instant) : ElementResult :=
  rollUp { result with stop := some now, duration := result.start.map now.millisSince }

end ElementResult

namespace ConfigurationResult

/-- The result of a configuration that has not been started. -/
def ofConfiguration (configuration : Configuration) : ConfigurationResult where
  configurationId := configuration.id
  name := configuration.name
  runStatus := .running
  verdict := none
  start := none
  stop := none
  duration := none
  results := []

def rollUp (result : ConfigurationResult) : ConfigurationResult :=
  if result.results.any ElementResult.isFailed then { result with verdict := some .failed }
  else { result with verdict := some (result.verdict.getD .passed) }

def finish (result : ConfigurationResult) (now : Instant) : ConfigurationResult :=
  rollUp { result with stop := some now, duration := result.start.map now.millisSince }

end ConfigurationResult

end TestEngine
