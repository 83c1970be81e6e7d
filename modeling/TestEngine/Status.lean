/-!
# Statuses

The life of a job, the verdict of a result, and the progress of a run as a client sees it.
-/

namespace TestEngine

/-- The stage of a job's life. -/
inductive JobStatus where
  | initialized | running | paused | finished | interrupted | rejected
  deriving DecidableEq, Inhabited

namespace JobStatus

def all : List JobStatus := [.initialized, .running, .paused, .finished, .interrupted, .rejected]

def name : JobStatus → String
  | initialized => "INITIALIZED"
  | running => "RUNNING"
  | paused => "PAUSED"
  | finished => "FINISHED"
  | interrupted => "INTERRUPTED"
  | rejected => "REJECTED"

def title : JobStatus → String
  | initialized => "Initialized"
  | running => "Running"
  | paused => "Paused"
  | finished => "Finished"
  | interrupted => "Interrupted"
  | rejected => "Rejected"

def ofName? (name : String) : Option JobStatus := all.find? fun status => status.name = name

def isTerminal : JobStatus → Bool
  | finished | interrupted | rejected => true
  | _ => false

def isActive : JobStatus → Bool
  | running | paused => true
  | _ => false

end JobStatus

/-- The verdict of an element, a script or a whole configuration. -/
inductive Verdict where
  | passed | failed | skipped
  | aborted
  deriving DecidableEq, Inhabited

namespace Verdict

def all : List Verdict := [.passed, .failed, .skipped, .aborted]

def name : Verdict → String
  | passed => "PASSED"
  | failed => "FAILED"
  | skipped => "SKIPPED"
  | aborted => "ABORTED"

def title : Verdict → String
  | passed => "Passed"
  | failed => "Failed"
  | skipped => "Skipped"
  | aborted => "Aborted"

def ofName? (name : String) : Option Verdict := all.find? fun verdict => verdict.name = name

def isFailure : Verdict → Bool
  | failed | aborted => true
  | _ => false

theorem ofName?_name (verdict : Verdict) : ofName? verdict.name = some verdict := by
  cases verdict <;> rfl

end Verdict

/-- The progress of a run as a client sees it. -/
inductive RunStatus where
  | running
  | waiting
  | finished | cancelled
  deriving DecidableEq, Inhabited

namespace RunStatus

def all : List RunStatus := [.running, .waiting, .finished, .cancelled]

def name : RunStatus → String
  | running => "RUNNING"
  | waiting => "WAITING"
  | finished => "FINISHED"
  | cancelled => "CANCELLED"

def title : RunStatus → String
  | running => "Running"
  | waiting => "Waiting"
  | finished => "Finished"
  | cancelled => "Cancelled"

def ofName? (name : String) : Option RunStatus := all.find? fun status => status.name = name

def isTerminal : RunStatus → Bool
  | finished | cancelled => true
  | _ => false

end RunStatus

end TestEngine
