import TestEngine.Control
import TestEngine.Run.Program
import TestEngine.Result.Trace

/-!
# Sessions

A session is what a client sees of one run and what the run sees of its client: the control, the
results so far and the place that the run is at. A run outside of a job has a session too, which
nobody else holds.
-/

namespace TestEngine

open Calendar

/-- Work for the moment when an interruption is noticed. -/
inductive Hook where
  | cancelRun
  | note (tag : String)
  deriving DecidableEq

/-- What a listener was told at the end of a job. -/
structure Notice where
  listener : String
  status : JobStatus
  result : ConfigurationResult

/-- What a run and its client share. -/
structure Session where
  /-- Whether the run belongs to a job, so that a client and the capabilities can reach it. -/
  attended : Bool
  control : Control Hook
  result : ConfigurationResult
  cursor : Cursor
  finalized : Bool
  listeners : List String
  notices : List Notice
  notes : List String

/-- What a client is told of a job. -/
structure JobInfo where
  id : String
  configuration : String
  status : JobStatus
  runStatus : RunStatus
  startedAt : Option Instant
  stoppedAt : Option Instant
  script : Option String
  step : Option String

def JobInfo.described (info : JobInfo) : String :=
  Text.described "TestExecutionJob"
    [("id", Text.quoted info.id), ("configuration", Text.quoted info.configuration),
      ("status", info.status.title)]

namespace Session

def ofResult (attended : Bool) (result : ConfigurationResult) : Session where
  attended := attended
  control := .initial
  result := result
  cursor := ⟨none, none⟩
  finalized := false
  listeners := []
  notices := []
  notes := []

/-- The session of a run of a configuration, or of nothing in particular. -/
def unattended : Session :=
  ofResult false ⟨"", "", .running, none, none, none, none, []⟩

instance : Inhabited Session := ⟨unattended⟩

def setRunStatus (session : Session) (runStatus : RunStatus) : Session :=
  { session with result := { session.result with runStatus } }

def mapControl (session : Session) (change : Control Hook → Control Hook) : Session :=
  { session with control := change session.control }

def carryOut (session : Session) : Hook → Session
  | .cancelRun => session.setRunStatus .cancelled
  | .note tag => { session with notes := session.notes ++ [tag] }

/-- Notices an interruption, if there is one, and carries out the hooks. -/
def notice (session : Session) : Session × Bool :=
  let noticed := session.control.notice
  (noticed.2.foldl carryOut { session with control := noticed.1 }, session.control.interrupted)

/-- Shows the run as running again if it is shown as waiting. -/
def endWaiting (session : Session) : Session :=
  if session.result.runStatus = .waiting then session.setRunStatus .running else session

/-- Ends the wait for a client: what the client delivered, or none if the run was interrupted. -/
def endInteraction (session : Session) : Session × Option (Option Interaction) :=
  let noticed := session.notice
  let session := noticed.1.endWaiting
  if noticed.2 then (session, none)
  else
    let taken := session.control.takeInteraction
    ({ session with control := taken.1 }, some taken.2)

/-! ### Jobs -/

/-- Starts the job; `none` if it cannot be started. -/
def begin? (session : Session) (now : Instant) : Option Session :=
  (session.control.start? now).map fun control =>
    { session with
      control := control.onAbort .cancelRun
      result := { session.result with start := some now, runStatus := .running } }

def reject (session : Session) (now : Instant) : Session :=
  if session.finalized then session
  else
    let session := { session.setRunStatus .cancelled with finalized := true }
    { session with control := (session.control.stop? .rejected now).getD session.control }

def finalResult (session : Session) (status : JobStatus) (now : Instant) : ConfigurationResult :=
  let result := session.result
  let runStatus :=
    if status = .finished && result.runStatus ≠ .cancelled then .finished else .cancelled
  let verdict :=
    if status = .interrupted && result.verdict.isNone then some .failed else result.verdict
  { result with runStatus, verdict }.finish now

/-- Brings the job to its end: the result is completed, the contents of its traces are moved into
it, the listeners are told, and only then the status becomes terminal. -/
def finalize (session : Session) (status : JobStatus) (now : Instant) (cache : TraceCache) :
    Session × TraceCache :=
  if session.finalized then (session, cache)
  else
    let attached := (session.finalResult status now).attachTraces cache
    let notices := session.listeners.map fun listener => ⟨listener, status, attached.1⟩
    ({ session with
        result := attached.1
        finalized := true
        listeners := []
        notices := session.notices ++ notices
        control := (session.control.stop? status now).getD session.control }, attached.2)

/-- The session at the end of a job's run and the status that the job ends with. -/
def statusAfter (session : Session) (ending : Ending) : Session × JobStatus :=
  match ending with
  | .completed => (session.notice.1, if session.notice.2 then .interrupted else .finished)
  | _ => (session, .interrupted)

def info (session : Session) (id configuration : String) : JobInfo where
  id := id
  configuration := configuration
  status := session.control.status
  runStatus := session.result.runStatus
  startedAt := session.control.startedAt
  stoppedAt := session.control.stoppedAt
  script := session.cursor.script
  step := session.cursor.step

end Session

end TestEngine
