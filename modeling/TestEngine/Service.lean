import TestEngine.Machine.Basic
import TestEngine.Run.Walk
import TestEngine.Settings.Basic

/-!
# The execution service

The service admits one job at a time, hands it to a worker of its pool, and answers for the last
job it admitted: by that job's session while it runs, and by the result that the session reported
when it is over. A submission that finds no free worker is refused, but the jobs and results before
it are forgotten all the same.
-/

namespace TestEngine

variable {ω : Type}

structure Job where
  id : String
  configuration : String
  session : Nat
  task : Nat
  deriving DecidableEq

structure Admission where
  /-- Whether a job has been admitted that has not reported its end. -/
  busy : Bool
  permits : Nat
  jobs : NameMap Job
  results : NameMap ConfigurationResult

namespace Admission

def initial (workers : Nat) : Admission := ⟨false, workers, .empty, .empty⟩

/-- What becomes of a submission: it is admitted or refused. -/
def submit (admission : Admission) (job : Job) : Admission × Except EngineError Unit :=
  if admission.busy then (admission, .error (.rejected "Another execution is active"))
  else
    let forgotten : Admission := { admission with jobs := .empty, results := .empty }
    match admission.permits with
    | 0 => (forgotten, .error (.rejected "Worker pool is saturated"))
    | permits + 1 =>
      ({ forgotten with busy := true, permits, jobs := forgotten.jobs.insert job.id job }, .ok ())

def report (admission : Admission) (id : String) (result : ConfigurationResult) : Admission :=
  { admission with results := admission.results.insert id result, busy := false }

def release (admission : Admission) : Admission :=
  { admission with permits := admission.permits + 1 }

def job? (admission : Admission) (id : String) : Except EngineError Job :=
  match admission.jobs.get? id with
  | some job => .ok job
  | none => .error (.jobNotFound id)

end Admission

/-- A service with the machine that its jobs run on. -/
structure Service (ω : Type) where
  settings : Settings
  admission : Admission
  machine : Machine ω JobStatus
  unreported : List Job
  working : List Job

namespace Service

def workerLimit : Nat := UInt64.size / 8 - 1

/-- A service without jobs; there is none with too many workers. -/
def initial? (settings : Settings) (registry : Registry ω) (world : World ω) :
    Option (Service ω) :=
  if settings.workerPoolSize.toNat ≤ workerLimit then
    some
      { settings, admission := .initial settings.workerPoolSize.toNat,
        machine := .initial registry world, unreported := [], working := [] }
  else none

def setting (service : Service ω) : Setting where
  catalog := service.machine.registry.catalog
  lockTimeout := service.settings.lockTimeout.toNat
  attended := true

def start (service : Service ω) (id : String) (configuration : Configuration) (context : Context) :
    Service ω × Except EngineError Unit :=
  let job : Job :=
    ⟨id, configuration.name, service.machine.sessions.length, service.machine.tasks.length⟩
  let (admission, answer) := service.admission.submit job
  match answer with
  | .error error => ({ service with admission }, .error error)
  | .ok _ =>
    let session :=
      { Session.ofResult true (.ofConfiguration configuration) with listeners := ["service"] }
    let (machine, place) := service.machine.openSession session
    let machine := machine.spawn place (configuration.runJob service.setting context)
    ({ service with
        admission, machine
        unreported := service.unreported ++ [job], working := service.working ++ [job] }, .ok ())

def collectReports (service : Service ω) : Service ω :=
  let report (admission : Admission) (job : Job) : Admission :=
    match (service.machine.session job.session).notices.getLast? with
    | some notice => admission.report job.id notice.result
    | none => admission
  { service with
    admission := service.unreported.foldl report service.admission
    unreported := service.unreported.filter fun job =>
      (service.machine.session job.session).notices.isEmpty }

def collectWorkers (service : Service ω) : Service ω :=
  let release (admission : Admission) (job : Job) : Admission :=
    if (service.machine.value? job.task).isSome then admission.release else admission
  { service with
    admission := service.working.foldl release service.admission
    working := service.working.filter fun job => (service.machine.value? job.task).isNone }

def withMachine (service : Service ω) (machine : Machine ω JobStatus) : Service ω :=
  { service with machine }.collectReports.collectWorkers

def settle (fuel : Nat) (service : Service ω) : Service ω :=
  service.withMachine (service.machine.settle fuel)

/-- Moves the clock on by some milliseconds. -/
def advance (fuel duration : Nat) (service : Service ω) : Service ω :=
  service.withMachine (service.machine.advance fuel duration)

def steer (service : Service ω) (id : String) (change : Control Hook → Control Hook) :
    Except EngineError (Service ω) :=
  (service.admission.job? id).map fun job =>
    { service with machine := service.machine.modifyControl job.session change }

def stop (service : Service ω) (id : String) : Except EngineError (Service ω) :=
  service.steer id Control.interrupt

def pause (service : Service ω) (id : String) : Except EngineError (Service ω) :=
  service.steer id Control.pause

def resume (service : Service ω) (id : String) : Except EngineError (Service ω) :=
  service.steer id Control.resume

def interact (service : Service ω) (id : String) (interaction : Interaction) :
    Except EngineError (Service ω) :=
  service.steer id fun control => control.interact interaction

def jobSession (service : Service ω) (job : Job) : Session := service.machine.session job.session

def status (service : Service ω) (id : String) : Except EngineError JobStatus :=
  (service.admission.job? id).map fun job => (service.jobSession job).control.status

def info (service : Service ω) (id : String) : Except EngineError JobInfo :=
  (service.admission.job? id).map fun job => (service.jobSession job).info job.id job.configuration

/-- The result of a job: the reported one if the job is over, else as far as it has come. -/
def result (service : Service ω) (id : String) : Except EngineError ConfigurationResult :=
  match service.admission.results.get? id with
  | some result => .ok result
  | none => (service.admission.job? id).map fun job => (service.jobSession job).result

/-- Lets the clock run until a job is over, for a number of milliseconds at most if there is a
limit, and finds the status that the job ended with. -/
def awaitEnd (fuel : Nat) (limit : Option Nat) (service : Service ω) (id : String) :
    Except EngineError (Service ω × Option JobStatus) :=
  (service.admission.job? id).map fun job =>
    let status (machine : Machine ω JobStatus) : JobStatus :=
      (machine.session job.session).control.status
    let moment := limit.map fun limit => service.machine.world.clock + limit
    let machine :=
      service.machine.advanceUntil fuel (fun machine => (status machine).isTerminal) moment fuel
    (service.withMachine machine,
      if (status machine).isTerminal then some (status machine) else none)

def running (service : Service ω) : List JobInfo :=
  (service.admission.jobs.values.filter fun job =>
    (service.jobSession job).control.status.isActive).map fun job =>
      (service.jobSession job).info job.id job.configuration

end Service

end TestEngine
