import TestEngine.Proofs.Job.Phase
import TestEngine.Proofs.Machine.Course
import TestEngine.Service

/-!
# Jobs of a service

A job that a service has admitted has a session and a task of its own on the machine of the service,
and nobody but the service listens to it. It waits for its first poll, or it runs, or it is over and
the service has been told so: `JobRun` keeps this through the polls of its task and the signals of
its clients, and everything else that happens on the machine leaves the job alone.
-/

namespace TestEngine

variable {ω α : Type}

/-! ### Sessions and tasks of jobs -/

/-- A task that has been polled. -/
def Stage.IsPolled : Stage ω α → Prop
  | .ready _ => False
  | _ => True

theorem Program.isPolled_advance (registry : Registry ω) (program : Program α) (session : Session)
    (world : World ω) : (program.advance registry session world).stage.IsPolled := by
  induction program generalizing session world with
  | done value => exact trivial
  | ask request next ih =>
      rw [advance]
      cases (request.carryOut registry session world).outcome with
      | answered answer => exact ih answer _ _
      | waiting wait => exact trivial

theorem Stage.isPolled_poll (stage : Stage ω α) (registry : Registry ω) (session : Session)
    (world : World ω) : (stage.poll registry session world).stage.IsPolled := by
  cases stage with
  | done value => exact trivial
  | ready program => exact program.isPolled_advance registry session world
  | waiting wait next =>
      simp only [poll]
      split
      · cases (wait.resume session world).outcome with
        | answered answer => exact (next answer).isPolled_advance registry _ _
        | waiting wait => exact trivial
      · exact trivial

/-- The listeners of a job of a service. -/
def Service.listeners : List String := ["service"]

/-- The session and the task of a job of a service. -/
inductive JobRun (session : Session) (stage : Stage ω JobStatus) : Prop
  | waiting {setting : Setting} {configuration : Configuration} {context : Context}
      (fresh : session.Fresh) (listens : session.listeners = Service.listeners)
      (ready : stage = .ready (configuration.runJob setting context))
  | running {configuration : Configuration}
      (runs : stage.Runs configuration
        (fun session => session.UnderWay ∧ session.listeners = Service.listeners)
        (fun status session => session.Over status Service.listeners) session)
      (polled : stage.IsPolled)

/-- A job of which the service has not been told that it is over. -/
structure JobRun.Ongoing (session : Session) (stage : Stage ω JobStatus) : Prop where
  notTerminal : ¬session.control.status.isTerminal
  notices : session.notices = []
  notDone : stage.value? = none

/-- A job of which the service has been told that it is over. -/
structure JobRun.Ended (session : Session) (stage : Stage ω JobStatus) : Prop where
  isOver : ∃ status, session.Over status Service.listeners
  done : ∃ status, stage = .done status

namespace JobRun

variable {session : Session} {stage : Stage ω JobStatus}

theorem ongoing_or_ended (run : JobRun session stage) :
    Ongoing session stage ∨ Ended session stage := by
  cases run with
  | waiting fresh listens ready =>
      refine .inl ⟨?_, fresh.notices, ?_⟩
      · simp [fresh.status, JobStatus.isTerminal]
      · rw [ready]
        rfl
  | running runs polled =>
      cases stage with
      | ready program => exact absurd polled id
      | done status => exact .inr ⟨⟨status, Stage.Runs.returned runs⟩, status, rfl⟩
      | waiting wait next =>
          rcases runs with ⟨standing, -, ⟨notEnded, -⟩, matched⟩
          have underWay := (matched.underWay notEnded).2.1
          exact .inl ⟨JobStatus.not_isTerminal_of_isActive underWay.isActive, underWay.notices, rfl⟩

theorem Ended.isTerminal (ended : Ended session stage) : session.control.status.isTerminal := by
  rcases ended.isOver with ⟨status, isOver⟩
  exact isOver.isTerminal

/-- A job whose status is terminal is one that the service has been told of. -/
theorem ended_iff (run : JobRun session stage) :
    Ended session stage ↔ session.control.status.isTerminal := by
  refine ⟨Ended.isTerminal, fun terminal => ?_⟩
  rcases run.ongoing_or_ended with ongoing | ended
  · exact absurd terminal ongoing.notTerminal
  · exact ended

theorem poll (run : JobRun session stage) (registry : Registry ω) (world : World ω) :
    let after := stage.poll registry session world
    JobRun after.session after.stage := by
  cases run with
  | running runs polled =>
      exact .running (runs.poll (listened_runLaw _ _) registry world 0).1
        (stage.isPolled_poll registry session world)
  | @waiting setting configuration context fresh listens ready =>
      subst ready
      refine .running (And.left (fresh.poll_runJob
        (listened_runLaw configuration Service.listeners) ?_ registry world 0))
        (Stage.isPolled_poll _ registry session world)
      exact fun begun underWay same => ⟨underWay, same.trans listens⟩

/-- A job that is over is not changed by polls. -/
theorem Ended.poll (ended : Ended session stage) (registry : Registry ω) (world : World ω) :
    stage.poll registry session world = ⟨session, world, stage⟩ := by
  rcases ended.done with ⟨status, rfl⟩
  rfl

theorem act (run : JobRun session stage) (signal : Signal) :
    JobRun (session.mapControl signal.act) stage := by
  have onward := Session.Onward.mapControl session fun control => .act control signal
  cases run with
  | waiting fresh listens ready => exact .waiting (fresh.onward onward) listens ready
  | running runs polled =>
      refine .running (runs.transfer rfl ?_ fun status isOver => isOver.onward onward rfl) polled
      rintro ⟨underWay, listens⟩
      exact ⟨underWay.onward onward, listens⟩

end JobRun

/-! ### Work on a machine -/

/-- What may happen on a machine between two looks of a client: tasks are polled, in any order, and
everything but the tasks and their sessions changes as it likes. -/
inductive Machine.Works : Machine ω α → Machine ω α → Prop
  | rest {machine : Machine ω α} : Works machine machine
  | poll {first last : Machine ω α} (works : Works first last) (call : Nat) :
      Works first (last.poll call)
  | idle {first last other : Machine ω α} (works : Works first last)
      (sameSessions : other.sessions = last.sessions) (sameTasks : other.tasks = last.tasks) :
      Works first other

namespace Machine

variable {first last : Machine ω α}

theorem Works.drain (works : Works first last) (fuel : Nat) : Works first (last.drain fuel) := by
  induction fuel generalizing last with
  | zero => exact works
  | succ fuel ih =>
      rw [Machine.drain]
      split
      · exact works
      · rename_i next rest queue
        have dequeued : Works first { last with queue := rest } := works.idle rfl rfl
        exact ih ((dequeued.poll next).idle rfl rfl)

theorem Works.settle (works : Works first last) (fuel : Nat) : Works first (last.settle fuel) :=
  (works.idle rfl rfl : Works first last.wake).drain fuel

theorem Works.setClock (works : Works first last) (moment : Option Nat) :
    Works first (last.setClock moment) := by
  cases moment with
  | none => exact works
  | some moment => exact works.idle rfl rfl

theorem Works.advanceUntil (works : Works first last) (pollFuel : Nat) (stop : Machine ω α → Bool)
    (moment : Option Nat) (fuel : Nat) :
    Works first (last.advanceUntil pollFuel stop moment fuel) := by
  induction fuel generalizing last with
  | zero => exact works
  | succ fuel ih =>
      rw [Machine.advanceUntil]
      split
      · exact works
      · split
        · exact works.setClock moment
        · rename_i due _
          split
          · have rung : Works first (last.ring (max due last.world.clock)) := works.idle rfl rfl
            exact ih (rung.drain pollFuel)
          · exact works.setClock moment

end Machine

/-! ### Jobs on a machine -/

/-- A job that has a session and a task of its own on a machine. -/
structure Job.OnMachine (job : Job) (machine : Machine ω JobStatus) (session : Session)
    (stage : Stage ω JobStatus) : Prop where
  hasSession : (machine.view job.session).session = some session
  hasStages : (machine.view job.session).stages =
    Function.update (fun _ => none) job.task (some stage)
  run : JobRun session stage

namespace Job.OnMachine

variable {job : Job} {machine : Machine ω JobStatus} {session : Session}
  {stage : Stage ω JobStatus}

theorem stage_eq (on : job.OnMachine machine session stage) :
    (machine.view job.session).stages job.task = some stage := by
  rw [on.hasStages, Function.update_self]

theorem session_eq (on : job.OnMachine machine session stage) :
    machine.session job.session = session := Machine.session_eq on.hasSession

theorem value?_eq (on : job.OnMachine machine session stage) :
    machine.value? job.task = stage.value? := by
  rcases Machine.view_stages_eq_some.mp on.stage_eq with ⟨task, hasTask, -, rfl⟩
  rw [Machine.value?, hasTask]
  rfl

/-- Whatever leaves the view of a job's session alone leaves the job alone. -/
theorem of_view_eq (on : job.OnMachine machine session stage) {other : Machine ω JobStatus}
    (same : other.view job.session = machine.view job.session) :
    job.OnMachine other session stage :=
  ⟨same ▸ on.hasSession, same ▸ on.hasStages, on.run⟩

theorem poll (on : job.OnMachine machine session stage) (call : Nat) :
    ∃ session' stage', job.OnMachine (machine.poll call) session' stage' ∧
      (JobRun.Ended session stage → session' = session) := by
  by_cases isTask : call = job.task
  · subst isTask
    have polled := Machine.view_poll on.hasSession on.stage_eq
    refine ⟨(stage.poll machine.registry session machine.world).session,
      (stage.poll machine.registry session machine.world).stage,
      ⟨congrArg View.session polled, ?_, on.run.poll machine.registry machine.world⟩, ?_⟩
    · rw [polled, on.hasStages]
      exact Function.update_idem ..
    · intro ended
      rw [ended.poll]
  · have noStage : (machine.view job.session).stages call = none := by
      rw [on.hasStages, Function.update_of_ne isTask]
    exact ⟨session, stage, on.of_view_eq (Machine.view_poll_of_none noStage), fun _ => rfl⟩

/-- Work leaves a job on its machine, and one that is over as it is. -/
theorem works (on : job.OnMachine machine session stage) {other : Machine ω JobStatus}
    (works : machine.Works other) :
    ∃ session' stage', job.OnMachine other session' stage' ∧
      (JobRun.Ended session stage → session' = session) := by
  induction works with
  | rest => exact ⟨session, stage, on, fun _ => rfl⟩
  | poll _ call ih =>
      rcases ih with ⟨session', stage', on', same⟩
      rcases on'.poll call with ⟨session'', stage'', on'', sameThen⟩
      refine ⟨session'', stage'', on'', fun ended => ?_⟩
      have endedThen : JobRun.Ended session' stage' := by
        rw [on'.run.ended_iff, same ended]
        exact ended.isTerminal
      exact (sameThen endedThen).trans (same ended)
  | @idle last other _ sameSessions sameTasks ih =>
      rcases ih with ⟨session', stage', on', same⟩
      have sameView : other.view job.session = last.view job.session := by
        simp only [Machine.view, sameSessions, sameTasks]
      exact ⟨session', stage', on'.of_view_eq sameView, same⟩

/-- A signal reaches the job of its session and no other one. -/
theorem act (on : job.OnMachine machine session stage) (place : Nat) (signal : Signal) :
    ∃ session', job.OnMachine (machine.modifyControl place signal.act) session' stage ∧
      session'.result = session.result ∧ session'.notices = session.notices ∧
      (session.control.status.isTerminal →
        session'.control.status = session.control.status) := by
  by_cases isHere : place = job.session
  · subst isHere
    have viewed : (machine.modifySession job.session _).view job.session = _ :=
      Machine.view_modifySession fun session => session.mapControl signal.act
    have onward := Session.Onward.mapControl session fun control => .act control signal
    refine ⟨session.mapControl signal.act, ⟨?_, ?_, on.run.act signal⟩, rfl, rfl, onward.staysAt⟩
    · rw [Machine.modifyControl, viewed, on.hasSession]
      rfl
    · rw [Machine.modifyControl, viewed]
      exact on.hasStages
  · refine ⟨session, on.of_view_eq ?_, rfl, rfl, fun _ => rfl⟩
    simp [Machine.modifyControl, Machine.modifySession, Machine.view, isHere]

end Job.OnMachine

end TestEngine
