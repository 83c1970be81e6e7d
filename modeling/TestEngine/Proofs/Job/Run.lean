import TestEngine.Proofs.Machine.Run
import TestEngine.Proofs.Session.Life
import TestEngine.Proofs.Walk.Soundness

/-!
# Runs of jobs

What the run of a job makes of its session: it brings a job that is under way to its end, and leaves
one that was rejected meanwhile as it is. Whoever else polls a task of the job, a status that is
terminal stays, so what a call was told of a job that is over remains true.
-/

namespace TestEngine

open Calendar

variable {ω : Type}

/-! ### Sessions of runs -/

/-- Whoever ends a job that is under way brings it to its end. -/
theorem Session.UnderWay.endJob {session : Session} (underWay : session.UnderWay)
    (registry : Registry ω) (world : World ω) {ending : Ending}
    (complete : ending = .completed → ∀ top ∈ session.result.results, top.RolledUp)
    {status : JobStatus}
    (answered : ((Request.endJob ending).carryOut registry session world).outcome =
      .answered status) :
    ((Request.endJob ending).carryOut registry session world).session.Over status
      session.listeners := by
  rcases session.statusAfter_spec ending with ⟨onward, how⟩
  obtain rfl : (session.statusAfter ending).2 = status := Outcome.answered.inj answered
  rw [← onward.listeners]
  refine (underWay.onward onward).finalize ?_ ?_ world.now world.cache
  · exact how.imp (fun finished => ⟨finished.1, finished.2.1⟩) id
  · intro finished
    rw [onward.results]
    rcases how with ⟨-, -, completed⟩ | interrupted
    · exact complete completed
    · simp [finished] at interrupted

/-- The end of the run of a rejected job changes nothing but the answer of the run. -/
theorem Session.Rejected.endJob {session : Session} (rejected : session.Rejected)
    (registry : Registry ω) (world : World ω) {ending : Ending} {good : List ElementResult → Prop}
    (complete : ending = .completed → good session.result.results) {status : JobStatus}
    (answered : ((Request.endJob ending).carryOut registry session world).outcome =
      .answered status) :
    let after := ((Request.endJob ending).carryOut registry session world).session
    after.Rejected ∧ (status = .finished → good after.result.results) := by
  rcases session.statusAfter_spec ending with ⟨onward, how⟩
  obtain rfl : (session.statusAfter ending).2 = status := Outcome.answered.inj answered
  have stillRejected := rejected.onward onward
  simp only [Request.carryOut, stillRejected.finalize, onward.results]
  refine ⟨stillRejected, fun finished => ?_⟩
  rcases how with ⟨-, -, completed⟩ | interrupted
  · exact complete completed
  · simp [finished] at interrupted

/-- A run that nobody has rejected leaves its job over, with those told who listened. -/
theorem listened_runLaw (configuration : Configuration) (listeners : List String) :
    RunLaw ω configuration.Walked
      (fun session => session.UnderWay ∧ session.listeners = listeners)
      (fun status session => session.Over status listeners) where
  onward holds onward := ⟨holds.1.onward onward, onward.listeners.trans holds.2⟩
  publish := fun ⟨underWay, same⟩ results => ⟨underWay.publish results, same⟩
  endJob := by
    rintro registry session world ending ⟨underWay, rfl⟩ complete _ status answered
    exact underWay.endJob registry world (fun completed => (complete completed).rolledUp) answered

theorem underWay_runLaw (configuration : Configuration) :
    RunLaw ω configuration.Walked Session.UnderWay fun status session =>
      ∃ told, session.Over status told where
  onward underWay onward := underWay.onward onward
  publish underWay results := underWay.publish results
  endJob registry session world _ underWay complete _ answered :=
    ⟨session.listeners,
      underWay.endJob registry world (fun completed => (complete completed).rolledUp) answered⟩

/-- A run that goes on although its job was rejected leaves the job rejected. -/
theorem rejected_runLaw (configuration : Configuration) :
    RunLaw ω configuration.Walked Session.Rejected fun status session =>
      session.Rejected ∧ (status = .finished → configuration.Walked session.result.results) where
  onward rejected onward := rejected.onward onward
  publish rejected _ :=
    ⟨rejected.finalized, rejected.notices, rejected.verdict, rejected.status⟩
  endJob registry _ world _ rejected complete _ := rejected.endJob registry world complete

/-! ### Statuses that stay -/

/-- Whether a status was told to a call that does not own the job: it may be any that the job had
while it was under way, and the last one for good. -/
def Session.HasTold (session : Session) (status : JobStatus) : Prop :=
  status.isActive ∨ status.isTerminal ∧ session.control.status = status

/-- A session whose status stays once it is terminal. -/
def Session.StaysAt (before after : Session) : Prop :=
  before.control.status.isTerminal → after.control.status = before.control.status

theorem Session.HasTold.staysAt {before after : Session} {status : JobStatus}
    (told : before.HasTold status) (stays : before.StaysAt after) : after.HasTold status := by
  refine told.imp id ?_
  rintro ⟨terminal, rfl⟩
  exact ⟨terminal, stays terminal⟩

theorem Session.Onward.staysAt {before after : Session} (onward : before.Onward after) :
    before.StaysAt after :=
  fun terminal => onward.control.status_of_not_isActive fun active =>
    JobStatus.not_isTerminal_of_isActive active terminal

theorem Session.reject_staysAt (session : Session) (now : Instant) :
    session.StaysAt (session.reject now) := by
  intro terminal
  rw [reject]
  split
  · rfl
  · change ((session.control.stop? .rejected now).getD session.control).status = _
    rw [Control.stop?, if_pos terminal]
    rfl

theorem Session.finalize_staysAt (session : Session) (status : JobStatus) (now : Instant)
    (cache : TraceCache) : session.StaysAt (session.finalize status now cache).1 := by
  intro terminal
  rw [finalize]
  split
  · rfl
  · change ((session.control.stop? status now).getD session.control).status = _
    rw [Control.stop?, if_pos terminal]
    rfl

theorem Request.carryOut_staysAt (registry : Registry ω) (session : Session) (world : World ω)
    (request : Request) :
    session.StaysAt (request.carryOut registry session world).session := by
  by_cases ordinary : request.isOrdinary
  · have stays := (request.carryOut_onward registry session world ordinary).staysAt
    cases request <;> exact stays
  · cases request with
    | beginJob =>
        intro terminal
        have started : session.control.status ≠ .initialized := by
          intro initialized
          simp [initialized, JobStatus.isTerminal] at terminal
        rw [carryOut, Session.begin?_eq_none started]
    | endJob ending =>
        have onward := (session.statusAfter_spec ending).1
        intro terminal
        have stillTerminal : (session.statusAfter ending).1.control.status.isTerminal := by
          rw [onward.staysAt terminal]
          exact terminal
        exact ((session.statusAfter ending).1.finalize_staysAt _ _ _ stillTerminal).trans
          (onward.staysAt terminal)
    | _ => exact absurd rfl ordinary

theorem staysAt_pollLaw {α : Type} (registry : Registry ω) {status : JobStatus}
    (terminal : status.isTerminal) :
    PollLaw (α := α) registry (fun session _ => session.control.status = status)
      (fun session _ => session.control.status = status) fun _ _ => True := by
  apply PollLaw.ofSession
  · intro session request kept
    trivial
  · rintro session world request rfl
    exact request.carryOut_staysAt registry session world terminal
  · rintro session world request wait rfl
    exact (wait.resume_onward session world).staysAt terminal

theorem Session.HasTold.poll {α : Type} {session : Session} {status : JobStatus}
    (told : session.HasTold status) (stage : Stage ω α) (registry : Registry ω) (world : World ω) :
    (stage.poll registry session world).session.HasTold status := by
  refine told.imp id ?_
  rintro ⟨terminal, same⟩
  exact ⟨terminal, ((staysAt_pollLaw registry terminal).poll 0 stage world same).1⟩

end TestEngine
