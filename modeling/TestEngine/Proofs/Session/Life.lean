import TestEngine.Proofs.Session.Attach
import TestEngine.Proofs.Session.Onward

/-!
# The life of a session

The session of a job is fresh until somebody runs or rejects the job. A run puts it under way and
brings it to its end, unless the job is rejected before. What a session is at each stage is kept by
everything that may happen meanwhile, and the requests that begin and end a job lead from one stage
to the next.
-/

namespace TestEngine

open Calendar

/-! ### Results of jobs that are over -/

/-- A result whose verdict is the one that the elements leave, at every depth. -/
structure ConfigurationResult.Judged (result : ConfigurationResult) : Prop where
  rolledUp : ∀ top ∈ result.results, top.RolledUp
  verdict : result.verdict =
    some (if result.results.any ElementResult.isFailed then .failed else .passed)

/-- The result of a job that ended with a status. -/
structure ConfigurationResult.Ended (result : ConfigurationResult) (status : JobStatus) : Prop where
  stop : result.stop.isSome
  verdict : result.verdict.isSome
  finished : status = .finished → result.runStatus = .finished ∧ result.Judged
  interrupted : status = .interrupted →
    result.runStatus = .cancelled ∧ result.verdict = some .failed

namespace ConfigurationResult

theorem finish_eq (result : ConfigurationResult) (now : Instant) :
    result.finish now =
      { result with
        stop := some now
        duration := result.start.map now.millisSince
        verdict := some (if result.results.any ElementResult.isFailed then .failed
          else result.verdict.getD .passed) } := by
  rw [finish, rollUp]
  split <;> rfl

theorem Judged.attachTraces {result : ConfigurationResult} (judged : result.Judged)
    (cache : TraceCache) : (result.attachTraces cache).1.Judged where
  rolledUp := by
    intro top topMem
    rcases ElementResult.mem_visitAll topMem with ⟨before, beforeMem, state, rfl⟩
    exact (judged.rolledUp before beforeMem).visitTraces state
  verdict := by
    change result.verdict = some (if List.any (ElementResult.visitAll _ _ _).1 _ then _ else _)
    rw [ElementResult.any_isFailed_visitAll]
    exact judged.verdict

theorem Ended.attachTraces {result : ConfigurationResult} {status : JobStatus}
    (ended : result.Ended status) (cache : TraceCache) :
    (result.attachTraces cache).1.Ended status where
  stop := ended.stop
  verdict := ended.verdict
  finished finished := ⟨(ended.finished finished).1, (ended.finished finished).2.attachTraces cache⟩
  interrupted := ended.interrupted

end ConfigurationResult

namespace Session

/-! ### Stages of a life -/

/-- The session of a job that nobody has run or rejected. -/
structure Fresh (session : Session) : Prop where
  notFinalized : session.finalized = false
  notices : session.notices = []
  verdict : session.result.verdict = none
  results : session.result.results = []
  status : session.control.status = .initialized

/-- The session of a job that runs. -/
structure UnderWay (session : Session) : Prop where
  notFinalized : session.finalized = false
  notices : session.notices = []
  verdict : session.result.verdict = none
  isActive : session.control.status.isActive
  cancelled : session.result.runStatus = .cancelled → session.control.interrupted

/-- The session of a job that was rejected, before it ran or meanwhile. -/
structure Rejected (session : Session) : Prop where
  finalized : session.finalized
  notices : session.notices = []
  verdict : session.result.verdict = none
  status : session.control.status = .rejected

/-- The session of a job that ran to its end, of which some listeners have been told. -/
structure Over (session : Session) (status : JobStatus) (told : List String) : Prop where
  finalized : session.finalized
  current : session.control.status = status
  how : status = .finished ∧ session.control.interrupted = false ∨ status = .interrupted
  stoppedAt : session.control.stoppedAt.isSome
  result : session.result.Ended status
  notices : session.notices = told.map (⟨·, status, session.result⟩)

theorem Over.isTerminal {session : Session} {status : JobStatus} {told : List String}
    (isOver : session.Over status told) :
    session.control.status.isTerminal := by
  rw [isOver.current]
  rcases isOver.how with ⟨rfl, -⟩ | rfl <;> rfl

theorem Over.not_isActive {session : Session} {status : JobStatus} {told : List String}
    (isOver : session.Over status told) : ¬session.control.status.isActive :=
  fun active => JobStatus.not_isTerminal_of_isActive active isOver.isTerminal

section Onward

variable {before after : Session}

theorem Fresh.onward (fresh : before.Fresh) (onward : before.Onward after) : after.Fresh where
  notFinalized := onward.finalized.trans fresh.notFinalized
  notices := onward.notices.trans fresh.notices
  verdict := onward.verdict.trans fresh.verdict
  results := onward.results.trans fresh.results
  status := by
    have inactive : ¬before.control.status.isActive := by simp [fresh.status, JobStatus.isActive]
    exact (onward.control.status_of_not_isActive inactive).trans fresh.status

theorem UnderWay.onward (underWay : before.UnderWay) (onward : before.Onward after) :
    after.UnderWay where
  notFinalized := onward.finalized.trans underWay.notFinalized
  notices := onward.notices.trans underWay.notices
  verdict := onward.verdict.trans underWay.verdict
  isActive := onward.isActive underWay.isActive
  cancelled cancelled := by
    rcases onward.cancelled underWay.isActive cancelled with earlier | interrupted
    · exact onward.control.interrupted (underWay.cancelled earlier)
    · exact interrupted

theorem UnderWay.publish (underWay : before.UnderWay) (results : List ElementResult) :
    UnderWay { before with result := { before.result with results } } :=
  ⟨underWay.notFinalized, underWay.notices, underWay.verdict, underWay.isActive,
    underWay.cancelled⟩

theorem Rejected.onward (rejected : before.Rejected) (onward : before.Onward after) :
    after.Rejected where
  finalized := by
    rw [onward.finalized]
    exact rejected.finalized
  notices := onward.notices.trans rejected.notices
  verdict := onward.verdict.trans rejected.verdict
  status := by
    have inactive : ¬before.control.status.isActive := by simp [rejected.status, JobStatus.isActive]
    exact (onward.control.status_of_not_isActive inactive).trans rejected.status

/-- The result of a job that is over is not touched any more. -/
theorem Over.onward {status : JobStatus} {told : List String} (isOver : before.Over status told)
    (onward : before.Onward after) (sameResult : after.result = before.result) :
    after.Over status told where
  finalized := by
    rw [onward.finalized]
    exact isOver.finalized
  current := (onward.control.status_of_not_isActive isOver.not_isActive).trans isOver.current
  how := by
    rw [onward.control.settled isOver.isTerminal]
    exact isOver.how
  stoppedAt := by
    rw [onward.control.stoppedAt]
    exact isOver.stoppedAt
  result := by
    rw [sameResult]
    exact isOver.result
  notices := by
    rw [onward.notices, sameResult]
    exact isOver.notices

end Onward

/-! ### From stage to stage -/

theorem Fresh.begin {session : Session} (fresh : session.Fresh) (now : Instant) :
    ∃ begun, session.begin? now = some begun ∧ begun.UnderWay ∧
      begun.result.results = [] ∧ begun.listeners = session.listeners := by
  let running : Control Hook :=
    { session.control with status := .running, startedAt := some now }
  let begun : Session :=
    { session with
      control := running.onAbort .cancelRun
      result := { session.result with start := some now, runStatus := .running } }
  refine ⟨begun, ?_, ?_, fresh.results, rfl⟩
  · rw [begin?, Control.start?, if_pos fresh.status]
    rfl
  · exact ⟨fresh.notFinalized, fresh.notices, fresh.verdict, rfl,
      fun cancelled => nomatch cancelled⟩

theorem begin?_eq_none {session : Session} (started : session.control.status ≠ .initialized)
    (now : Instant) : session.begin? now = none := by
  rw [begin?, Control.start?, if_neg started]
  rfl

/-- Only a job that nobody has started or rejected can be started, and who listens and whether it is
interrupted stays then as it is. -/
theorem begin?_spec {session begun : Session} {now : Instant}
    (begins : session.begin? now = some begun) :
    session.control.status = .initialized ∧ begun.listeners = session.listeners ∧
      begun.control.interrupted = session.control.interrupted := by
  rcases Option.map_eq_some_iff.mp begins with ⟨running, starts, rfl⟩
  rw [Control.start?] at starts
  split at starts
  · rename_i initialized
    obtain rfl := Option.some.inj starts
    exact ⟨initialized, rfl, rfl⟩
  · exact nomatch starts

/-- The result of a job that is finalized without having been cancelled, or because it was. -/
theorem UnderWay.finalResult_ended {session : Session} {status : JobStatus}
    (underWay : session.UnderWay)
    (how : status = .finished ∧ session.control.interrupted = false ∨ status = .interrupted)
    (rolledUp : status = .finished → ∀ top ∈ session.result.results, top.RolledUp)
    (now : Instant) : (session.finalResult status now).Ended status := by
  rw [finalResult, ConfigurationResult.finish_eq]
  rcases how with ⟨rfl, notInterrupted⟩ | rfl
  · have notCancelled : session.result.runStatus ≠ .cancelled := fun cancelled => by
      simp [underWay.cancelled cancelled] at notInterrupted
    refine ⟨rfl, rfl, fun _ => ⟨?_, rolledUp rfl, ?_⟩, (nomatch ·)⟩
    · simp [notCancelled]
    · simp [underWay.verdict]
  · refine ⟨rfl, rfl, (nomatch ·), fun _ => ⟨rfl, ?_⟩⟩
    simp [underWay.verdict]

/-- Whoever finalizes a job that is under way brings it to its end and tells its listeners. -/
theorem UnderWay.finalize {session : Session} {status : JobStatus} (underWay : session.UnderWay)
    (how : status = .finished ∧ session.control.interrupted = false ∨ status = .interrupted)
    (rolledUp : status = .finished → ∀ top ∈ session.result.results, top.RolledUp)
    (now : Instant) (cache : TraceCache) :
    (session.finalize status now cache).1.Over status session.listeners := by
  have ongoing := JobStatus.not_isTerminal_of_isActive underWay.isActive
  have ended := (underWay.finalResult_ended how rolledUp now).attachTraces cache
  rw [Session.finalize, underWay.notFinalized, Control.stop?, if_neg ongoing]
  refine ⟨rfl, rfl, how, rfl, ended, ?_⟩
  rw [underWay.notices]
  rfl

theorem Rejected.finalize {session : Session} (rejected : session.Rejected) (status : JobStatus)
    (now : Instant) (cache : TraceCache) : (session.finalize status now cache).1 = session := by
  rw [Session.finalize, if_pos rejected.finalized]

/-- How a walk ends and whether it was interrupted tell how the job ends. -/
theorem statusAfter_spec (session : Session) (ending : Ending) :
    let after := session.statusAfter ending
    session.Onward after.1 ∧
      (after.2 = .finished ∧ after.1.control.interrupted = false ∧ ending = .completed ∨
        after.2 = .interrupted) := by
  cases ending with
  | interrupted => exact ⟨.refl session, .inr rfl⟩
  | crashed => exact ⟨.refl session, .inr rfl⟩
  | completed =>
      refine ⟨.notice session, ?_⟩
      cases interrupted : session.control.interrupted with
      | true => exact .inr (by simp [statusAfter, notice, interrupted])
      | false =>
          have unnoticed := session.notice_of_not_interrupted interrupted
          simp [statusAfter, unnoticed, interrupted]

theorem reject_rejected {session : Session} (notFinalized : session.finalized = false)
    (notices : session.notices = []) (verdict : session.result.verdict = none)
    (ongoing : ¬session.control.status.isTerminal) (now : Instant) :
    (session.reject now).Rejected := by
  rw [reject, notFinalized]
  refine ⟨rfl, notices, verdict, ?_⟩
  change ((session.control.stop? .rejected now).getD session.control).status = .rejected
  rw [Control.stop?, if_neg ongoing]
  rfl

/-- A job that has been brought to its end is not rejected any more. -/
theorem reject_of_finalized {session : Session} (finalized : session.finalized) (now : Instant) :
    session.reject now = session := by
  rw [reject, if_pos finalized]

theorem finalize_interrupted (session : Session) (status : JobStatus)
    (now : Instant) (cache : TraceCache) :
    (session.finalize status now cache).1.control.interrupted = session.control.interrupted := by
  rw [finalize]
  split
  · rfl
  · by_cases terminal : session.control.status.isTerminal
    · simp [Control.stop?, terminal]
    · simp [Control.stop?, Control.writePaused, terminal]

end Session

/-- No request takes an interruption back. -/
theorem Request.carryOut_interrupted (registry : Registry ω) {session : Session}
    (interrupted : session.control.interrupted) (world : World ω) (request : Request) :
    (request.carryOut registry session world).session.control.interrupted := by
  by_cases ordinary : request.isOrdinary
  · have onward := request.carryOut_onward registry session world ordinary
    refine onward.control.interrupted ?_
    cases request <;> exact interrupted
  · cases request with
    | beginJob =>
        rw [carryOut]
        split
        · rename_i begun begins
          exact (Session.begin?_spec begins).2.2.trans interrupted
        · exact interrupted
    | endJob ending =>
        have onward := (session.statusAfter_spec ending).1
        exact (Session.finalize_interrupted _ _ _ _).trans (onward.control.interrupted interrupted)
    | _ => exact absurd rfl ordinary

end TestEngine
