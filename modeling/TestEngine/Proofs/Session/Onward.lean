import TestEngine.Machine.Task

/-!
# Sessions under way

Apart from its beginning and its end, whatever happens to a job leaves the marks of its life alone:
an interruption stays, and a run counts as cancelled only if it is interrupted. `Session.Onward` is
the order that all of this goes along; it is shown of the client's signals, of the activities of
capabilities, and of each request of a run.
-/

namespace TestEngine

variable {ω α η : Type}

theorem JobStatus.not_isTerminal_of_isActive {status : JobStatus} (active : status.isActive) :
    ¬status.isTerminal := by
  cases status <;> simp_all [isActive, isTerminal]

/-! ### Controls -/

/-- What may become of a control while nobody begins or ends the run. -/
structure Control.Onward (before after : Control η) : Prop where
  startedAt : after.startedAt = before.startedAt
  stoppedAt : after.stoppedAt = before.stoppedAt
  status : after.status = before.status ∨ before.status.isActive ∧ after.status.isActive
  interrupted : before.interrupted → after.interrupted
  /-- An interruption comes too late for a run that is over. -/
  settled : before.status.isTerminal → after.interrupted = before.interrupted

namespace Control.Onward

theorem refl (control : Control η) : control.Onward control :=
  ⟨rfl, rfl, .inl rfl, id, fun _ => rfl⟩

theorem status_of_not_isActive {before after : Control η} (onward : before.Onward after)
    (inactive : ¬before.status.isActive) : after.status = before.status :=
  onward.status.resolve_right fun active => inactive active.1

theorem trans {first middle last : Control η} (before : first.Onward middle)
    (after : middle.Onward last) : first.Onward last where
  startedAt := after.startedAt.trans before.startedAt
  stoppedAt := after.stoppedAt.trans before.stoppedAt
  status := by
    rcases before.status with same | ⟨active, stillActive⟩
    · rw [← same]
      exact after.status
    · rcases after.status with same | ⟨-, stillActive'⟩
      · exact .inr ⟨active, same ▸ stillActive⟩
      · exact .inr ⟨active, stillActive'⟩
  interrupted := after.interrupted ∘ before.interrupted
  settled := by
    intro terminal
    have inactive : ¬first.status.isActive := fun active =>
      JobStatus.not_isTerminal_of_isActive active terminal
    have stillTerminal : middle.status.isTerminal := by
      rw [before.status_of_not_isActive inactive]
      exact terminal
    exact (after.settled stillTerminal).trans (before.settled terminal)

theorem writePaused (control : Control η) (paused : Bool) :
    control.Onward (control.writePaused paused) := ⟨rfl, rfl, .inl rfl, id, fun _ => rfl⟩

theorem pause (control : Control η) : control.Onward control.pause := by
  rw [Control.pause]
  split
  · exact refl control
  · exact writePaused control true

theorem resume (control : Control η) : control.Onward control.resume := by
  rw [Control.resume]
  split
  · rename_i paused
    exact ⟨rfl, rfl, .inr ⟨congrArg JobStatus.isActive paused, rfl⟩, id, fun _ => rfl⟩
  · exact writePaused control false

theorem interrupt (control : Control η) : control.Onward control.interrupt := by
  rw [Control.interrupt]
  split
  · exact refl control
  · rename_i ongoing
    exact ⟨rfl, rfl, .inl rfl, fun _ => rfl, fun terminal => absurd terminal ongoing⟩

theorem interact (control : Control η) (interaction : Interaction) :
    control.Onward (control.interact interaction) := by
  have delivered : control.Onward { control with interaction := some interaction } :=
    ⟨rfl, rfl, .inl rfl, id, fun _ => rfl⟩
  exact delivered.trans (resume _)

theorem act (control : Control η) (signal : Signal) : control.Onward (signal.act control) := by
  cases signal with
  | pause => exact pause control
  | resume => exact resume control
  | interrupt => exact interrupt control
  | interact interaction => exact interact control interaction

theorem park (control : Control η) : control.Onward control.park := by
  rw [Control.park]
  split
  · rename_i running
    exact ⟨rfl, rfl, .inr ⟨congrArg JobStatus.isActive running, rfl⟩, id, fun _ => rfl⟩
  · exact refl control

theorem wake (control : Control η) : control.Onward control.wake := by
  rw [Control.wake]
  split
  · rename_i paused
    exact ⟨rfl, rfl, .inr ⟨congrArg JobStatus.isActive paused, rfl⟩, id, fun _ => rfl⟩
  · exact refl control

theorem beginInteraction (control : Control η) : control.Onward control.beginInteraction :=
  ⟨rfl, rfl, .inl rfl, id, fun _ => rfl⟩

end Control.Onward

/-! ### Sessions -/

theorem ActivityRun.session_carried {request : Request} (run : ActivityRun ω α) (abandoned : Bool)
    (answer : Reply α → request.Answer) (wait : Activity ω α → Option Alarm → Wait ω request) :
    (run.carried abandoned answer wait).session = run.session := by
  rw [carried]
  split
  · rfl
  · rfl
  · split <;> rfl

namespace Session

/-- Nothing happens to a run that is not interrupted when it looks for interruptions. -/
theorem notice_of_not_interrupted (session : Session)
    (notInterrupted : session.control.interrupted = false) : session.notice = (session, false) := by
  rw [notice, Control.notice, if_neg (by simp [notInterrupted]), notInterrupted]
  rfl

/-- What may become of a session while nobody begins, ends or rejects its job. -/
structure Onward (before after : Session) : Prop where
  attended : after.attended = before.attended
  finalized : after.finalized = before.finalized
  listeners : after.listeners = before.listeners
  notices : after.notices = before.notices
  verdict : after.result.verdict = before.result.verdict
  results : after.result.results = before.result.results
  control : before.control.Onward after.control
  cancelled : before.control.status.isActive → after.result.runStatus = .cancelled →
    before.result.runStatus = .cancelled ∨ after.control.interrupted

namespace Onward

theorem refl (session : Session) : session.Onward session :=
  ⟨rfl, rfl, rfl, rfl, rfl, rfl, .refl _, fun _ => .inl⟩

theorem isActive {before after : Session} (onward : before.Onward after)
    (active : before.control.status.isActive) : after.control.status.isActive := by
  rcases onward.control.status with same | ⟨-, stillActive⟩
  · rw [same]
    exact active
  · exact stillActive

theorem trans {first middle last : Session} (before : first.Onward middle)
    (after : middle.Onward last) : first.Onward last where
  attended := after.attended.trans before.attended
  finalized := after.finalized.trans before.finalized
  listeners := after.listeners.trans before.listeners
  notices := after.notices.trans before.notices
  verdict := after.verdict.trans before.verdict
  results := after.results.trans before.results
  control := before.control.trans after.control
  cancelled := by
    intro active cancelled
    rcases after.cancelled (before.isActive active) cancelled with earlier | interrupted
    · exact (before.cancelled active earlier).imp id after.control.interrupted
    · exact .inr interrupted

/-- Whatever is onward for the control is so for the session around it. -/
theorem withControl (session : Session) {control : Control Hook}
    (onward : session.control.Onward control) : session.Onward { session with control } :=
  ⟨rfl, rfl, rfl, rfl, rfl, rfl, onward, fun _ => .inl⟩

theorem mapControl (session : Session) {change : Control Hook → Control Hook}
    (onward : ∀ control : Control Hook, control.Onward (change control)) :
    session.Onward (session.mapControl change) :=
  withControl session (onward session.control)

/-- Any progress but the cancellation of the run may be shown. -/
theorem setRunStatus (session : Session) {runStatus : RunStatus}
    (ongoing : runStatus ≠ .cancelled) :
    session.Onward (session.setRunStatus runStatus) :=
  ⟨rfl, rfl, rfl, rfl, rfl, rfl, .refl _, fun _ cancelled => absurd cancelled ongoing⟩

theorem receive (session : Session) (signal : Signal) :
    session.Onward (session.receive signal) := by
  rw [Session.receive]
  split
  · exact mapControl session fun control => .act control signal
  · exact refl session

theorem carryOut {session : Session} (interrupted : session.control.interrupted) (hook : Hook) :
    session.Onward (session.carryOut hook) := by
  cases hook with
  | cancelRun => exact ⟨rfl, rfl, rfl, rfl, rfl, rfl, .refl _, fun _ _ => .inr interrupted⟩
  | note tag => exact ⟨rfl, rfl, rfl, rfl, rfl, rfl, .refl _, fun _ => .inl⟩

theorem carryOutAll (session : Session) (interrupted : session.control.interrupted)
    (hooks : List Hook) : session.Onward (hooks.foldl Session.carryOut session) := by
  induction hooks generalizing session with
  | nil => exact refl session
  | cons hook rest ih =>
      have carried := carryOut interrupted hook
      exact carried.trans (ih _ (carried.control.interrupted interrupted))

theorem notice (session : Session) : session.Onward session.notice.1 := by
  rw [Session.notice, Control.notice]
  split
  · rename_i interrupted
    have dropped : session.control.Onward { session.control with hooks := [] } :=
      ⟨rfl, rfl, .inl rfl, id, fun _ => rfl⟩
    exact (withControl session dropped).trans (carryOutAll _ (by exact interrupted) _)
  · exact refl session

theorem endWaiting (session : Session) : session.Onward session.endWaiting := by
  rw [Session.endWaiting]
  split
  · exact setRunStatus session (by decide)
  · exact refl session

theorem endInteraction (session : Session) : session.Onward session.endInteraction.1 := by
  have ended := (notice session).trans (endWaiting _)
  rw [Session.endInteraction]
  split
  · exact ended
  · exact ended.trans (withControl _ ⟨rfl, rfl, .inl rfl, id, fun _ => rfl⟩)

theorem cancelRun (session : Session) :
    session.Onward ((session.setRunStatus .cancelled).mapControl Control.interrupt) where
  attended := rfl
  finalized := rfl
  listeners := rfl
  notices := rfl
  verdict := rfl
  results := rfl
  control := .interrupt session.control
  cancelled := by
    intro active _
    refine .inr ?_
    change session.control.interrupt.interrupted = true
    rw [Control.interrupt, if_neg (JobStatus.not_isTerminal_of_isActive active)]

theorem advance (activity : Activity ω α) (session : Session) (world : World ω)
    (lines : List String) : session.Onward (activity.advance session world lines).session := by
  induction activity generalizing session world lines with
  | finish answer => exact refl session
  | crash => exact refl session
  | hang => exact refl session
  | sleep duration next ih =>
      rw [Activity.advance]
      split
      · exact ih session world lines
      · exact refl session
  | log line next ih => exact ih session world _
  | signal sent next ih => exact (receive session sent).trans (ih _ world lines)
  | consult effect next ih => exact ih world.state session _ lines

end Onward

theorem reject_results (session : Session) (now : Calendar.Instant) :
    (session.reject now).result.results = session.result.results := by
  rw [reject]
  split <;> rfl

/-- The session once the results are shown that a request publishes, if it publishes any. -/
def published (session : Session) : Request → Session
  | .publish results => { session with result := { session.result with results } }
  | _ => session

end Session

/-- Whether a request neither begins nor ends a job. -/
def Request.isOrdinary : Request → Bool
  | beginJob | endJob _ => false
  | _ => true

open Session in
/-- A request that neither begins nor ends the job leaves the marks of its life alone. -/
theorem Request.carryOut_onward (registry : Registry ω) (session : Session) (world : World ω)
    {request : Request} (ordinary : request.isOrdinary) :
    (session.published request).Onward (request.carryOut registry session world).session := by
  cases request with
  | checkpoint =>
      rw [carryOut]
      split
      · exact .notice session
      · split
        · exact (Onward.notice session).trans (.mapControl _ .park)
        · exact .notice session
  | sleep duration =>
      rw [carryOut]
      split <;> exact .refl session
  | elapsed => exact .refl session
  | now => exact .refl session
  | acquire lock timeout =>
      rw [carryOut]
      split
      · exact .refl session
      · rw [tryLock_session]
        exact .refl session
  | release lock => exact .refl session
  | perform call =>
      rw [carryOut]
      split
      · exact .refl session
      · rw [ActivityRun.session_carried]
        exact .advance _ session _ []
  | execute call =>
      rw [carryOut]
      split
      · exact .refl session
      · rw [ActivityRun.session_carried]
        exact .advance _ session _ []
  | verify check property => exact .refl session
  | moveTo cursor => exact ⟨rfl, rfl, rfl, rfl, rfl, rfl, .refl _, fun _ => .inl⟩
  | noteStart => exact ⟨rfl, rfl, rfl, rfl, rfl, rfl, .refl _, fun _ => .inl⟩
  | publish results => exact .refl _
  | openInteraction =>
      exact (Onward.setRunStatus session (by decide)).trans (.mapControl _ .beginInteraction)
  | awaitInteraction =>
      rw [carryOut]
      split
      · exact .endInteraction session
      · have parked := Onward.mapControl session .park
        split
        · exact (parked.trans (.mapControl _ .wake)).trans (.endInteraction _)
        · exact parked
  | cancelRun => exact .cancelRun session
  | awaitResume =>
      have parked := Onward.mapControl session .park
      rw [carryOut]
      split
      · exact parked.trans (.mapControl _ .wake)
      · exact parked
  | beginJob => exact absurd ordinary (by decide)
  | endJob ending => exact absurd ordinary (by simp [isOrdinary])

open Session in
/-- A wait that is over leaves the marks of a job's life alone. -/
theorem Wait.resume_onward (session : Session) (world : World ω) {request : Request}
    (wait : Wait ω request) : session.Onward (wait.resume session world).session := by
  cases wait with
  | checkpoint => exact (Onward.mapControl session .wake).trans (.notice _)
  | pause => exact .mapControl session .wake
  | interaction => exact (Onward.mapControl session .wake).trans (.endInteraction _)
  | sleep alarm seen => exact .refl session
  | line ticket alarm =>
      rw [resume]
      split
      · exact .refl session
      · rw [leaveLine_session]
        exact .refl session
  | performing activity alarm =>
      rw [resume]
      split
      · exact .refl session
      · rw [ActivityRun.session_carried]
        exact .advance activity session _ []
  | executing activity alarm lines =>
      rw [resume]
      split
      · exact .refl session
      · rw [ActivityRun.session_carried]
        exact .advance activity session _ lines

end TestEngine
