import TestEngine.Proofs.Machine.Trace
import TestEngine.Proofs.Pause.Core
import TestEngine.Proofs.Session.Onward

/-!
# Parked tasks

A task is parked while it waits for a pause to be lifted, be it at a checkpoint or because a tester
has to deliver a result. A poll that lets a task go on leaves its session shown as paused exactly if
it leaves the task parked.
-/

namespace TestEngine

variable {ω α : Type} {session : Session} {world : World ω}

/-! ### Shown statuses -/

/-- Whether a signal lifts a pause. -/
def Signal.lifts : Signal → Bool
  | resume | interact _ => true
  | _ => false

namespace Session

theorem status_of_lifts {signal : Signal} (lifts : signal.lifts) :
    (session.mapControl signal.act).control.status ≠ .paused := by
  cases signal with
  | pause => exact absurd lifts Bool.false_ne_true
  | interrupt => exact absurd lifts Bool.false_ne_true
  | resume =>
      simp only [mapControl, Signal.act, Control.resume]
      split
      · exact JobStatus.noConfusion
      · assumption
  | interact interaction =>
      simp only [mapControl, Signal.act, Control.interact, Control.resume]
      split
      · exact JobStatus.noConfusion
      · assumption

theorem status_of_not_lifts {signal : Signal}
    (stays : ¬signal.lifts) :
    (session.mapControl signal.act).control.status = session.control.status := by
  cases signal with
  | resume => exact absurd rfl stays
  | interact interaction => exact absurd rfl stays
  | pause =>
      simp only [mapControl, Signal.act, Control.pause]
      split <;> rfl
  | interrupt =>
      simp only [mapControl, Signal.act, Control.interrupt]
      split <;> rfl

theorem status_signal {signal : Signal} (notPaused : session.control.status ≠ .paused) :
    (session.mapControl signal.act).control.status ≠ .paused := by
  by_cases lifts : signal.lifts
  · exact status_of_lifts lifts
  · rw [status_of_not_lifts lifts]
    exact notPaused

theorem status_receive {sent : Signal} (notPaused : session.control.status ≠ .paused) :
    (session.receive sent).control.status ≠ .paused := by
  rw [receive]
  split
  · exact status_signal notPaused
  · exact notPaused

theorem status_wake (session : Session) :
    (session.mapControl Control.wake).control.status ≠ .paused := by
  simp only [mapControl, Control.wake]
  split
  · exact JobStatus.noConfusion
  · assumption

theorem status_endJob (notPaused : session.control.status ≠ .paused) (ending : Ending)
    (now : Calendar.Instant) (cache : TraceCache) :
    ((session.statusAfter ending).1.finalize (session.statusAfter ending).2 now
      cache).1.control.status ≠ .paused := by
  have stillNotPaused : (session.statusAfter ending).1.control.status ≠ .paused := by
    cases ending with
    | completed =>
        simp only [statusAfter, control_notice, Control.status_notice]
        exact notPaused
    | interrupted => exact notPaused
    | crashed => exact notPaused
  have toldNotPaused : (session.statusAfter ending).2 ≠ .paused := by
    cases ending with
    | completed =>
        simp only [statusAfter]
        split <;> exact JobStatus.noConfusion
    | interrupted => exact JobStatus.noConfusion
    | crashed => exact JobStatus.noConfusion
  rw [finalize]
  split
  · exact stillNotPaused
  · simp only [Control.stop?]
    split
    · exact stillNotPaused
    · exact toldNotPaused

theorem status_endInteraction (session : Session) :
    session.endInteraction.1.control.status = session.control.status := by
  have status_endWaiting (session : Session) : session.endWaiting.control = session.control := by
    rw [endWaiting]
    split <;> rfl
  simp only [endInteraction]
  split
  · rw [status_endWaiting, control_notice, Control.status_notice]
  · simp only [Control.takeInteraction]
    rw [status_endWaiting, control_notice, Control.status_notice]

theorem status_begin {session begun : Session} {now : Calendar.Instant}
    (begins : session.begin? now = some begun) : begun.control.status = .running := by
  rcases Option.map_eq_some_iff.mp begins with ⟨running, starts, rfl⟩
  rw [Control.start?] at starts
  split at starts
  · obtain rfl := Option.some.inj starts
    rfl
  · exact nomatch starts

end Session

theorem Activity.status_advance (activity : Activity ω α)
    (notPaused : session.control.status ≠ .paused) (lines : List String) :
    (activity.advance session world lines).session.control.status ≠ .paused := by
  induction activity generalizing session world lines with
  | finish answer => exact notPaused
  | crash => exact notPaused
  | hang => exact notPaused
  | sleep duration next ih =>
      rw [advance]
      split
      · exact ih notPaused lines
      · exact notPaused
  | log line next ih => exact ih notPaused _
  | signal sent next ih => exact ih (Session.status_receive notPaused) lines
  | consult effect next ih => exact ih world.state notPaused lines

/-! ### Parked tasks -/

/-- Whether a wait ends as soon as a pause is lifted. -/
def Wait.isParked {request : Request} : Wait ω request → Bool
  | checkpoint | pause | interaction => true
  | _ => false

def Stage.isParked : Stage ω α → Bool
  | waiting wait _ => wait.isParked
  | _ => false

/-- A task whose session has just been left to it: it is shown as paused if the task is parked, and
never otherwise. -/
structure Stage.Parks (session : Session) (stage : Stage ω α) : Prop where
  shown : session.control.status = .paused → stage.isParked
  parked : stage.isParked → session.control.status ≠ .running

theorem Stage.Parks.of_not_paused {stage : Stage ω α} (notPaused : session.control.status ≠ .paused)
    (notParked : ¬stage.isParked) : stage.Parks session :=
  ⟨fun isPaused => absurd isPaused notPaused, fun isParked => absurd isParked notParked⟩

theorem Session.park_parks (session : Session) {request : Request} {wait : Wait ω request}
    (isParked : wait.isParked) (next : request.Answer → Program α) :
    (Stage.waiting wait next).Parks (session.mapControl Control.park) where
  shown _ := isParked
  parked _ := by
    simp only [mapControl, Control.park]
    split
    · exact JobStatus.noConfusion
    · assumption

/-! ### Requests -/

section Keeps

variable {request : Request} {carried : Carried ω request} {next : request.Answer → Program α}

/-- A request that is answered, or has its task wait for something else than the end of a pause,
leaves the session shown as running. -/
theorem Carried.keeps_parks (notPaused : carried.session.control.status ≠ .paused)
    (notParked : ∀ wait, carried.outcome = .waiting wait → ¬wait.isParked) :
    carried.Keeps (fun after stage => stage.Parks after)
      (fun after _ => after.control.status ≠ .paused) next := by
  rw [Keeps]
  cases outcome : carried.outcome with
  | answered answer => exact notPaused
  | waiting wait => exact .of_not_paused notPaused (notParked wait outcome)

theorem ActivityRun.keeps_parks {β : Type} {run : ActivityRun ω β}
    (notPaused : run.session.control.status ≠ .paused) (abandoned : Bool)
    (answer : Reply β → request.Answer) (wait : Activity ω β → Option Alarm → Wait ω request)
    (notParked : ∀ wait : Wait ω request, ¬wait.isParked) :
    (run.carried abandoned answer wait).Keeps (fun after stage => stage.Parks after)
      (fun after _ => after.control.status ≠ .paused) next := by
  refine Carried.keeps_parks ?_ fun wait _ => notParked wait
  rw [ActivityRun.session_carried]
  exact notPaused

end Keeps

theorem Request.carryOut_parks (registry : Registry ω) (world : World ω) (request : Request)
    (next : request.Answer → Program α) (notPaused : session.control.status ≠ .paused) :
    (request.carryOut registry session world).Keeps (fun after stage => stage.Parks after)
      (fun after _ => after.control.status ≠ .paused) next := by
  have noticed : session.notice.1.control.status ≠ .paused := by
    rw [Session.control_notice, Control.status_notice]
    exact notPaused
  have ended (session : Session) (notPaused : session.control.status ≠ .paused) :
      session.endInteraction.1.control.status ≠ .paused := by
    rw [session.status_endInteraction]
    exact notPaused
  cases request with
  | checkpoint =>
      simp only [carryOut]
      split
      · exact noticed
      · split
        · exact session.notice.1.park_parks rfl next
        · exact noticed
  | awaitResume =>
      simp only [carryOut]
      split
      · exact Session.status_wake _
      · exact session.park_parks rfl next
  | awaitInteraction =>
      simp only [carryOut]
      split
      · exact ended session notPaused
      · split
        · exact ended _ (Session.status_wake _)
        · exact session.park_parks rfl next
  | sleep duration =>
      simp only [carryOut]
      split
      · exact notPaused
      · exact .of_not_paused notPaused Bool.false_ne_true
  | acquire lock timeout =>
      refine Carried.keeps_parks ?_ ?_
      · simp only [carryOut]
        split
        · exact notPaused
        · rw [Session.tryLock_session]
          exact notPaused
      · rintro ⟨⟩ -
        exact Bool.false_ne_true
  | perform call =>
      simp only [carryOut]
      split
      · exact notPaused
      · refine ActivityRun.keeps_parks (Activity.status_advance _ notPaused []) _ _ _ ?_
        rintro ⟨⟩
        exact Bool.false_ne_true
  | execute call =>
      simp only [carryOut]
      split
      · exact notPaused
      · refine ActivityRun.keeps_parks (Activity.status_advance _ notPaused []) _ _ _ ?_
        rintro ⟨⟩
        exact Bool.false_ne_true
  | cancelRun =>
      exact @Session.status_signal session .interrupt notPaused
  | beginJob =>
      simp only [carryOut]
      split
      · rename_i begun begins
        exact fun isPaused =>
          JobStatus.noConfusion ((Session.status_begin begins).symm.trans isPaused)
      · exact notPaused
  | endJob ending => exact Session.status_endJob notPaused ending world.now world.cache
  | elapsed => exact notPaused
  | now => exact notPaused
  | release lock => exact notPaused
  | verify check property => exact notPaused
  | moveTo cursor => exact notPaused
  | noteStart => exact notPaused
  | publish results => exact notPaused
  | openInteraction => exact notPaused

/-- A task that goes on is not shown as paused until it has to wait for the end of a pause again. -/
theorem Wait.resume_parks {request : Request} (wait : Wait ω request) (world : World ω)
    (next : request.Answer → Program α)
    (shown : session.control.status = .paused → wait.isParked) :
    (wait.resume session world).Keeps (fun after stage => stage.Parks after)
      (fun after _ => after.control.status ≠ .paused) next := by
  cases wait with
  | checkpoint =>
      change (session.mapControl Control.wake).notice.1.control.status ≠ .paused
      rw [Session.control_notice, Control.status_notice]
      exact session.status_wake
  | pause => exact session.status_wake
  | interaction =>
      change (session.mapControl Control.wake).endInteraction.1.control.status ≠ .paused
      rw [Session.status_endInteraction]
      exact session.status_wake
  | sleep alarm seen => exact fun isPaused => absurd (shown isPaused) Bool.false_ne_true
  | line ticket alarm =>
      have notPaused : session.control.status ≠ .paused :=
        fun isPaused => absurd (shown isPaused) Bool.false_ne_true
      refine Carried.keeps_parks ?_ ?_
      · simp only [resume]
        split
        · exact notPaused
        · rw [Session.leaveLine_session]
          exact notPaused
      · rintro ⟨⟩ -
        exact Bool.false_ne_true
  | performing activity alarm =>
      have notPaused : session.control.status ≠ .paused :=
        fun isPaused => absurd (shown isPaused) Bool.false_ne_true
      simp only [resume]
      split
      · exact notPaused
      · refine ActivityRun.keeps_parks (Activity.status_advance _ notPaused []) _ _ _ ?_
        rintro ⟨⟩
        exact Bool.false_ne_true
  | executing activity alarm lines =>
      have notPaused : session.control.status ≠ .paused :=
        fun isPaused => absurd (shown isPaused) Bool.false_ne_true
      simp only [resume]
      split
      · exact notPaused
      · refine ActivityRun.keeps_parks (Activity.status_advance _ notPaused lines) _ _ _ ?_
        rintro ⟨⟩
        exact Bool.false_ne_true

/-! ### Polls -/

theorem parks_pollLaw (registry : Registry ω) :
    PollLaw registry (fun session (stage : Stage ω α) => stage.Parks session)
      (fun session _ => session.control.status ≠ .paused) fun _ _ => True where
  start parks := fun isPaused => absurd (parks.shown isPaused) Bool.false_ne_true
  finish notPaused := .of_not_paused notPaused Bool.false_ne_true
  ask world request next notPaused :=
    ⟨True.intro, request.carryOut_parks registry world next notPaused⟩
  resume world _ wait next parks := wait.resume_parks world next parks.shown

/-- A poll does nothing to a task that has to wait on, or leaves its session to it. -/
theorem Stage.poll_parks (registry : Registry ω) (call : Nat) (stage : Stage ω α)
    (world : World ω) (shown : session.control.status = .paused → stage.isParked) :
    let after := stage.poll registry session world
    after = ⟨session, world, stage⟩ ∧ stage.asks registry call session world = [] ∨
      after.stage.Parks after.session := by
  have advances (program : Program α) {session : Session} (world : World ω)
      (notPaused : session.control.status ≠ .paused) :
      let after := program.advance registry session world
      after.stage.Parks after.session :=
    ((parks_pollLaw registry).advance call program world notPaused).1
  cases stage with
  | done value => exact .inl ⟨rfl, rfl⟩
  | ready program =>
      exact .inr (advances program world fun isPaused => absurd (shown isPaused) Bool.false_ne_true)
  | waiting wait next =>
      simp only [poll, asks]
      split
      · have keeps := wait.resume_parks world next shown
        rw [Carried.Keeps] at keeps
        cases outcome : (wait.resume session world).outcome with
        | answered answer =>
            rw [outcome] at keeps
            exact .inr (advances _ _ keeps)
        | waiting again =>
            rw [outcome] at keeps
            exact .inr keeps
      · exact .inl ⟨rfl, rfl⟩

end TestEngine
