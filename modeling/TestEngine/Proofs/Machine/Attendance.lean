import TestEngine.Proofs.Machine.Trace
import TestEngine.Proofs.Session.Life
import TestEngine.Proofs.Walk.Attendance

/-!
# Attendance on a machine

What a session tells of the progress of its run is written from several places, and each of them
takes care only of some of the others. A run that attends to its testers keeps them apart: it says
that it waits only when it is known not to be cancelled, and it is known to wait until its wait is
over. From poll to poll the session therefore tells what the run is at.
-/

namespace TestEngine

variable {ω α : Type}

/-! ### Progress -/

namespace Session

/-- What may become of the progress that is shown while nobody waits for a tester. -/
def Progresses (before after : Session) : Prop :=
  after.result.runStatus = before.result.runStatus ∨ after.result.runStatus = .cancelled

namespace Progresses

theorem of_eq {before after : Session} (same : after.result = before.result) :
    before.Progresses after := .inl (congrArg ConfigurationResult.runStatus same)

theorem trans {first middle last : Session} (before : first.Progresses middle)
    (after : middle.Progresses last) : first.Progresses last := by
  rcases after with same | cancelled
  · rcases before with sameBefore | cancelled
    · exact .inl (same.trans sameBefore)
    · exact .inr (same.trans cancelled)
  · exact .inr cancelled

theorem cancelled {before after : Session} (progresses : before.Progresses after)
    (cancelled : before.result.runStatus = .cancelled) : after.result.runStatus = .cancelled := by
  rcases progresses with same | cancelled'
  · exact same.trans cancelled
  · exact cancelled'

theorem notice (session : Session) : session.Progresses session.notice.1 := by
  have carriesOut (hooks : List Hook) (session : Session) :
      session.Progresses (hooks.foldl Session.carryOut session) := by
    induction hooks generalizing session with
    | nil => exact .of_eq rfl
    | cons hook rest ih =>
        have first : session.Progresses (session.carryOut hook) := by
          cases hook with
          | cancelRun => exact .inr rfl
          | note tag => exact .of_eq rfl
        exact first.trans (ih _)
  exact carriesOut _ { session with control := session.control.notice.1 }

end Progresses

/-- Once a wait for a tester is over, nobody is shown as waiting. -/
theorem runStatus_endInteraction (session : Session) :
    let after := session.endInteraction.1.result.runStatus
    after ≠ .waiting ∧
      (after = session.result.runStatus ∨ after = .running ∨ after = .cancelled) := by
  have ended : let after := session.notice.1.endWaiting.result.runStatus
      after ≠ .waiting ∧
        (after = session.result.runStatus ∨ after = .running ∨ after = .cancelled) := by
    rw [endWaiting]
    split
    · exact ⟨RunStatus.noConfusion, .inr (.inl rfl)⟩
    · rename_i notWaiting
      exact ⟨notWaiting, (Progresses.notice session).imp id .inr⟩
  rw [endInteraction]
  split
  · exact ended
  · exact ended

/-- Finalizing a job says how its run has ended, unless that was said before. -/
theorem runStatus_finalize {session : Session} (notFinalized : session.finalized = false)
    (status : JobStatus) (now : Calendar.Instant) (cache : TraceCache) :
    (session.finalize status now cache).1.result.runStatus =
      if status = .finished && session.result.runStatus ≠ .cancelled then .finished
      else .cancelled := by
  rw [finalize, notFinalized]
  change (session.finalResult status now).runStatus = _
  rw [finalResult, ConfigurationResult.finish_eq]

end Session

theorem Activity.result_advance (activity : Activity ω α) (session : Session) (world : World ω)
    (lines : List String) :
    (activity.advance session world lines).session.result = session.result := by
  induction activity generalizing session world lines with
  | finish answer => rfl
  | crash => rfl
  | hang => rfl
  | sleep duration next ih =>
      rw [advance]
      split
      · exact ih session world lines
      · rfl
  | log line next ih => exact ih session world _
  | signal sent next ih =>
      rw [advance, ih, Session.receive]
      split <;> rfl
  | consult effect next ih => exact ih world.state session _ lines

open Session in
theorem Request.carryOut_progresses (registry : Registry ω) (session : Session) (world : World ω)
    {request : Request} (plain : request.isPlain) :
    session.Progresses (request.carryOut registry session world).session := by
  cases request with
  | openInteraction => exact nomatch plain
  | awaitInteraction => exact nomatch plain
  | beginJob => exact nomatch plain
  | endJob ending => exact nomatch plain
  | checkpoint =>
      rw [carryOut]
      split
      · exact .notice session
      · split
        · exact (Progresses.notice session).trans (.of_eq rfl)
        · exact .notice session
  | cancelRun => exact .inr rfl
  | sleep duration =>
      rw [carryOut]
      split <;> exact .of_eq rfl
  | acquire lock timeout =>
      rw [carryOut]
      split
      · exact .of_eq rfl
      · rw [tryLock_session]
        exact .of_eq rfl
  | perform call =>
      rw [carryOut]
      split
      · exact .of_eq rfl
      · rw [ActivityRun.session_carried]
        exact .of_eq (Activity.result_advance _ session _ [])
  | execute call =>
      rw [carryOut]
      split
      · exact .of_eq rfl
      · rw [ActivityRun.session_carried]
        exact .of_eq (Activity.result_advance _ session _ [])
  | awaitResume =>
      rw [carryOut]
      split <;> exact .of_eq rfl
  | noteStart => exact .inl rfl
  | publish results => exact .inl rfl
  | _ => exact .of_eq rfl

open Session in
theorem Wait.resume_progresses (session : Session) (world : World ω) {request : Request}
    (wait : Wait ω request) (plain : request.isPlain) :
    session.Progresses (wait.resume session world).session := by
  cases wait with
  | interaction => exact nomatch plain
  | checkpoint =>
      have woken : session.Progresses (session.mapControl Control.wake) := .of_eq rfl
      exact woken.trans (.notice _)
  | pause => exact .of_eq rfl
  | sleep alarm seen => exact .of_eq rfl
  | line ticket alarm =>
      rw [resume]
      split
      · exact .of_eq rfl
      · rw [leaveLine_session]
        exact .of_eq rfl
  | performing activity alarm =>
      rw [resume]
      split
      · exact .of_eq rfl
      · rw [ActivityRun.session_carried]
        exact .of_eq (activity.result_advance session _ [])
  | executing activity alarm lines =>
      rw [resume]
      split
      · exact .of_eq rfl
      · rw [ActivityRun.session_carried]
        exact .of_eq (activity.result_advance session _ lines)

/-! ### Sessions that tell what a run is at -/

section Attends

variable (configuration : Configuration)

/-- What a session tells of a run that has come as far as given. -/
def Session.Attends (session : Session) : Attendance → Prop
  | .loose => session.UnderWay ∧
      (session.result.runStatus = .running ∨ session.result.runStatus = .cancelled)
  | .clear => session.UnderWay ∧ session.result.runStatus = .running ∧
      session.control.interrupted = false
  | .announced results => session.UnderWay ∧ session.result.runStatus = .running ∧
      session.control.interrupted = false ∧ session.result.results = results
  | .opened => session.UnderWay ∧ session.result.runStatus = .waiting ∧
      configuration.Awaits session.result.results
  | .closed => session.control.status.isTerminal ∧ session.result.runStatus.isTerminal

/-- A program that attends to its testers in a session that tells what the program is at. -/
def Program.Attends (session : Session) (program : Program α) : Prop :=
  ∃ attendance : Attendance, session.Attends configuration attendance ∧
    program.Obeys (attending configuration) attendance fun _ reached => reached = .closed

/-- As for programs. While a task rests, its session tells only whether a tester is waited for. -/
def Stage.Attends (session : Session) : Stage ω α → Prop
  | .ready _ => False
  | @Stage.waiting _ _ request _ next => ∃ attendance : Attendance,
      (attendance = .loose ∨ attendance = .opened) ∧ session.Attends configuration attendance ∧
        (attending configuration).allows attendance request ∧
          ∀ answer, (next answer).Obeys (attending configuration)
            (attendance.after request answer) fun _ reached => reached = .closed
  | .done _ => session.Attends configuration .closed

end Attends

variable {configuration : Configuration} {session after : Session} {attendance : Attendance}

namespace Session.Attends

theorem underWay (attends : session.Attends configuration attendance)
    (isFree : attendance.isFree) : session.UnderWay := by
  cases attendance with
  | loose => exact attends.1
  | clear => exact attends.1
  | announced results => exact attends.1
  | opened => exact nomatch isFree
  | closed => exact nomatch isFree

theorem runStatus (attends : session.Attends configuration attendance)
    (isFree : attendance.isFree) :
    session.result.runStatus = .running ∨ session.result.runStatus = .cancelled := by
  cases attendance with
  | loose => exact attends.2
  | clear => exact .inl attends.2.1
  | announced results => exact .inl attends.2.1
  | opened => exact nomatch isFree
  | closed => exact nomatch isFree

/-- Of a run that is not interrupted a session tells that it is running. -/
theorem isRunning (attends : session.Attends configuration attendance)
    (isFree : attendance.isFree) (uninterrupted : session.control.interrupted = false) :
    session.result.runStatus = .running := by
  apply (attends.runStatus isFree).resolve_right
  intro cancelled
  simp [(attends.underWay isFree).cancelled cancelled] at uninterrupted

theorem progress (attends : session.Attends configuration attendance) (isFree : attendance.isFree)
    (stillUnderWay : after.UnderWay) (progresses : session.Progresses after) :
    after.Attends configuration .loose := by
  refine ⟨stillUnderWay, ?_⟩
  rcases progresses with same | cancelled
  · rw [same]
    exact attends.runStatus isFree
  · exact .inr cancelled

end Session.Attends

/-- What a poll keeps of a task and its session; whoever was told that the run is cancelled is still
told so. -/
def Stage.AttendsOn (configuration : Configuration) (was : Prop) (session : Session)
    (stage : Stage ω α) : Prop :=
  stage.Attends configuration session ∧ (was → session.result.runStatus = .cancelled)

def Program.AttendsOn (configuration : Configuration) (was : Prop) (session : Session)
    (program : Program α) : Prop :=
  program.Attends configuration session ∧ (was → session.result.runStatus = .cancelled)

/-! ### Polls -/

section Poll

variable {was : Prop}

/-- A task goes on attending to its testers once it has its answer, or while it waits for it. -/
theorem Carried.keeps_attendsOn {request : Request} {carried : Carried ω request}
    {next : request.Answer → Program α}
    (obeys : ∀ answer, (next answer).Obeys (attending configuration)
      (attendance.after request answer) fun _ reached => reached = .closed)
    (plain : request.isPlain)
    (answered : ∀ answer, carried.outcome = .answered answer →
      carried.session.Attends configuration (attendance.after request answer))
    (waiting : ∀ wait, carried.outcome = .waiting wait →
      carried.session.Attends configuration .loose)
    (lasts : was → carried.session.result.runStatus = .cancelled) :
    carried.Keeps (Stage.AttendsOn configuration was) (Program.AttendsOn configuration was)
      next := by
  rw [Carried.Keeps]
  cases outcome : carried.outcome with
  | answered answer => exact ⟨⟨_, answered answer outcome, obeys answer⟩, lasts⟩
  | waiting wait =>
      -- What a task waits for leaves nothing of what was known of it before.
      have same (answer : request.Answer) :
          Attendance.loose.after request answer = attendance.after request answer := by
        cases wait <;> rfl
      refine ⟨⟨.loose, .inl rfl, waiting wait outcome, ?_, ?_⟩, lasts⟩
      · exact (attending_allows_iff plain).mpr rfl
      · intro answer
        rw [same]
        exact obeys answer

/-- A run that looks for an interruption and finds none is known to be running. -/
theorem carryOut_checkpoint_attends (registry : Registry ω) (world : World ω)
    (attends : session.Attends configuration attendance) (isFree : attendance.isFree)
    (goesOn : Bool) :
    let carried := Request.checkpoint.carryOut registry session world
    carried.outcome = .answered goesOn →
      carried.session.Attends configuration (attendance.after .checkpoint goesOn) := by
  intro carried answered
  have underWay := attends.underWay isFree
  have onward := Request.checkpoint.carryOut_onward registry session world rfl
  have progresses := Request.checkpoint.carryOut_progresses registry session world rfl
  have loose := attends.progress isFree (underWay.onward onward) progresses
  cases interrupted : session.control.interrupted with
  | true =>
      have noticed : session.notice.2 = true := interrupted
      have refused : carried.outcome = .answered false := by
        simp only [carried, Request.carryOut, if_pos noticed]
      obtain rfl : false = goesOn := by simpa [refused] using answered
      exact loose
  | false =>
      have noticed := session.notice_of_not_interrupted interrupted
      cases paused : session.control.paused with
      | true => simp [carried, Request.carryOut, noticed, paused] at answered
      | false =>
          have same : carried = ⟨session, world, .answered true⟩ := by
            simp [carried, Request.carryOut, noticed, paused]
          obtain rfl : true = goesOn := by simpa [same] using answered
          rw [same]
          exact ⟨underWay, attends.isRunning isFree interrupted, interrupted⟩

theorem resume_checkpoint_attends (world : World ω)
    (attends : session.Attends configuration .loose) (goesOn : Bool) :
    let carried := (Wait.checkpoint : Wait ω .checkpoint).resume session world
    carried.outcome = .answered goesOn →
      carried.session.Attends configuration (Attendance.after .loose .checkpoint goesOn) := by
  intro carried answered
  have onward := (Wait.checkpoint : Wait ω .checkpoint).resume_onward session world
  have progresses := (Wait.checkpoint : Wait ω .checkpoint).resume_progresses session world rfl
  have loose := attends.progress rfl (attends.1.onward onward) progresses
  have isAnswer : (!(session.mapControl Control.wake).notice.2) = goesOn := by
    simpa [carried, Wait.resume] using answered
  cases interrupted : (session.mapControl Control.wake).control.interrupted with
  | true =>
      have noticed : (session.mapControl Control.wake).notice.2 = true := interrupted
      rw [noticed] at isAnswer
      subst isAnswer
      exact loose
  | false =>
      have noticed := Session.notice_of_not_interrupted _ interrupted
      rw [noticed] at isAnswer
      subst isAnswer
      have same : carried.session = session.mapControl Control.wake := congrArg Prod.fst noticed
      rw [same] at loose ⊢
      exact ⟨loose.1, loose.isRunning rfl interrupted, interrupted⟩

theorem Session.UnderWay.carryOut (underWay : session.UnderWay) (registry : Registry ω)
    (world : World ω) {request : Request} (plain : request.isPlain) :
    (request.carryOut registry session world).session.UnderWay := by
  have ordinary : request.isOrdinary := by
    cases request <;> first | rfl | exact nomatch plain
  have shown : (session.published request).UnderWay := by
    cases request with
    | publish results => exact underWay.publish results
    | _ => exact underWay
  exact shown.onward (request.carryOut_onward registry session world ordinary)

theorem carryOut_loose (registry : Registry ω) (world : World ω) {request : Request}
    (plain : request.isPlain) (attends : session.Attends configuration attendance)
    (isFree : attendance.isFree) :
    (request.carryOut registry session world).session.Attends configuration .loose :=
  attends.progress isFree ((attends.underWay isFree).carryOut registry world plain)
    (request.carryOut_progresses registry session world plain)

/-- What is known of a run grows with its answers as the protocol says. -/
theorem carryOut_plain_attends (registry : Registry ω) (world : World ω) {request : Request}
    (plain : request.isPlain) (attends : session.Attends configuration attendance)
    (isFree : attendance.isFree) (answer : request.Answer)
    (answered : (request.carryOut registry session world).outcome = .answered answer) :
    (request.carryOut registry session world).session.Attends configuration
      (attendance.after request answer) := by
  have loose := carryOut_loose registry world plain attends isFree
  cases request with
  | openInteraction => exact nomatch plain
  | awaitInteraction => exact nomatch plain
  | beginJob => exact nomatch plain
  | endJob ending => exact nomatch plain
  | checkpoint =>
      exact carryOut_checkpoint_attends registry world attends isFree answer answered
  | now => exact attends
  | publish results =>
      cases attendance with
      | opened => exact nomatch isFree
      | closed => exact nomatch isFree
      | loose => exact loose
      | clear => exact ⟨loose.1, attends.2.1, attends.2.2, rfl⟩
      | announced earlier => exact ⟨loose.1, attends.2.1, attends.2.2.1, rfl⟩
  | _ => exact loose

/-- A run that is known to be running and has shown whom it waits for says that it waits. -/
theorem carryOut_openInteraction_attends (registry : Registry ω) (world : World ω)
    {results : List ElementResult} (awaits : configuration.Awaits results)
    (attends : session.Attends configuration (.announced results)) :
    (Request.openInteraction.carryOut registry session world).session.Attends configuration
      .opened := by
  rcases attends with ⟨underWay, -, -, shows⟩
  have onward := Request.openInteraction.carryOut_onward registry session world rfl
  refine ⟨underWay.onward onward, rfl, ?_⟩
  have shown : configuration.Awaits session.result.results := shows.symm ▸ awaits
  exact shown

/-- Whoever has waited for a tester is not shown as waiting any more. -/
theorem Session.Attends.endInteraction (attends : session.Attends configuration .opened)
    (stillUnderWay : session.endInteraction.1.UnderWay) :
    session.endInteraction.1.Attends configuration .loose := by
  rcases session.runStatus_endInteraction with ⟨notWaiting, same | other⟩
  · exact absurd (same.trans attends.2.1) notWaiting
  · exact ⟨stillUnderWay, other⟩

/-- Who has only gone through its control is still waited for. -/
theorem Session.Attends.withControl (attends : session.Attends configuration .opened)
    {change : Control Hook → Control Hook}
    (onward : ∀ control : Control Hook, control.Onward (change control)) :
    (session.mapControl change).Attends configuration .opened :=
  ⟨attends.1.onward (.mapControl session onward), attends.2⟩

theorem carryOut_endJob_attends (registry : Registry ω) (world : World ω) (ending : Ending)
    (underWay : session.UnderWay) :
    let after := ((Request.endJob ending).carryOut registry session world).session
    after.Attends configuration .closed ∧
      (session.result.runStatus = .cancelled → after.result.runStatus = .cancelled) := by
  rcases session.statusAfter_spec ending with ⟨onward, how⟩
  have stillUnderWay := underWay.onward onward
  have isActive := stillUnderWay.isActive
  have isTerminal : (session.statusAfter ending).2.isTerminal := by
    rcases how with ⟨finished, -, -⟩ | interrupted
    · rw [finished]
      rfl
    · rw [interrupted]
      rfl
  have progresses : session.Progresses (session.statusAfter ending).1 := by
    cases ending with
    | completed => exact .notice session
    | interrupted => exact .of_eq rfl
    | crashed => exact .of_eq rfl
  have runStatus := Session.runStatus_finalize stillUnderWay.notFinalized
    (session.statusAfter ending).2 world.now world.cache
  refine ⟨⟨?_, ?_⟩, ?_⟩
  · change ((session.statusAfter ending).1.finalize _ _ _).1.control.status.isTerminal
    rw [Session.finalize, stillUnderWay.notFinalized]
    simp only [Control.stop?, if_neg (JobStatus.not_isTerminal_of_isActive isActive)]
    exact isTerminal
  · change ((session.statusAfter ending).1.finalize _ _ _).1.result.runStatus.isTerminal
    rw [runStatus]
    split <;> rfl
  · intro cancelled
    change ((session.statusAfter ending).1.finalize _ _ _).1.result.runStatus = _
    rw [runStatus, progresses.cancelled cancelled]
    simp

/-- What is known of a run that has rested grows with its answer as the protocol says. -/
theorem resume_plain_attends (world : World ω) {request : Request} (wait : Wait ω request)
    (plain : request.isPlain) (attends : session.Attends configuration .loose) :
    (wait.resume session world).session.Attends configuration .loose ∧
      ∀ answer, (wait.resume session world).outcome = .answered answer →
        (wait.resume session world).session.Attends configuration
          (Attendance.after .loose request answer) := by
  have loose := attends.progress rfl (attends.1.onward (wait.resume_onward session world))
    (wait.resume_progresses session world plain)
  refine ⟨loose, fun answer answered => ?_⟩
  cases wait with
  | checkpoint => exact resume_checkpoint_attends world attends answer answered
  | _ => exact loose

/-- Polling a task keeps its session telling what the task is at. -/
theorem attending_pollLaw (registry : Registry ω) (configuration : Configuration) (was : Prop) :
    PollLaw registry (fun session (stage : Stage ω α) => stage.AttendsOn configuration was session)
      (Program.AttendsOn configuration was) fun _ _ => True where
  start := fun ⟨never, _⟩ => never.elim
  finish := by
    rintro session value ⟨⟨attendance, attends, isOver⟩, lasts⟩
    obtain rfl : attendance = .closed := isOver
    exact ⟨attends, lasts⟩
  ask := by
    rintro session world request next ⟨⟨attendance, attends, allowed, obeys⟩, lasts⟩
    refine ⟨trivial, ?_⟩
    cases request with
    | beginJob => exact allowed.elim
    | endJob ending =>
        rcases carryOut_endJob_attends registry world ending (attends.underWay allowed) with
          ⟨isOver, stays⟩
        exact ⟨⟨.closed, isOver, obeys _⟩, fun held => stays (lasts held)⟩
    | openInteraction =>
        rcases allowed with ⟨results, rfl, awaits⟩
        have notCancelled : ¬was := fun held => nomatch (lasts held).symm.trans attends.2.1
        exact ⟨⟨.opened, carryOut_openInteraction_attends registry world awaits attends, obeys ()⟩,
          fun held => absurd held notCancelled⟩
    | awaitInteraction =>
        obtain rfl : attendance = .opened := allowed
        have notCancelled : ¬was := fun held => nomatch (lasts held).symm.trans attends.2.1
        have onward := Request.awaitInteraction.carryOut_onward registry session world rfl
        have underWay := attends.1.onward onward
        have parked := attends.withControl .park
        rw [Carried.Keeps]
        simp only [Request.carryOut] at underWay ⊢
        by_cases interrupted : session.control.interrupted
        · rw [if_pos interrupted] at underWay ⊢
          exact ⟨⟨.loose, attends.endInteraction underWay, obeys _⟩,
            fun held => absurd held notCancelled⟩
        · rw [if_neg interrupted] at underWay ⊢
          by_cases canWake : (session.mapControl Control.park).control.canWake
          · rw [if_pos canWake] at underWay ⊢
            exact ⟨⟨.loose, (parked.withControl .wake).endInteraction underWay, obeys _⟩,
              fun held => absurd held notCancelled⟩
          · rw [if_neg canWake]
            exact ⟨⟨.opened, .inr rfl, parked, rfl, obeys⟩, fun held => absurd held notCancelled⟩
    | _ =>
        exact Carried.keeps_attendsOn obeys rfl
          (carryOut_plain_attends registry world rfl attends allowed)
          (fun _ _ => carryOut_loose registry world rfl attends allowed)
          fun held =>
            (Request.carryOut_progresses registry session world rfl).cancelled (lasts held)
  resume := by
    rintro session world request wait next ⟨⟨attendance, isSteady, attends, allowed, obeys⟩, lasts⟩
    have underWay : session.UnderWay := by
      rcases isSteady with rfl | rfl
      · exact attends.1
      · exact attends.1
    have stillUnderWay := underWay.onward (wait.resume_onward session world)
    by_cases plain : request.isPlain
    · obtain rfl : attendance = .loose := by
        rcases isSteady with isLoose | rfl
        · exact isLoose
        · exact absurd ((attending_allows_iff plain).mp allowed) Bool.false_ne_true
      rcases resume_plain_attends world wait plain attends with ⟨loose, answered⟩
      exact Carried.keeps_attendsOn obeys plain answered (fun _ _ => loose)
        fun held => (wait.resume_progresses session world plain).cancelled (lasts held)
    · cases wait with
      | interaction =>
          obtain rfl : attendance = .opened := allowed
          have notCancelled : ¬was := fun held => nomatch (lasts held).symm.trans attends.2.1
          exact ⟨⟨.loose, (attends.withControl .wake).endInteraction stillUnderWay, obeys _⟩,
            fun held => absurd held notCancelled⟩
      | _ => exact absurd rfl plain

end Poll

end TestEngine
