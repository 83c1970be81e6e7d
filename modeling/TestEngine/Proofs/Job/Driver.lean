import TestEngine.Proofs.Job.Listeners
import TestEngine.Proofs.Job.State

/-!
# The driver of a job

Any number of calls may run a job, and clients may pause, resume and interrupt it as they like and
reject it before it is under way. One of the calls executes it and brings it to its end; whoever
listened just before is told then, once, and nothing happens to the job any more. The end is found
in a course as its one step that makes the status terminal.
-/

namespace TestEngine

variable {ω : Type} {setting : Setting} {configuration : Configuration} {context : Context}

/-- Whether the job of a session is not under way, so that it may be rejected in an orderly way. -/
def Session.IsIdle (session : Session) : Prop := ¬session.control.status.isActive

/-! ### Jobs that are not overruled -/

/-- A job that is rejected in an orderly way only is never overruled. -/
theorem orderly_courseLaw (setting : Setting) (configuration : Configuration) (context : Context) :
    Machine.CourseLaw (· = configuration.runJob setting context) Session.IsIdle
      fun trace session (stages : Nat → Option (Stage ω JobStatus)) =>
        ∃ owner, JobState setting configuration context False trace session stages owner := by
  have never : (∃ session : Session, session.IsIdle ∧ session.control.status.isActive) = False :=
    eq_false fun ⟨_, idle, active⟩ => idle active
  simpa only [never] using job_courseLaw setting configuration context Session.IsIdle

section Over

variable {trace : List Asked} {session : Session} {stages : Nat → Option (Stage ω JobStatus)}
  {owner : Option Nat} {call : Nat} {stage : Stage ω JobStatus}

theorem Session.not_isInitialized_of_isTerminal {session : Session}
    (terminal : session.control.status.isTerminal) : session.control.status ≠ .initialized := by
  intro initialized
  simp [initialized, JobStatus.isTerminal] at terminal

theorem Stage.Owns.poll_session (owns : stage.Owns configuration session)
    (terminal : session.control.status.isTerminal) (registry : Registry ω) (world : World ω) :
    (stage.poll registry session world).session = session := by
  have law : RunLaw ω configuration.Walked (fun _ => False) fun _ after => after = session :=
    ⟨fun never => never.elim, fun never => never.elim, fun _ _ _ _ never => never.elim⟩
  have notUnderWay : ¬session.UnderWay := fun underWay =>
    JobStatus.not_isTerminal_of_isActive underWay.isActive terminal
  have runs : stage.Runs configuration (fun _ => False) (fun _ after => after = session) session :=
    owns.transfer rfl notUnderWay fun _ _ => rfl
  rcases (runs.poll law registry world 0).1.during_or_over with never | ⟨status, same⟩
  · exact never.elim
  · exact same

/-- Nothing happens in the session of a job that is over or rejected when its calls are polled. -/
theorem JobState.poll_session
    (state : JobState setting configuration context False trace session stages owner)
    (terminal : session.control.status.isTerminal) (hasStage : stages call = some stage)
    (registry : Registry ω) (world : World ω) :
    (stage.poll registry session world).session = session := by
  by_cases isOwner : owner = some call
  · subst isOwner
    cases state.phase with
    | overruled may => exact may.elim
    | owned hasOwned owns =>
        obtain rfl := Option.some.inj (hasOwned.symm.trans hasStage)
        exact owns.poll_session terminal registry world
  · exact (state.bystanders call stage hasStage isOwner).poll_session
      (Session.not_isInitialized_of_isTerminal terminal) registry world

/-- The end of a job is final: the same listeners have been told the same for good. -/
theorem over_courseLaw (setting : Setting) (configuration : Configuration) (context : Context)
    (status : JobStatus) (told : List String) :
    Machine.CourseLaw (· = configuration.runJob setting context) Session.IsIdle
      fun trace session (stages : Nat → Option (Stage ω JobStatus)) =>
        session.Over status told ∧
          ∃ owner, JobState setting configuration context False trace session stages owner where
  poll := by
    rintro trace session stages ⟨isOver, owner, state⟩ call stage hasStage registry world
    refine ⟨?_, (orderly_courseLaw setting configuration context).poll ⟨owner, state⟩ hasStage
      registry world⟩
    rw [state.poll_session isOver.isTerminal hasStage]
    exact isOver
  spawn := by
    rintro trace session stages ⟨isOver, holds⟩ program isJob call isNew
    exact ⟨isOver, (orderly_courseLaw setting configuration context).spawn holds isJob isNew⟩
  signal := by
    rintro trace session stages ⟨isOver, holds⟩ signal
    have onward := Session.Onward.mapControl session fun control => .act control signal
    refine ⟨isOver.onward onward rfl, ?_⟩
    exact (orderly_courseLaw setting configuration context).signal holds signal
  listen := by
    rintro trace session stages ⟨isOver, holds⟩ listeners
    exact ⟨(session.carries_listeners listeners).isOver status told isOver,
      (orderly_courseLaw setting configuration context).listen holds listeners⟩
  reject := by
    rintro trace session stages ⟨isOver, holds⟩ idle now
    refine ⟨?_, (orderly_courseLaw setting configuration context).reject holds idle now⟩
    rw [session.reject_of_finalized isOver.finalized]
    exact isOver

/-- The poll that makes the status of a job terminal tells those who listened just before. -/
theorem JobState.over_of_poll
    (state : JobState setting configuration context False trace session stages owner)
    (hasStage : stages call = some stage) (ongoing : ¬session.control.status.isTerminal)
    {registry : Registry ω} {world : World ω}
    (ended : (stage.poll registry session world).session.control.status.isTerminal) :
    ∃ status, (stage.poll registry session world).session.Over status session.listeners := by
  let during := fun after : Session => after.UnderWay ∧ after.listeners = session.listeners
  let isOver := fun status (after : Session) => after.Over status session.listeners
  have law : RunLaw ω configuration.Walked during isOver := listened_runLaw configuration _
  have over_of_runs {after : Situation ω JobStatus}
      (runs : after.stage.Runs configuration during isOver after.session)
      (terminal : after.session.control.status.isTerminal) :
      ∃ status, isOver status after.session := by
    rcases runs.during_or_over with ⟨underWay, -⟩ | isOver
    · exact absurd terminal (JobStatus.not_isTerminal_of_isActive underWay.isActive)
    · exact isOver
  by_cases isOwner : owner = some call
  · subst isOwner
    cases state.phase with
    | overruled may => exact may.elim
    | owned hasOwned owns =>
        obtain rfl := Option.some.inj (hasOwned.symm.trans hasStage)
        have runs : Stage.Runs configuration during isOver session _ :=
          owns.transfer rfl (fun underWay => ⟨underWay, rfl⟩) fun status isOver =>
            absurd isOver.choose_spec.isTerminal ongoing
        exact over_of_runs (runs.poll law registry world call).1 ended
  · cases state.bystands isOwner hasStage registry world with
    | begins fresh _ isReady =>
        obtain rfl := isReady
        refine over_of_runs ?_ ended
        exact (fresh.poll_runJob law (fun _ underWay same => ⟨underWay, same⟩) registry world
          call).1
    | isTold polled =>
        rw [polled] at ended
        exact absurd ended ongoing

end Over

/-! ### The end of a course -/

theorem Session.Onward.isTerminal {before after : Session} (onward : before.Onward after)
    (terminal : after.control.status.isTerminal) : before.control.status.isTerminal := by
  rcases onward.control.status with same | ⟨-, stillActive⟩
  · rw [← same]
    exact terminal
  · exact absurd terminal (JobStatus.not_isTerminal_of_isActive stillActive)

theorem Session.reject_status (session : Session) (now : Calendar.Instant) :
    (session.reject now).control.status = session.control.status ∨
      (session.reject now).control.status = .rejected := by
  rw [reject]
  split
  · exact .inl rfl
  · by_cases terminal : session.control.status.isTerminal
    · exact .inl (by simp [Control.stop?, setRunStatus, terminal])
    · exact .inr (by simp [Control.stop?, setRunStatus, terminal])

namespace Machine

variable {place : Nat} {mayReject : Session → Prop} {first last : Machine ω JobStatus}
  {trace : List Asked}

/-- Wherever its orderly courses lead to, a job is in a state and not overruled. -/
theorem Opens.orderly (opens : first.Opens place configuration)
    (course : Course place (· = configuration.runJob setting context) Session.IsIdle first trace
      last) :
    ∃ session, (last.view place).session = some session ∧
      ∃ owner, JobState setting configuration context False trace session
        (last.view place).stages owner := by
  rcases opens.initial False with ⟨session, hasSession, state⟩
  exact (orderly_courseLaw setting configuration context).run [] course hasSession ⟨none, state⟩

theorem Step.isPoll {isJob : Program JobStatus → Prop} {machine next : Machine ω JobStatus}
    {asked : List Asked} (step : Step place isJob mayReject machine asked next)
    {session after : Session} (hasSession : (machine.view place).session = some session)
    (ongoing : ¬session.control.status.isTerminal)
    (hasNext : (next.view place).session = some after) (terminal : after.control.status.isTerminal)
    (notRejected : after.control.status ≠ .rejected) :
    ∃ call stage, (machine.view place).stages call = some stage ∧ asked = machine.asks call ∧
      next = machine.poll call := by
  cases step with
  | poll hasStage => exact ⟨_, _, hasStage, rfl, rfl⟩
  | spawn job =>
      rw [view_spawn, hasSession] at hasNext
      obtain rfl := Option.some.inj hasNext
      exact absurd terminal ongoing
  | signal signal =>
      rw [modifyControl, view_modifySession, hasSession] at hasNext
      have onward := Session.Onward.mapControl session fun control => .act control signal
      obtain rfl := Option.some.inj hasNext
      exact absurd (onward.isTerminal terminal) ongoing
  | listen listener =>
      rw [Machine.listen, view_modifySession, hasSession] at hasNext
      obtain rfl := Option.some.inj hasNext
      exact absurd terminal ongoing
  | forget listener =>
      rw [Machine.forget, view_modifySession, hasSession] at hasNext
      obtain rfl := Option.some.inj hasNext
      exact absurd terminal ongoing
  | reject hasRejected may now =>
      rw [view_modifySession, hasSession] at hasNext
      obtain rfl := Option.some.inj hasNext
      rcases session.reject_status now with same | rejected
      · exact absurd (same ▸ terminal) ongoing
      · exact absurd rejected notRejected
  | elsewhere same =>
      rw [same, hasSession] at hasNext
      obtain rfl := Option.some.inj hasNext
      exact absurd terminal ongoing

/-- A course in which one poll makes the status of the session terminal; the session just before it
is given. -/
inductive Ends (place : Nat) (isJob : Program JobStatus → Prop) (mayReject : Session → Prop)
    (first last : Machine ω JobStatus) (ending : Session) : List Asked → Prop
  | intro {before after : List Asked} {middle : Machine ω JobStatus} {call : Nat}
      {stage : Stage ω JobStatus} {ended : Session}
      (earlier : Course place isJob mayReject first before middle)
      (hasEnding : (middle.view place).session = some ending)
      (ongoing : ¬ending.control.status.isTerminal)
      (hasStage : (middle.view place).stages call = some stage)
      (hasEnded : ((middle.poll call).view place).session = some ended)
      (terminal : ended.control.status.isTerminal)
      (later : Course place isJob mayReject (middle.poll call) after last) :
      Ends place isJob mayReject first last ending (before ++ middle.asks call ++ after)

section Ends

variable {middle : Machine ω JobStatus} {before after : List Asked} {session ongoing : Session}
  {status : JobStatus} {told : List String}

/-- A job that is over was brought to its end by one poll of its course, and those have been told
who listened just before. -/
theorem Opens.exists_ends (opens : first.Opens place configuration)
    (earlier : Course place (· = configuration.runJob setting context) Session.IsIdle first before
      middle)
    (hasOngoing : (middle.view place).session = some ongoing)
    (isOngoing : ¬ongoing.control.status.isTerminal)
    (later : Course place (· = configuration.runJob setting context) Session.IsIdle middle after
      last)
    (hasSession : (last.view place).session = some session) (isOver : session.Over status told) :
    ∃ ending,
      Ends place (· = configuration.runJob setting context) Session.IsIdle middle last ending
          after ∧
        session.Over status ending.listeners := by
  let arrived (machine : Machine ω JobStatus) : Prop :=
    ∃ session, (machine.view place).session = some session ∧ session.control.status.isTerminal
  have notYet : ¬arrived middle := by
    rintro ⟨other, hasOther, terminal⟩
    obtain rfl := Option.some.inj (hasOther.symm.trans hasOngoing)
    exact isOngoing terminal
  -- The status becomes terminal in one step. Since it stays and is not that of a rejection in the
  -- end, the step is a poll.
  rcases later.exists_step notYet ⟨session, hasSession, isOver.isTerminal⟩ with
    ⟨reaching, near, asked, next, final, reaches, notYet, step, ⟨ended, hasEnded, terminal⟩, goesOn,
      rfl⟩
  rcases opens.orderly (earlier.trans reaches) with ⟨ending, hasEnding, owner, state⟩
  have stillOngoing : ¬ending.control.status.isTerminal := fun terminal =>
    notYet ⟨ending, hasEnding, terminal⟩
  have notRejected : ended.control.status ≠ .rejected := by
    rcases (lasting_courseLaw _ _ terminal).run [] goesOn hasEnded rfl with ⟨atLast, hasLast, same⟩
    obtain rfl := Option.some.inj (hasSession.symm.trans hasLast)
    rw [← same, isOver.current]
    rcases isOver.how with ⟨rfl, -⟩ | rfl <;> decide
  rcases step.isPoll hasEnding stillOngoing hasEnded terminal notRejected with
    ⟨call, stage, hasStage, rfl, rfl⟩
  refine ⟨ending, .intro reaches hasEnding stillOngoing hasStage hasEnded terminal goesOn, ?_⟩
  have polled := view_poll hasEnding hasStage
  obtain rfl : (stage.poll near.registry ending near.world).session = ended :=
    Option.some.inj ((congrArg View.session polled).symm.trans hasEnded)
  -- The poll has told those who listened just before, and the end is final.
  rcases state.over_of_poll hasStage stillOngoing terminal with ⟨reached, overThen⟩
  rcases opens.orderly ((earlier.trans reaches).step step) with ⟨_, hasThen, holdsThen⟩
  obtain rfl := Option.some.inj (hasThen.symm.trans hasEnded)
  rcases (over_courseLaw setting configuration context reached _).run _ goesOn hasEnded
    ⟨overThen, holdsThen⟩ with ⟨atLast, hasLast, overAtLast, -⟩
  obtain rfl := Option.some.inj (hasSession.symm.trans hasLast)
  obtain rfl := isOver.current.symm.trans overAtLast.current
  exact overAtLast

/-- Whoever listened before the end of a course listens just before it, unless the listener was
taken away. -/
theorem Ends.keeps_listener {isJob : Program JobStatus → Prop} {ending : Session}
    (ends : Ends place isJob mayReject first last ending trace)
    (hasSession : (first.view place).session = some session) {listener : String}
    (listens : listener ∈ session.listeners) :
    Course.Forgets place isJob mayReject first last listener ∨ listener ∈ ending.listeners := by
  rcases ends with ⟨earlier, hasEnding, ongoing, hasStage, -, -, later⟩
  rcases earlier.keeps_listener hasSession listens with
    ⟨before, forgot, after, reaches, goesOn⟩ | ⟨atEnd, hasAtEnd, terminal | listensOn⟩
  · exact .inl ⟨before, forgot, _, reaches, (goesOn.step (.poll hasStage)).trans later⟩
  · obtain rfl := Option.some.inj (hasAtEnd.symm.trans hasEnding)
    exact absurd terminal ongoing
  · obtain rfl := Option.some.inj (hasAtEnd.symm.trans hasEnding)
    exact .inr listensOn

end Ends

/-! ### What the driver does -/

/-- What holds of a job and the calls that run it, wherever an orderly course leads to. -/
structure Drives (setting : Setting) (configuration : Configuration) (context : Context)
    (place : Nat) (first last : Machine ω JobStatus) (trace : List Asked) (session : Session) :
    Prop where
  /-- At most one call executes the job. -/
  alone {call other : Nat} (executes : Executes trace call) (alsoExecutes : Executes trace other) :
    call = other
  /-- Any other call has not been polled, or it has returned a status that the job had. -/
  others {call : Nat} {stage : Stage ω JobStatus}
    (hasStage : (last.view place).stages call = some stage) (another : ¬Executes trace call) :
    stage.StandsBy setting configuration context session
  /-- The first call that is polled executes the job, unless the job was rejected before. -/
  earliest {call : Nat}
    (ready : (last.view place).stages call = some (.ready (configuration.runJob setting context)))
    (fresh : session.control.status = .initialized) : Executes (trace ++ last.asks call) call
  /-- A call that comes when the job has begun or was rejected returns its status at once, and
  nothing else happens. -/
  late {call : Nat}
    (ready : (last.view place).stages call = some (.ready (configuration.runJob setting context)))
    (started : session.control.status ≠ .initialized) :
    last.asks call = [⟨call, .beginJob, session.control.interrupted⟩] ∧
      (last.poll call).view place = ⟨some session, Function.update (last.view place).stages call
        (some (.done session.control.status))⟩
  /-- The call that executes the job returns the status that the job is over with, and those have
  been told, once each, who listened just before it was over. -/
  returned {call : Nat} {status : JobStatus} (executes : Executes trace call)
    (returned : (last.view place).stages call = some (.done status)) :
    ∃ ending, Ends place (· = configuration.runJob setting context) Session.IsIdle first last
      ending trace ∧ session.Over status ending.listeners
  /-- Whoever listens before the end has been told, unless the listener was taken away. -/
  heard {call : Nat} {status : JobStatus} (executes : Executes trace call)
    (returned : (last.view place).stages call = some (.done status)) {before after : List Asked}
    {middle : Machine ω JobStatus}
    (earlier : Course place (· = configuration.runJob setting context) Session.IsIdle first before
      middle)
    (later : Course place (· = configuration.runJob setting context) Session.IsIdle middle after
      last)
    {listening : Session} (hasListening : (middle.view place).session = some listening)
    (ongoing : ¬listening.control.status.isTerminal) {listener : String}
    (listens : listener ∈ listening.listeners) :
    Course.Forgets place (· = configuration.runJob setting context) Session.IsIdle middle last
        listener ∨
      ⟨listener, status, session.result⟩ ∈ session.notices
  /-- A job that nobody has run yet can be rejected. -/
  reject (fresh : session.control.status = .initialized) (now : Calendar.Instant) :
    (session.reject now).control.status = .rejected
  /-- A rejected job is never executed, and nobody is told of it. -/
  rejected (rejected : session.control.status = .rejected) :
    session.notices = [] ∧ ∀ call, ¬Executes trace call
  /-- A terminal status stays. -/
  lasting (terminal : session.control.status.isTerminal) {more : List Asked}
    {final : Machine ω JobStatus}
    (goesOn : Course place (· = configuration.runJob setting context) Session.IsIdle last more
      final) :
    ∃ after, (final.view place).session = some after ∧
      after.control.status = session.control.status

/-- However clients and capabilities behave, the driver brings a job to one end at most, with one
call, and everybody is told the same. -/
theorem Course.drives (opens : first.Opens place configuration)
    (course : Course place (· = configuration.runJob setting context) Session.IsIdle first trace
      last) :
    ∃ session, (last.view place).session = some session ∧
      Drives setting configuration context place first last trace session := by
  rcases opens.orderly course with ⟨session, hasSession, owner, state⟩
  refine ⟨session, hasSession, ?alone, ?others, ?earliest, ?late, ?returned, ?heard, ?reject,
    ?rejected, ?lasting⟩
  case alone =>
    intro call other executes alsoExecutes
    have isOwner := (state.executed call).mp executes
    exact Option.some.inj (isOwner.symm.trans ((state.executed other).mp alsoExecutes))
  case others =>
    intro call stage hasStage another
    exact state.bystanders call stage hasStage fun isOwner =>
      another ((state.executed call).mpr isOwner)
  case earliest =>
    intro call ready isInitialized
    rw [asks_eq hasSession ready]
    rcases state.phase.fresh_or_hasTold with ⟨fresh, -⟩ | ⟨started, -⟩
    · rcases fresh.poll_runJob (underWay_runLaw configuration) (fun _ underWay _ => underWay)
          last.registry last.world call with ⟨-, executes, -⟩
      exact executes_append.mpr (.inr executes)
    · exact absurd isInitialized started
  case late =>
    intro call ready started
    rw [asks_eq hasSession ready, view_poll hasSession ready]
    rcases poll_runJob_of_started setting configuration context started last.registry last.world
      call with ⟨polled, asked⟩
    simp only [polled, asked, and_self]
  case returned =>
    intro call status executes returned
    rcases opens.session with ⟨listeners, hasOpened⟩
    rcases state.over_of_returned executes returned with ⟨told, isOver⟩ | ⟨never, -⟩
    · exact opens.exists_ends .start hasOpened Bool.false_ne_true course hasSession isOver
    · exact never.elim
  case heard =>
    intro call status executes returned before after middle earlier later listening hasListening
      ongoing listener listens
    rcases state.over_of_returned executes returned with ⟨told, isOver⟩ | ⟨never, -⟩
    · rcases opens.exists_ends earlier hasListening ongoing later hasSession isOver with
        ⟨ending, ends, isOver⟩
      refine (ends.keeps_listener hasListening listens).imp id fun stillListens => ?_
      rw [isOver.notices]
      exact List.mem_map_of_mem stillListens
    · exact never.elim
  case reject =>
    intro isInitialized now
    rcases state.phase.fresh_or_hasTold with ⟨fresh, -⟩ | ⟨started, -⟩
    · have ongoing : ¬session.control.status.isTerminal := by
        simp [isInitialized, JobStatus.isTerminal]
      have rejected := session.reject_rejected fresh.notFinalized fresh.notices fresh.verdict
        ongoing now
      exact rejected.status
    · exact absurd isInitialized started
  case rejected =>
    intro isRejected
    rcases state.phase.refused_of_isRejected isRejected with ⟨rejected, rfl⟩
    exact ⟨rejected.notices, fun call executes => by simpa using (state.executed call).mp executes⟩
  case lasting =>
    intro terminal more final goesOn
    exact (lasting_courseLaw _ _ terminal).run [] goesOn hasSession rfl

/-- Two calls run the small job. -/
theorem sample_drives :
    ∃ trace session,
      (((((sample.spawn 0 .sample).poll 0).spawn 0 .sample).poll 1).view 0).session = some session ∧
        Drives .sample .sample (.ofProperties []) 0 sample
          ((((sample.spawn 0 .sample).poll 0).spawn 0 .sample).poll 1) trace session := by
  have first : Course 0 (· = .sample) Session.IsIdle sample _ ((sample.spawn 0 .sample).poll 0) :=
    .step (.step .start (.spawn rfl)) (.poll rfl)
  have second := first.step (.spawn rfl)
  exact ⟨_, Course.drives sample_opens (second.step (.poll rfl))⟩

end Machine

end TestEngine
