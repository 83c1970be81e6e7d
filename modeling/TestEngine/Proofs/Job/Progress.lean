import TestEngine.Proofs.Job.Driver
import TestEngine.Proofs.Job.Growth
import TestEngine.Proofs.Machine.Attendance

/-!
# The progress of a job as its clients see it

A run is shown as waiting exactly while its execution waits for the tester of a manual leaf element.
Until it ends it is shown as running otherwise, unless it was cancelled, and what is shown of a run
that was cancelled or has finished is final: no element that comes later, no client and not the end
of the job changes it.
-/

namespace TestEngine

variable {ω α : Type} {setting : Setting} {configuration : Configuration} {context : Context}

/-- Whether a task waits for what a tester delivers. -/
def Stage.awaitsTester : Stage ω α → Bool
  | .waiting .interaction _ => true
  | _ => false

/-- What a session tells of a run, depending on whether its execution waits for a tester. -/
inductive Session.Tells (configuration : Configuration) (session : Session) : Bool → Prop
  | waits (underWay : session.UnderWay) (isWaiting : session.result.runStatus = .waiting)
      (awaits : configuration.Awaits session.result.results) : session.Tells configuration true
  | goesOn (underWay : session.UnderWay)
      (runStatus : session.result.runStatus = .running ∨ session.result.runStatus = .cancelled) :
      session.Tells configuration false
  | isOver (status : session.control.status.isTerminal)
      (runStatus : session.result.runStatus.isTerminal) : session.Tells configuration false

namespace Session.Tells

variable {session : Session} {awaits : Bool}

/-- Unless a run is over, it is shown as running, as waiting, or as cancelled because it was. -/
theorem runStatus (tells : session.Tells configuration awaits)
    (ongoing : ¬session.control.status.isTerminal) :
    session.result.runStatus = .running ∨ session.result.runStatus = .waiting ∨
      session.result.runStatus = .cancelled ∧ session.control.interrupted := by
  cases tells with
  | waits _ isWaiting => exact .inr (.inl isWaiting)
  | goesOn underWay runStatus =>
      exact runStatus.imp id fun cancelled => .inr ⟨cancelled, underWay.cancelled cancelled⟩
  | isOver isTerminal => exact absurd isTerminal ongoing

theorem waiting_iff (tells : session.Tells configuration awaits) :
    session.result.runStatus = .waiting ↔ awaits := by
  cases tells with
  | waits _ isWaiting => exact iff_of_true isWaiting rfl
  | goesOn _ runStatus => rcases runStatus with status | status <;> simp [status]
  | isOver _ isTerminal =>
      refine iff_of_false (fun isWaiting => ?_) Bool.false_ne_true
      exact absurd isTerminal (by simp [isWaiting, RunStatus.isTerminal])

end Session.Tells

/-! ### Tasks that attend to their testers -/

theorem Session.runStatus_begin {session begun : Session} {now : Calendar.Instant}
    (begins : session.begin? now = some begun) : begun.result.runStatus = .running := by
  rcases Option.map_eq_some_iff.mp begins with ⟨control, -, rfl⟩
  rfl

/-- The call that begins a job attends to the testers of its configuration. -/
theorem Session.Fresh.poll_attends {session : Session} (fresh : session.Fresh)
    (setting : Setting) (configuration : Configuration) (context : Context)
    (registry : Registry ω) (world : World ω) :
    let stage : Stage ω JobStatus := .ready (configuration.runJob setting context)
    let after := stage.poll registry session world
    after.stage.Attends configuration after.session := by
  rcases fresh.begin world.now with ⟨begun, begins, underWay, -, -⟩
  have attends : Program.AttendsOn configuration False begun
      (configuration.run setting context >>= fun ran => Program.request (.endJob ran.ending)) :=
    ⟨⟨.loose, ⟨underWay, .inl (Session.runStatus_begin begins)⟩,
      configuration.finishJob_attends setting context⟩, False.elim⟩
  have polled := (attending_pollLaw registry configuration False).advance 0 _ world attends
  simp only [Stage.poll, Configuration.runJob_eq, Program.advance, Request.carryOut, begins]
  exact polled.1.1

namespace Stage.Attends

variable {session after : Session} {stage : Stage ω α}

/-- A change of the session that keeps it under way, or over, and leaves the result alone is nothing
to a task that rests. -/
theorem transfer (attends : stage.Attends configuration session)
    (sameResult : after.result = session.result) (underWay : session.UnderWay → after.UnderWay)
    (terminal : session.control.status.isTerminal → after.control.status.isTerminal) :
    stage.Attends configuration after := by
  have keeps {attendance : Attendance}
      (isRest : attendance = .loose ∨ attendance = .opened ∨ attendance = .closed)
      (attends : session.Attends configuration attendance) :
      after.Attends configuration attendance := by
    rcases isRest with rfl | rfl | rfl
    · exact ⟨underWay attends.1, sameResult ▸ attends.2⟩
    · exact ⟨underWay attends.1, sameResult ▸ attends.2⟩
    · exact ⟨terminal attends.1, sameResult ▸ attends.2⟩
  cases stage with
  | ready program => exact attends
  | done value => exact keeps (.inr (.inr rfl)) attends
  | waiting wait next =>
      rcases attends with ⟨attendance, isRest, attends, goesOn⟩
      exact ⟨attendance, isRest, keeps (isRest.imp id .inl) attends, goesOn⟩

theorem tells (attends : stage.Attends configuration session) :
    session.Tells configuration stage.awaitsTester := by
  cases stage with
  | ready program => exact attends.elim
  | done value => exact .isOver attends.1 attends.2
  | waiting wait next =>
      rcases attends with ⟨attendance, rfl | rfl, attends, allowed, -⟩
      · cases wait with
        | interaction => exact nomatch allowed
        | _ => exact .goesOn attends.1 attends.2
      · cases wait with
        | interaction => exact .waits attends.1 attends.2.1 attends.2.2
        | _ => exact nomatch (attending_allows_iff rfl).mp allowed

/-- Polling a task that attends to its tester leaves it so, and what was cancelled is so still. -/
theorem poll (attends : stage.Attends configuration session) (registry : Registry ω)
    (world : World ω) :
    let after := stage.poll registry session world
    after.stage.Attends configuration after.session ∧
      (session.result.runStatus = .cancelled → after.session.result.runStatus = .cancelled) :=
  ((attending_pollLaw registry configuration _).poll 0 stage world ⟨attends, id⟩).1

end Stage.Attends

/-! ### Courses -/

section Courses

variable {trace : List Asked} {session after : Session} {stages : Nat → Option (Stage ω JobStatus)}
  {owner : Option Nat} {call : Nat} {stage : Stage ω JobStatus}

/-- The call that executes a job attends to its testers. Before there is one, nobody has touched the
progress that is shown, unless the job was rejected. -/
structure Attended (configuration : Configuration) (trace : List Asked) (session : Session)
    (stages : Nat → Option (Stage ω JobStatus)) : Prop where
  executed : ∀ call stage, Executes trace call → stages call = some stage →
    stage.Attends configuration session
  unexecuted : (∀ call, ¬Executes trace call) →
    session.control.status = .initialized ∧ session.result.runStatus = .running ∨
      session.control.status = .rejected ∧ session.result.runStatus = .cancelled

/-- What one call has come to makes a job attended if no other one executes it. -/
theorem Attended.of_executes (executes : Executes trace call)
    (alone : ∀ other, Executes trace other → other = call)
    (attends : stage.Attends configuration session) :
    Attended configuration trace session (Function.update stages call (some stage)) where
  executed := by
    intro other otherStage otherExecutes hasOther
    obtain rfl := alone other otherExecutes
    rw [Function.update_self] at hasOther
    obtain rfl := Option.some.inj hasOther
    exact attends
  unexecuted nobody := absurd executes (nobody call)

section Poll

variable
  (state : JobState setting configuration context False trace session stages owner)

include state

theorem JobState.executes_alone (isOwner : owner = some call ∨ owner = none)
    (registry : Registry ω) (world : World ω) (stage : Stage ω JobStatus) (other : Nat)
    (executes : Executes (trace ++ stage.asks registry call session world) other) :
    other = call := by
  by_contra otherNe
  have executed := (executes_append.mp executes).resolve_right (not_executes_asks otherNe)
  have isOther := (state.executed other).mp executed
  rcases isOwner with rfl | rfl
  · exact otherNe (Option.some.inj isOther).symm
  · exact nomatch isOther

/-- Nothing that is shown as final of a run changes when its execution goes on. -/
theorem JobState.runStatus_poll (attends : stage.Attends configuration session)
    (hasStage : stages call = some stage) (registry : Registry ω) (world : World ω)
    (isFinal : session.result.runStatus.isTerminal) :
    (stage.poll registry session world).session.result.runStatus = session.result.runStatus := by
  by_cases terminal : session.control.status.isTerminal
  · rw [state.poll_session terminal hasStage]
  · rcases attends.tells.runStatus terminal with running | isWaiting | ⟨cancelled, -⟩
    · simp [running, RunStatus.isTerminal] at isFinal
    · simp [isWaiting, RunStatus.isTerminal] at isFinal
    · rw [cancelled]
      exact (attends.poll registry world).2 cancelled

theorem Attended.poll (attended : Attended configuration trace session stages)
    (hasStage : stages call = some stage) (registry : Registry ω) (world : World ω) :
    let after := stage.poll registry session world
    Attended configuration (trace ++ stage.asks registry call session world) after.session
        (Function.update stages call (some after.stage)) ∧
      (session.result.runStatus.isTerminal →
        after.session.result.runStatus = session.result.runStatus) := by
  by_cases isOwner : owner = some call
  · have executes := (state.executed call).mpr isOwner
    have attends := attended.executed call stage executes hasStage
    refine ⟨.of_executes (executes_append.mpr (.inl executes)) ?_ (attends.poll registry world).1,
      state.runStatus_poll attends hasStage registry world⟩
    exact state.executes_alone (.inl isOwner) registry world stage
  · cases state.bystands isOwner hasStage registry world with
    | begins fresh unowned isReady =>
        obtain rfl := isReady
        have begins : Executes ((Stage.ready (configuration.runJob setting context)).asks registry
            call session world) call :=
          (fresh.poll_runJob (underWay_runLaw configuration) (fun _ underWay _ => underWay) registry
            world call).2.1
        refine ⟨.of_executes (executes_append.mpr (.inr begins))
          (state.executes_alone (.inr unowned) registry world _)
          (fresh.poll_attends setting configuration context registry world), fun isFinal => ?_⟩
        have nobody (other : Nat) : ¬Executes trace other := by
          rw [state.executed, unowned]
          exact nofun
        rcases attended.unexecuted nobody with ⟨-, running⟩ | ⟨rejected, -⟩
        · simp [running, RunStatus.isTerminal] at isFinal
        · exact nomatch rejected.symm.trans fresh.status
    | isTold polled asked told =>
        rw [polled]
        refine ⟨⟨fun other otherStage executes hasOther => ?_, fun nobody => ?_⟩, fun _ => rfl⟩
        · have executed := executes.of_begins asked
          have otherNe : other ≠ call := by
            rintro rfl
            exact isOwner ((state.executed other).mp executed)
          rw [Function.update_of_ne otherNe] at hasOther
          exact attended.executed other otherStage executed hasOther
        · exact attended.unexecuted fun other executes =>
            nobody other (executes_append.mpr (.inl executes))

/-- A job may be rejected before anybody runs it. Later that changes nothing. -/
theorem Attended.reject (attended : Attended configuration trace session stages)
    (idle : session.IsIdle) (now : Calendar.Instant) :
    Attended configuration trace (session.reject now) stages ∧
      (session.result.runStatus.isTerminal →
        (session.reject now).result.runStatus = session.result.runStatus) := by
  cases state.phase with
  | overruled never => exact never.elim
  | refused rejected =>
      rw [session.reject_of_finalized rejected.finalized]
      exact ⟨attended, fun _ => rfl⟩
  | owned hasStage owns =>
      rcases owns.session with underWay | ⟨status, told, isOver⟩
      · exact absurd underWay.isActive idle
      · rw [session.reject_of_finalized isOver.finalized]
        exact ⟨attended, fun _ => rfl⟩
  | fresh fresh =>
      have nobody (call : Nat) : ¬Executes trace call := by
        rw [state.executed]
        exact nofun
      have ongoing : ¬session.control.status.isTerminal := by
        simp [fresh.status, JobStatus.isTerminal]
      have rejected := session.reject_rejected fresh.notFinalized fresh.notices fresh.verdict
        ongoing now
      have cancelled : (session.reject now).result.runStatus = .cancelled := by
        rw [Session.reject, fresh.notFinalized]
        rfl
      refine ⟨⟨fun call _ executes => absurd executes (nobody call), fun _ =>
        .inr ⟨rejected.status, cancelled⟩⟩, fun isFinal => ?_⟩
      rcases attended.unexecuted nobody with ⟨-, running⟩ | ⟨rejected, -⟩
      · simp [running, RunStatus.isTerminal] at isFinal
      · simp [fresh.status] at rejected

end Poll

theorem Attended.spawn (attended : Attended configuration trace session stages)
    (state : JobState setting configuration context False trace session stages owner)
    (isNew : stages call = none) (program : Program JobStatus) :
    Attended configuration trace session
      (Function.update stages call (some (.ready program))) where
  executed := by
    intro other stage executes hasStage
    have otherNe : other ≠ call := by
      rintro rfl
      exact state.phase.stages_ne_none ((state.executed other).mp executes) isNew
    rw [Function.update_of_ne otherNe] at hasStage
    exact attended.executed other stage executes hasStage
  unexecuted := attended.unexecuted

/-- Whatever is progress for the session and leaves the result alone keeps a job attended. -/
theorem Attended.transfer (attended : Attended configuration trace session stages)
    (sameResult : after.result = session.result) (underWay : session.UnderWay → after.UnderWay)
    (status : ¬session.control.status.isActive →
      after.control.status = session.control.status) :
    Attended configuration trace after stages where
  executed := by
    intro call stage executes hasStage
    apply (attended.executed call stage executes hasStage).transfer sameResult underWay
    intro isTerminal
    rw [status fun isActive => JobStatus.not_isTerminal_of_isActive isActive isTerminal]
    exact isTerminal
  unexecuted := by
    intro nobody
    rw [sameResult]
    rcases attended.unexecuted nobody with ⟨initialized, running⟩ | ⟨rejected, cancelled⟩
    · rw [status (by simp [initialized, JobStatus.isActive])]
      exact .inl ⟨initialized, running⟩
    · rw [status (by simp [rejected, JobStatus.isActive])]
      exact .inr ⟨rejected, cancelled⟩

/-- Courses keep a job attended, and what was shown as final is shown for good. -/
theorem attended_courseLaw (setting : Setting) (configuration : Configuration) (context : Context)
    (was : RunStatus) :
    Machine.CourseLaw (· = configuration.runJob setting context) Session.IsIdle
      fun trace session (stages : Nat → Option (Stage ω JobStatus)) =>
        (∃ owner, JobState setting configuration context False trace session stages owner) ∧
          Attended configuration trace session stages ∧
            (was.isTerminal → session.result.runStatus = was) where
  poll := by
    rintro trace session stages ⟨⟨owner, state⟩, attended, lasts⟩ call stage hasStage registry world
    rcases attended.poll state hasStage registry world with ⟨stillAttended, stays⟩
    refine ⟨(orderly_courseLaw setting configuration context).poll ⟨owner, state⟩ hasStage registry
      world, stillAttended, fun isFinal => ?_⟩
    have same := lasts isFinal
    exact (stays (same ▸ isFinal)).trans same
  spawn := by
    rintro trace session stages ⟨⟨owner, state⟩, attended, lasts⟩ program isJob call isNew
    exact ⟨(orderly_courseLaw setting configuration context).spawn ⟨owner, state⟩ isJob isNew,
      attended.spawn state isNew program, lasts⟩
  signal := by
    rintro trace session stages ⟨holds, attended, lasts⟩ signal
    have onward := Session.Onward.mapControl session fun control => .act control signal
    exact ⟨(orderly_courseLaw setting configuration context).signal holds signal,
      attended.transfer rfl (·.onward onward) onward.control.status_of_not_isActive, lasts⟩
  listen := by
    rintro trace session stages ⟨holds, attended, lasts⟩ listeners
    exact ⟨(orderly_courseLaw setting configuration context).listen holds listeners,
      attended.transfer rfl (session.carries_listeners listeners).underWay fun _ => rfl, lasts⟩
  reject := by
    rintro trace session stages ⟨⟨owner, state⟩, attended, lasts⟩ idle now
    rcases attended.reject state idle now with ⟨stillAttended, stays⟩
    refine ⟨(orderly_courseLaw setting configuration context).reject ⟨owner, state⟩ idle now,
      stillAttended, fun isFinal => ?_⟩
    have same := lasts isFinal
    exact (stays (same ▸ isFinal)).trans same

end Courses

/-! ### What is shown -/

/-- How what is shown of a job agrees with what has come of it. -/
structure ShowsProgress (configuration : Configuration) (trace : List Asked) (session : Session)
    (stages : Nat → Option (Stage ω JobStatus)) : Prop where
  waiting : session.result.runStatus = .waiting ↔
    ∃ call stage, Executes trace call ∧ stages call = some stage ∧ stage.awaitsTester
  awaits : session.result.runStatus = .waiting → configuration.Awaits session.result.results
  ongoing : ¬session.control.status.isTerminal →
    session.result.runStatus = .running ∨ session.result.runStatus = .waiting ∨
      session.result.runStatus = .cancelled ∧ session.control.interrupted
  finished : session.result.runStatus = .finished ↔ ∃ told, session.Over .finished told

section Shows

variable {trace : List Asked} {session : Session} {stages : Nat → Option (Stage ω JobStatus)}
  {owner : Option Nat}

/-- What is shown of a job that has been run at all. -/
theorem Session.Tells.showsProgress {call : Nat} {stage : Stage ω JobStatus}
    (tells : session.Tells configuration stage.awaitsTester)
    (state : JobState setting configuration context False trace session stages (some call))
    (hasStage : stages call = some stage) :
    ShowsProgress configuration trace session stages where
  waiting := by
    rw [tells.waiting_iff]
    constructor
    · exact fun awaits => ⟨call, stage, (state.executed call).mpr rfl, hasStage, awaits⟩
    · rintro ⟨other, otherStage, executes, hasOther, awaits⟩
      obtain rfl := Option.some.inj ((state.executed other).mp executes)
      obtain rfl := Option.some.inj (hasStage.symm.trans hasOther)
      exact awaits
  awaits isWaiting := by
    have awaited := tells.waiting_iff.mp isWaiting
    generalize stage.awaitsTester = awaits at tells awaited
    cases tells with
    | waits _ _ awaits => exact awaits
    | goesOn => exact absurd awaited Bool.false_ne_true
    | isOver => exact absurd awaited Bool.false_ne_true
  ongoing := tells.runStatus
  finished := by
    constructor
    · intro isFinished
      have terminal : session.control.status.isTerminal := by
        by_contra ongoing
        rcases tells.runStatus ongoing with other | other | ⟨other, -⟩
        all_goals exact nomatch isFinished.symm.trans other
      rcases state.phase.over_of_isTerminal terminal with ⟨told, isOver⟩ | rejected
      · rcases isOver.how with ⟨finished, -⟩ | interrupted
        · exact ⟨told, finished ▸ isOver⟩
        · exact nomatch isFinished.symm.trans (isOver.result.interrupted interrupted).1
      · exact nomatch (state.phase.refused_of_isRejected rejected.status).2
    · rintro ⟨told, isOver⟩
      exact (isOver.result.finished rfl).1

/-- What is shown of a job that nobody has run. -/
theorem ShowsProgress.of_unexecuted
    (shown : session.control.status = .initialized ∧ session.result.runStatus = .running ∨
      session.control.status = .rejected ∧ session.result.runStatus = .cancelled)
    (nobody : ∀ call, ¬Executes trace call) :
    ShowsProgress configuration trace session stages where
  waiting := iff_of_false (fun isWaiting => by simp [isWaiting] at shown)
    fun ⟨call, _, executes, _⟩ => nobody call executes
  awaits isWaiting := by simp [isWaiting] at shown
  ongoing ongoing := by
    rcases shown with ⟨-, running⟩ | ⟨rejected, -⟩
    · exact .inl running
    · exact absurd (by rw [rejected]; rfl) ongoing
  finished := by
    refine iff_of_false (fun isFinished => by simp [isFinished] at shown) ?_
    rintro ⟨told, isOver⟩
    simp [isOver.current] at shown

theorem Attended.showsProgress (attended : Attended configuration trace session stages)
    (state : JobState setting configuration context False trace session stages owner) :
    ShowsProgress configuration trace session stages := by
  cases owner with
  | none =>
      have nobody (call : Nat) : ¬Executes trace call := by
        rw [state.executed]
        exact nofun
      exact .of_unexecuted (attended.unexecuted nobody) nobody
  | some call =>
      rcases Option.ne_none_iff_exists'.mp (state.phase.stages_ne_none rfl) with ⟨stage, hasStage⟩
      have executes := (state.executed call).mpr rfl
      exact (attended.executed call stage executes hasStage).tells.showsProgress state hasStage

end Shows

namespace Machine

variable {place : Nat} {first middle last : Machine ω JobStatus} {before after : List Asked}

theorem Opens.attended (opens : first.Opens place configuration) (context : Context)
    (setting : Setting)
    (course : Course place (· = configuration.runJob setting context) Session.IsIdle first before
      middle) :
    ∃ session, (middle.view place).session = some session ∧
      (∃ owner, JobState setting configuration context False before session
        (middle.view place).stages owner) ∧
        Attended configuration before session (middle.view place).stages := by
  rcases opens.initial False with ⟨session, hasSession, state⟩
  rcases opens.session with ⟨listeners, hasFirst⟩
  obtain rfl := Option.some.inj (hasFirst.symm.trans hasSession)
  have attended : Attended configuration [] (configuration.jobSession listeners)
      (first.view place).stages := by
    refine ⟨fun call stage executes => ?_, fun _ => .inl ⟨rfl, rfl⟩⟩
    rcases executes with ⟨made, madeMem, -⟩
    exact absurd madeMem List.not_mem_nil
  rcases (attended_courseLaw setting configuration context .running).run [] course hasSession
    ⟨⟨none, state⟩, attended, fun isFinal => absurd isFinal Bool.false_ne_true⟩ with
    ⟨session, hasSession, holds, attended, -⟩
  exact ⟨session, hasSession, holds, attended⟩

/-- A job is shown as waiting exactly while its execution waits for the tester of a manual leaf
element, otherwise as running until it ends, unless it was cancelled, and as finished only once it
has been brought to its end that way. What is shown as cancelled or finished is final. -/
theorem Course.progress_shown (opens : first.Opens place configuration)
    (earlier : Course place (· = configuration.runJob setting context) Session.IsIdle first before
      middle)
    (later : Course place (· = configuration.runJob setting context) Session.IsIdle middle after
      last) :
    ∃ session reached, (middle.view place).session = some session ∧
      (last.view place).session = some reached ∧
        ShowsProgress configuration before session (middle.view place).stages ∧
          (session.result.runStatus.isTerminal →
            reached.result.runStatus = session.result.runStatus) := by
  rcases opens.attended context setting earlier with
    ⟨session, hasSession, ⟨owner, state⟩, attended⟩
  rcases (attended_courseLaw setting configuration context session.result.runStatus).run before
    later hasSession ⟨⟨owner, state⟩, attended, fun _ => rfl⟩ with
    ⟨reached, hasReached, -, -, lasts⟩
  exact ⟨session, reached, hasSession, hasReached, attended.showsProgress state, lasts⟩

/-- The tester of the attended job is waited for until the job is interrupted. -/
theorem attended_progress_shown :
    ∃ (trace : List Asked) (middle last : Machine Unit JobStatus) (session reached : Session),
      (middle.view 0).session = some session ∧ (last.view 0).session = some reached ∧
        ShowsProgress Configuration.attended trace session (middle.view 0).stages ∧
          session.result.runStatus = .waiting ∧ reached.result.runStatus = .cancelled := by
  let first : Machine Unit JobStatus :=
    ((Machine.initial .empty (.initial 0 .empty ())).openSession
      (Configuration.attended.jobSession ["client"])).1
  let program := Configuration.attended.runJob .sample (.ofProperties [])
  let middle := (first.spawn 0 program).poll 0
  let last := (middle.modifyControl 0 Control.interrupt).poll 0
  have opens : first.Opens 0 Configuration.attended :=
    openSession_opens _ _ _ (by simp [Machine.initial])
  have earlier : Course 0 (· = program) Session.IsIdle first _ middle :=
    .step (.step .start (.spawn rfl)) (.poll rfl)
  have waits : ((middle.view 0).stages 0).isSome := by decide +kernel
  rcases Option.isSome_iff_exists.mp waits with ⟨stage, hasStage⟩
  have later : Course 0 (· = program) Session.IsIdle middle _ last :=
    .step (.step .start (.signal .interrupt)) (.poll hasStage)
  rcases Course.progress_shown opens earlier later with
    ⟨session, reached, hasSession, hasReached, shows, -⟩
  have isWaiting : (middle.view 0).session.map (·.result.runStatus) = some .waiting := by
    decide +kernel
  have isCancelled : (last.view 0).session.map (·.result.runStatus) = some .cancelled := by
    decide +kernel
  rw [hasSession] at isWaiting
  rw [hasReached] at isCancelled
  exact ⟨_, middle, last, session, reached, hasSession, hasReached, shows,
    Option.some.inj isWaiting, Option.some.inj isCancelled⟩

end Machine

end TestEngine
