import TestEngine.Proofs.Job.Driver

/-!
# Rejections

A rejection is meant for a job that cannot run, and as long as it comes in an orderly way, a
rejected job has never been run: it has not started, has no results, and no capability was called
for it. But nothing keeps a job from being rejected while it is under way. Such a job is
*overruled*. It has started and goes on running, yet counts as rejected, and nobody is told of its
end. Whether a rejected job was overruled can be seen from its start.
-/

namespace TestEngine

variable {ω α : Type} {setting : Setting} {configuration : Configuration} {context : Context}

/-! ### Starts -/

/-- However a run is stopped, it is over then, and its start is what it was. -/
theorem Control.stopped_spec {η : Type} (control : Control η) {status : JobStatus}
    (isEnd : status.isTerminal) (now : Calendar.Instant) :
    let after := (control.stop? status now).getD control
    after.startedAt = control.startedAt ∧ after.status.isTerminal := by
  by_cases terminal : control.status.isTerminal
  · simp [stop?, terminal]
  · simp [stop?, writePaused, terminal, isEnd]

namespace Session

/-- What anything may make of the start of a run: it stays, and a run is under way only if it was so
before or has just started. -/
structure KeepsStart (before after : Session) : Prop where
  started (started : before.control.startedAt.isSome) : after.control.startedAt.isSome
  isActive (active : after.control.status.isActive) :
    before.control.status.isActive ∨ after.control.startedAt.isSome

namespace KeepsStart

theorem refl (session : Session) : session.KeepsStart session := ⟨id, .inl⟩

theorem trans {first middle last : Session} (before : first.KeepsStart middle)
    (after : middle.KeepsStart last) : first.KeepsStart last where
  started := after.started ∘ before.started
  isActive active := by
    rcases after.isActive active with earlier | started
    · exact (before.isActive earlier).imp id after.started
    · exact .inr started

/-- Whoever ends a run leaves its start as it is. -/
theorem of_isTerminal {before after : Session}
    (sameStart : after.control.startedAt = before.control.startedAt)
    (isOver : after.control.status.isTerminal) : before.KeepsStart after where
  started started := by rwa [sameStart]
  isActive active := absurd isOver (JobStatus.not_isTerminal_of_isActive active)

end KeepsStart

theorem Onward.keepsStart {before after : Session} (onward : before.Onward after) :
    before.KeepsStart after where
  started started := by rwa [onward.control.startedAt]
  isActive active := by
    rcases onward.control.status with same | ⟨earlier, -⟩
    · exact .inl (same ▸ active)
    · exact .inl earlier

theorem reject_startedAt (session : Session) (now : Calendar.Instant) :
    (session.reject now).control.startedAt = session.control.startedAt := by
  rw [reject]
  split
  · rfl
  · have isEnd : JobStatus.rejected.isTerminal := rfl
    exact (session.control.stopped_spec isEnd now).1

theorem reject_keepsStart (session : Session) (now : Calendar.Instant) :
    session.KeepsStart (session.reject now) := by
  rw [reject]
  split
  · exact .refl session
  · have isEnd : JobStatus.rejected.isTerminal := rfl
    have stopped := session.control.stopped_spec isEnd now
    exact .of_isTerminal stopped.1 stopped.2

theorem finalize_keepsStart (session : Session) {status : JobStatus} (isEnd : status.isTerminal)
    (now : Calendar.Instant) (cache : TraceCache) :
    session.KeepsStart (session.finalize status now cache).1 := by
  rw [finalize]
  split
  · exact .refl session
  · have stopped := session.control.stopped_spec isEnd now
    exact .of_isTerminal stopped.1 stopped.2

theorem begin?_startedAt {session begun : Session} {now : Calendar.Instant}
    (begins : session.begin? now = some begun) : begun.control.startedAt = some now := by
  rcases Option.map_eq_some_iff.mp begins with ⟨running, starts, rfl⟩
  rw [Control.start?] at starts
  split at starts
  · obtain rfl := Option.some.inj starts
    rfl
  · cases starts

end Session

theorem Request.carryOut_keepsStart (registry : Registry ω) (session : Session) (world : World ω)
    (request : Request) : session.KeepsStart (request.carryOut registry session world).session := by
  by_cases ordinary : request.isOrdinary
  · have onward := request.carryOut_onward registry session world ordinary
    have published : session.KeepsStart (session.published request) := by
      cases request <;> exact ⟨id, .inl⟩
    exact published.trans onward.keepsStart
  · cases request with
    | beginJob =>
        rw [carryOut]
        split
        · rename_i begun begins
          have started : begun.control.startedAt.isSome := by
            rw [Session.begin?_startedAt begins]
            rfl
          exact ⟨fun _ => started, fun _ => .inr started⟩
        · exact .refl session
    | endJob ending =>
        rcases session.statusAfter_spec ending with ⟨onward, how⟩
        refine onward.keepsStart.trans (Session.finalize_keepsStart _ ?_ _ _)
        rcases how with ⟨finished, -, -⟩ | interrupted
        · simp [finished, JobStatus.isTerminal]
        · simp [interrupted, JobStatus.isTerminal]
    | _ => exact absurd rfl ordinary

/-- What everything keeps that keeps the start of a run, every course keeps. -/
theorem start_courseLaw (isJob : Program α → Prop) (mayReject : Session → Prop)
    {keeps : Session → Prop}
    (along : ∀ {before after : Session}, before.KeepsStart after → keeps before → keeps after) :
    Machine.CourseLaw isJob mayReject
      fun _ session (_ : Nat → Option (Stage ω α)) => keeps session where
  poll := by
    intro trace session stages kept call stage _ registry world
    have law : PollLaw registry (fun session (_ : Stage ω α) => keeps session)
        (fun session _ => keeps session) fun _ _ => True := by
      apply PollLaw.ofSession
      · intro session request kept
        trivial
      · intro session world request kept
        exact along (request.carryOut_keepsStart registry session world) kept
      · intro session world request wait kept
        exact along (wait.resume_onward session world).keepsStart kept
    exact (law.poll call stage world kept).1
  spawn kept _ _ _ _ := kept
  signal := by
    intro trace session stages kept signal
    have onward := Session.Onward.mapControl session fun control => .act control signal
    exact along onward.keepsStart kept
  listen := by
    intro trace session stages kept listeners
    have same : session.KeepsStart { session with listeners } := ⟨id, .inl⟩
    exact along same kept
  reject := by
    intro trace session stages kept may now
    exact along (session.reject_keepsStart now) kept

/-! ### Jobs that have not been run -/

/-- A call that has only tried to begin a job has called no capability for it. -/
theorem not_isCall_of_unexecuted {trace : List Asked} (unexecuted : ∀ call, ¬Executes trace call) :
    ∀ made ∈ trace, ¬made.request.isCall := by
  intro made madeMem
  by_cases begins : made.request = .beginJob
  · simp [begins, Request.isCall]
  · exact absurd ⟨made, madeMem, rfl, begins⟩ (unexecuted made.call)

/-- A session that tells of no run when no call has executed its job. -/
def Session.IsUntouched (session : Session) : Prop :=
  session.control.startedAt = none ∧ session.result.results = []

/-- A call either executes the job that it runs or leaves no mark on it. -/
theorem untouched_courseLaw (setting : Setting) (configuration : Configuration) (context : Context)
    (mayReject : Session → Prop) :
    Machine.CourseLaw (· = configuration.runJob setting context) mayReject
      fun trace session (stages : Nat → Option (Stage ω JobStatus)) =>
        (∃ owner, JobState setting configuration context
          (∃ session, mayReject session ∧ session.control.status.isActive) trace session stages
          owner) ∧
        ((∀ call, ¬Executes trace call) → session.IsUntouched) where
  poll := by
    rintro trace session stages ⟨⟨owner, state⟩, untouched⟩ call stage hasStage registry world
    refine ⟨state.exists_poll hasStage registry world, fun unexecuted => ?_⟩
    have before : ∀ call, ¬Executes trace call := fun other executes =>
      unexecuted other (executes_append.mpr (.inl executes))
    have notOwner : owner ≠ some call := fun isOwner =>
      before call ((state.executed call).mpr isOwner)
    cases state.bystands notOwner hasStage registry world with
    | begins fresh _ isReady =>
        -- The poll that begins the job executes it.
        subst isReady
        have executes : Executes (Stage.asks registry call session world
            (.ready (configuration.runJob setting context))) call :=
          (fresh.poll_runJob (underWay_runLaw configuration) (fun _ underWay _ => underWay)
            registry world call).2.1
        exact absurd (executes_append.mpr (.inr executes)) (unexecuted call)
    | isTold polled =>
        rw [polled]
        exact untouched before
  spawn := by
    rintro trace session stages ⟨holds, untouched⟩ program isJob call isNew
    exact ⟨(job_courseLaw setting configuration context mayReject).spawn holds isJob isNew,
      untouched⟩
  signal := by
    rintro trace session stages ⟨holds, untouched⟩ signal
    refine ⟨(job_courseLaw setting configuration context mayReject).signal holds signal, ?_⟩
    intro unexecuted
    have onward := Session.Onward.mapControl session fun control => .act control signal
    exact ⟨onward.control.startedAt.trans (untouched unexecuted).1, (untouched unexecuted).2⟩
  listen := by
    rintro trace session stages ⟨holds, untouched⟩ listeners
    exact ⟨(job_courseLaw setting configuration context mayReject).listen holds listeners,
      untouched⟩
  reject := by
    rintro trace session stages ⟨holds, untouched⟩ may now
    refine ⟨(job_courseLaw setting configuration context mayReject).reject holds may now, ?_⟩
    intro unexecuted
    exact ⟨(session.reject_startedAt now).trans (untouched unexecuted).1,
      (session.reject_results now).trans (untouched unexecuted).2⟩

/-! ### Jobs that are overruled -/

theorem JobPhase.underWay_of_isActive {mayOverrule : Prop} {session : Session}
    {stages : Nat → Option (Stage ω JobStatus)} {owner : Option Nat}
    (phase : JobPhase configuration mayOverrule session stages owner)
    (active : session.control.status.isActive) : session.UnderWay := by
  cases phase with
  | fresh fresh => simp [fresh.status, JobStatus.isActive] at active
  | refused rejected => simp [rejected.status, JobStatus.isActive] at active
  | overruled may hasStage owns => simp [owns.session.status, JobStatus.isActive] at active
  | owned hasStage owns =>
      rcases owns.session with underWay | ⟨status, told, isOver⟩
      · exact underWay
      · exact absurd active isOver.not_isActive

namespace Machine

variable {place : Nat} {isJob : Program α → Prop} {mayReject : Session → Prop}

/-- A course in which the job is rejected while it is under way. -/
inductive Overrules (place : Nat) (isJob : Program α → Prop) (mayReject : Session → Prop)
    (first last : Machine ω α) : List Asked → Prop
  | intro {before after : List Asked} {middle : Machine ω α} {session : Session}
      (earlier : Course place isJob mayReject first before middle)
      (hasSession : (middle.view place).session = some session) (may : mayReject session)
      (active : session.control.status.isActive) (now : Calendar.Instant)
      (later : Course place isJob mayReject
        (middle.modifySession place fun session => session.reject now) after last) :
      Overrules place isJob mayReject first last (before ++ after)

theorem Overrules.step {first last next : Machine ω α} {trace asked : List Asked}
    (overrules : Overrules place isJob mayReject first last trace)
    (step : Step place isJob mayReject last asked next) :
    Overrules place isJob mayReject first next (trace ++ asked) := by
  cases overrules with
  | intro earlier hasSession may active now later =>
      rw [List.append_assoc]
      exact .intro earlier hasSession may active now (later.step step)

/-- A step is orderly unless it rejects a job that is under way. -/
theorem Step.orderly_or_rejects {machine next : Machine ω α} {asked : List Asked}
    (step : Step place isJob mayReject machine asked next) :
    Step place isJob Session.IsIdle machine asked next ∨
      asked = [] ∧ ∃ session now, (machine.view place).session = some session ∧
        mayReject session ∧ session.control.status.isActive ∧
          next = machine.modifySession place fun session => session.reject now := by
  cases step with
  | poll hasStage => exact .inl (.poll hasStage)
  | spawn job => exact .inl (.spawn job)
  | signal signal => exact .inl (.signal signal)
  | listen listener => exact .inl (.listen listener)
  | forget listener => exact .inl (.forget listener)
  | elsewhere same => exact .inl (.elsewhere same)
  | @reject session hasSession may now =>
      by_cases active : session.control.status.isActive
      · exact .inr ⟨rfl, session, now, hasSession, may, active, rfl⟩
      · exact .inl (.reject hasSession active now)

theorem Course.orderly_or_overrules {first last : Machine ω α} {trace : List Asked}
    (course : Course place isJob mayReject first trace last) :
    Course place isJob Session.IsIdle first trace last ∨
      Overrules place isJob mayReject first last trace := by
  induction course with
  | start => exact .inl .start
  | step course step ih =>
      rcases ih with orderly | overrules
      · rcases step.orderly_or_rejects with
          orderlyStep | ⟨rfl, _, now, hasSession, may, active, rfl⟩
        · exact .inl (orderly.step orderlyStep)
        · exact .inr (.intro course hasSession may active now .start)
      · exact .inr (overrules.step step)

variable {first last : Machine ω JobStatus} {trace : List Asked}

/-- A job that was overruled has started and counts as rejected. -/
theorem Overrules.rejected {session : Session} (opens : first.Opens place configuration)
    (overrules : Overrules place (· = configuration.runJob setting context) mayReject first last
      trace)
    (hasSession : (last.view place).session = some session) :
    session.control.status = .rejected ∧ session.control.startedAt.isSome := by
  cases overrules with
  | @intro before after middle active earlier hasActive may isActive now later =>
    -- A job that is under way has started.
    rcases opens.session with ⟨listeners, hasOpened⟩
    have startsActive : ∀ {before after : Session}, before.KeepsStart after →
        (before.control.status.isActive → before.control.startedAt.isSome) →
        (after.control.status.isActive → after.control.startedAt.isSome) := by
      intro before after keeps told active
      rcases keeps.isActive active with earlier | started
      · exact keeps.started (told earlier)
      · exact started
    rcases (start_courseLaw _ _ startsActive).run [] earlier hasOpened
        (fun active => nomatch active) with ⟨other, hasOther, started⟩
    obtain rfl := Option.some.inj (hasOther.symm.trans hasActive)
    -- The rejection comes in time, and its status stays.
    rcases opens.jobState earlier with ⟨other, hasOther, owner, state⟩
    obtain rfl := Option.some.inj (hasOther.symm.trans hasActive)
    have underWay := state.phase.underWay_of_isActive isActive
    have rejected := other.reject_rejected underWay.notFinalized underWay.notices underWay.verdict
      (JobStatus.not_isTerminal_of_isActive isActive) now
    have hasRejected : ((middle.modifySession place fun session => session.reject now).view
        place).session = some (other.reject now) := by
      rw [view_modifySession, hasActive]
      rfl
    have terminal : JobStatus.rejected.isTerminal := rfl
    rcases (lasting_courseLaw _ _ terminal).run [] later hasRejected rejected.status with
      ⟨final, hasFinal, stillRejected⟩
    obtain rfl := Option.some.inj (hasFinal.symm.trans hasSession)
    rcases (start_courseLaw _ _ Session.KeepsStart.started).run [] later hasRejected
        ((other.reject_keepsStart now).started (started isActive)) with
      ⟨final, hasFinal, stillStarted⟩
    obtain rfl := Option.some.inj (hasFinal.symm.trans hasSession)
    exact ⟨stillRejected, stillStarted⟩

/-- A job that was rejected in an orderly way has never been run. -/
theorem Opens.untouched_of_rejected {session : Session} (opens : first.Opens place configuration)
    (orderly : Course place (· = configuration.runJob setting context) Session.IsIdle first trace
      last)
    (hasSession : (last.view place).session = some session)
    (rejected : session.control.status = .rejected) :
    session.IsUntouched ∧ ∀ call, ¬Executes trace call := by
  rcases opens.orderly orderly with ⟨other, hasOther, owner, state⟩
  obtain rfl := Option.some.inj (hasOther.symm.trans hasSession)
  have unexecuted : ∀ call, ¬Executes trace call := by
    rcases state.phase.refused_of_isRejected rejected with ⟨-, rfl⟩
    intro call executes
    exact nomatch (state.executed call).mp executes
  rcases opens.initial _ with ⟨opened, hasOpened, initial⟩
  have untouched : opened.IsUntouched := by
    rcases opens.session with ⟨listeners, isOpened⟩
    obtain rfl := Option.some.inj (hasOpened.symm.trans isOpened)
    exact ⟨rfl, rfl⟩
  rcases (untouched_courseLaw setting configuration context Session.IsIdle).run [] orderly hasOpened
      ⟨⟨none, initial⟩, fun _ => untouched⟩ with ⟨other, hasOther, -, stillUntouched⟩
  obtain rfl := Option.some.inj (hasOther.symm.trans hasSession)
  exact ⟨stillUntouched unexecuted, unexecuted⟩

/-- The call that executes a job returns the status that the job is over with. -/
theorem Opens.ends_of_returned (opens : first.Opens place configuration)
    (course : Course place (· = configuration.runJob setting context) Session.IsIdle first trace
      last)
    {session : Session} (hasSession : (last.view place).session = some session) {call : Nat}
    {status : JobStatus} (executes : Executes trace call)
    (returned : (last.view place).stages call = some (.done status)) :
    ∃ ending, Ends place (· = configuration.runJob setting context) Session.IsIdle first last
      ending trace ∧ session.Over status ending.listeners := by
  rcases opens.orderly course with ⟨other, hasOther, owner, state⟩
  obtain rfl := Option.some.inj (hasOther.symm.trans hasSession)
  rcases opens.session with ⟨listeners, hasOpened⟩
  rcases state.over_of_returned executes returned with ⟨told, isOver⟩ | ⟨never, -⟩
  · exact opens.exists_ends .start hasOpened Bool.false_ne_true course hasSession isOver
  · exact never.elim

/-! ### What a rejection means -/

/-- What a rejection means for a job and for the calls that run it, wherever a course leads to. -/
structure Rejects (setting : Setting) (configuration : Configuration) (context : Context)
    (place : Nat) (mayReject : Session → Prop) (first last : Machine ω JobStatus)
    (trace : List Asked) (session : Session) : Prop where
  /-- A rejected job has never been run, unless it was overruled. -/
  neverRun (rejected : session.control.status = .rejected)
    (notOverruled : ¬Overrules place (· = configuration.runJob setting context) mayReject first last
      trace) :
    session.control.startedAt = none ∧ session.result.results = [] ∧
      (∀ made ∈ trace, ¬made.request.isCall) ∧ ∀ call, ¬Executes trace call
  /-- The call that executes a job returns its status, and those have been told, once each, who
  listened just before the end, unless the job was overruled. -/
  returned {call : Nat} {status : JobStatus} (executes : Executes trace call)
    (returned : (last.view place).stages call = some (.done status))
    (notOverruled : ¬Overrules place (· = configuration.runJob setting context) mayReject first last
      trace) :
    ∃ ending, Ends place (· = configuration.runJob setting context) Session.IsIdle first last
      ending trace ∧ session.Over status ending.listeners
  /-- Those jobs are overruled that are rejected although they have started. -/
  overruled : Overrules place (· = configuration.runJob setting context) mayReject first last
    trace ↔ session.control.status = .rejected ∧ session.control.startedAt.isSome
  /-- Nobody is told of a rejected job, and it has no verdict. -/
  unheard (rejected : session.control.status = .rejected) :
    session.notices = [] ∧ session.result.verdict = none

/-- However clients reject a job, and whenever they do, the job has never been run, or it was
overruled. -/
theorem Course.rejects (opens : first.Opens place configuration)
    (course : Course place (· = configuration.runJob setting context) mayReject first trace last) :
    ∃ session, (last.view place).session = some session ∧
      Rejects setting configuration context place mayReject first last trace session := by
  rcases opens.jobState course with ⟨session, hasSession, owner, state⟩
  refine ⟨session, hasSession, ?neverRun, ?returned, ?overruled, ?unheard⟩
  case neverRun =>
    intro rejected notOverruled
    have orderly := course.orderly_or_overrules.resolve_right notOverruled
    rcases opens.untouched_of_rejected orderly hasSession rejected with ⟨untouched, unexecuted⟩
    exact ⟨untouched.1, untouched.2, not_isCall_of_unexecuted unexecuted, unexecuted⟩
  case returned =>
    intro call status executes returned notOverruled
    have orderly := course.orderly_or_overrules.resolve_right notOverruled
    exact opens.ends_of_returned orderly hasSession executes returned
  case overruled =>
    constructor
    · intro overrules
      exact overrules.rejected opens hasSession
    · rintro ⟨rejected, started⟩
      apply course.orderly_or_overrules.resolve_left
      intro orderly
      have untouched := (opens.untouched_of_rejected orderly hasSession rejected).1
      simp [untouched.1] at started
  case unheard =>
    intro rejected
    rcases state.phase.over_of_isTerminal (by simp [rejected, JobStatus.isTerminal]) with
      ⟨told, isOver⟩ | isRejected
    · rcases isOver.how with ⟨finished, -⟩ | interrupted
      · cases rejected.symm.trans finished
      · cases rejected.symm.trans interrupted
    · exact ⟨isRejected.notices, isRejected.verdict⟩

/-- A call that comes after the rejection of the small job leaves it as it is. If the job is
rejected while it is paused, it is overruled. -/
theorem sample_rejects :
    (∃ trace last session, Course 0 (· = .sample) (fun _ => True) sample trace last ∧
      (last.view 0).session = some session ∧ session.control.status = .rejected ∧
        (last.view 0).stages 0 = some (.done .rejected) ∧
          Rejects .sample .sample (.ofProperties []) 0 (fun _ => True) sample last trace
            session) ∧
    ∃ trace last session, Course 0 (· = .sample) (fun _ => True) sample trace last ∧
      (last.view 0).session = some session ∧ (last.view 0).stages 0 = some (.done .finished) ∧
        Overrules 0 (· = .sample) (fun _ => True) sample last trace ∧
          Rejects .sample .sample (.ofProperties []) 0 (fun _ => True) sample last trace
            session := by
  let reject (machine : Machine Unit JobStatus) : Machine Unit JobStatus :=
    machine.modifySession 0 fun session => session.reject (.ofEpochMillis 0)
  constructor
  · have course : Course 0 (· = .sample) (fun _ => True) sample _
        (((reject sample).spawn 0 .sample).poll 0) :=
      .step (.step (.step .start (.reject rfl trivial (.ofEpochMillis 0))) (.spawn rfl)) (.poll rfl)
    have returned : ((((reject sample).spawn 0 .sample).poll 0).view 0).stages 0 =
        some (.done .rejected) := view_stages_eq_done.mpr (by decide +kernel)
    rcases Course.rejects sample_opens course with ⟨session, hasSession, rejects⟩
    obtain rfl := Option.some.inj hasSession
    exact ⟨_, _, _, course, hasSession, by decide +kernel, returned, rejects⟩
  · let ready := (sample.modifyControl 0 Signal.pause.act).spawn 0 Program.sample
    have started : Course 0 (· = .sample) (fun _ => True) sample _ (ready.poll 0) :=
      .step (.step (.step .start (.signal .pause)) (.spawn rfl)) (.poll rfl)
    have course : Course 0 (· = .sample) (fun _ => True) sample _
        ((reject (ready.poll 0)).poll 0) :=
      (started.step (.reject rfl trivial (.ofEpochMillis 0))).step (.poll rfl)
    have returned : (((reject (ready.poll 0)).poll 0).view 0).stages 0 = some (.done .finished) :=
      view_stages_eq_done.mpr (by decide +kernel)
    rcases Course.rejects sample_opens course with ⟨session, hasSession, rejects⟩
    obtain rfl := Option.some.inj hasSession
    have overruled := rejects.overruled.mpr ⟨by decide +kernel, by decide +kernel⟩
    exact ⟨_, _, _, course, hasSession, returned, overruled, rejects⟩

/-- The small job has started, has results and counts as rejected if it is rejected while it is
paused. Its call returns that it is finished, and its client is not told. -/
theorem sample_rejected_has_run :
    ∃ trace last session, Course 0 (· = .sample) (fun _ => True) sample trace last ∧
      (last.view 0).session = some session ∧ session.control.status = .rejected ∧
        session.control.startedAt.isSome ∧ session.result.results.length = 2 ∧
          (last.view 0).stages 0 = some (.done .finished) ∧
            session.listeners = ["client"] ∧ session.notices.length = 0 := by
  let ready := (sample.modifyControl 0 Signal.pause.act).spawn 0 Program.sample
  let rejected := (ready.poll 0).modifySession 0 fun session => session.reject (.ofEpochMillis 0)
  have started : Course 0 (· = .sample) (fun _ => True) sample _ (ready.poll 0) :=
    .step (.step (.step .start (.signal .pause)) (.spawn rfl)) (.poll rfl)
  have overruled : Course 0 (· = .sample) (fun _ => True) sample _ (rejected.poll 0) :=
    (started.step (.reject rfl trivial (.ofEpochMillis 0))).step (.poll rfl)
  have returned : ((rejected.poll 0).view 0).stages 0 = some (.done .finished) :=
    view_stages_eq_done.mpr (by decide +kernel)
  exact ⟨_, _, _, overruled, rfl, by decide +kernel, by decide +kernel, by decide +kernel, returned,
    by decide +kernel, by decide +kernel⟩

end Machine

end TestEngine
