import TestEngine.Proofs.Job.Driver
import TestEngine.Proofs.Pause.Parked

/-!
# Suspended jobs

A job is shown as paused only while its execution is parked. A parked execution is shown so until
somebody lifts the pause. From then on the job counts as running, also if it is paused again before
the execution has noticed that it might go on.
-/

namespace TestEngine

variable {ω : Type} {setting : Setting} {configuration : Configuration} {context : Context}

/-! ### Executions -/

section Executions

variable {trace : List Asked} {session : Session} {stages : Nat → Option (Stage ω JobStatus)}
  {owner : Option Nat} {call : Nat} {stage : Stage ω JobStatus}

theorem JobState.isActive_of_isParked
    (state : JobState setting configuration context False trace session stages owner)
    (executes : Executes trace call) (hasStage : stages call = some stage)
    (isParked : stage.isParked) : session.control.status.isActive := by
  obtain rfl := (state.executed call).mp executes
  cases state.phase with
  | overruled never => exact never.elim
  | owned hasOwned owns =>
      obtain rfl := Option.some.inj (hasStage.symm.trans hasOwned)
      rcases owns with ⟨standing, -, obeys, matched⟩
      cases stage with
      | ready program => exact absurd isParked Bool.false_ne_true
      | done status => exact absurd isParked Bool.false_ne_true
      | waiting wait next => exact (matched.underWay obeys.1).2.isActive

theorem JobState.session_of_not_executes
    (state : JobState setting configuration context False trace session stages owner)
    (hasStage : stages call = some stage) {registry : Registry ω} {world : World ω}
    (bystands : ¬Executes (trace ++ stage.asks registry call session world) call) :
    (stage.poll registry session world).session = session := by
  rw [executes_append, not_or, state.executed] at bystands
  cases state.bystands bystands.1 hasStage registry world with
  | isTold polled => exact congrArg Situation.session polled
  | begins fresh _ isReady =>
      obtain rfl := isReady
      refine absurd ?_ bystands.2
      exact (fresh.poll_runJob (underWay_runLaw configuration) (fun _ underWay _ => underWay)
        registry world call).2.1

end Executions

namespace Machine

section Suspends

variable (place : Nat) (isJob : Program JobStatus → Prop) (mayReject : Session → Prop)
  (first : Machine ω JobStatus)

/-- A course in which somebody has lifted the pause of a call that has not gone on since. A stage
holds the rest of the program, so a call that has gone on is at another one. -/
inductive Lifted (call : Nat) (stage : Stage ω JobStatus) :
    List Asked → Machine ω JobStatus → Prop
  | intro {before after : List Asked} {middle last : Machine ω JobStatus} {signal : Signal}
      (earlier : Course place isJob mayReject first before middle)
      (hasStage : (middle.view place).stages call = some stage) (lifts : signal.lifts)
      (later : Course place isJob mayReject (middle.modifyControl place signal.act) after last) :
      Lifted call stage (before ++ after) last

/-- How the status of a job and the execution of the job agree. -/
structure Suspends (trace : List Asked) (last : Machine ω JobStatus) (session : Session) :
    Prop where
  shown : session.control.status = .paused → ∃ call stage, Executes trace call ∧
    (last.view place).stages call = some stage ∧ stage.isParked
  parked {call : Nat} {stage : Stage ω JobStatus} (executes : Executes trace call)
    (hasStage : (last.view place).stages call = some stage) (isParked : stage.isParked) :
    session.control.status = .paused ∨
      session.control.status = .running ∧ Lifted place isJob mayReject first call stage trace last

end Suspends

variable {place : Nat} {isJob : Program JobStatus → Prop} {mayReject : Session → Prop}
  {first last next : Machine ω JobStatus} {trace asked : List Asked} {session after : Session}

theorem Lifted.step {call : Nat} {stage : Stage ω JobStatus}
    (lifted : Lifted place isJob mayReject first call stage trace last)
    (step : Step place isJob mayReject last asked next) :
    Lifted place isJob mayReject first call stage (trace ++ asked) next := by
  cases lifted with
  | intro earlier hasStage lifts later =>
      rw [List.append_assoc]
      exact .intro earlier hasStage lifts (later.step step)

/-- A step that changes neither the status nor the execution keeps them in agreement. -/
theorem Suspends.carry (suspends : Suspends place isJob mayReject first trace last session)
    (step : Step place isJob mayReject last asked next)
    (sameStatus : after.control.status = session.control.status)
    (sameCalls : ∀ call, Executes (trace ++ asked) call → Executes trace call ∧
      (next.view place).stages call = (last.view place).stages call) :
    Suspends place isJob mayReject first (trace ++ asked) next after where
  shown isPaused := by
    rcases suspends.shown (sameStatus.symm.trans isPaused) with
      ⟨call, stage, executes, hasStage, isParked⟩
    have stillExecutes : Executes (trace ++ asked) call := executes_append.mpr (.inl executes)
    exact ⟨call, stage, stillExecutes, (sameCalls call stillExecutes).2.trans hasStage, isParked⟩
  parked executes hasStage isParked := by
    rcases sameCalls _ executes with ⟨executed, sameStage⟩
    rw [sameStatus]
    refine (suspends.parked executed (sameStage ▸ hasStage) isParked).imp id ?_
    rintro ⟨isRunning, lifted⟩
    exact ⟨isRunning, lifted.step step⟩

/-- A step in which nobody asks for anything and all tasks stay where they are keeps the status in
agreement with the execution unless it changes the status. -/
theorem Suspends.carry_quiet (suspends : Suspends place isJob mayReject first trace last session)
    (step : Step place isJob mayReject last [] next)
    (sameStatus : after.control.status = session.control.status)
    (sameStages : (next.view place).stages = (last.view place).stages) :
    Suspends place isJob mayReject first (trace ++ []) next after := by
  refine suspends.carry step sameStatus fun call executes => ?_
  rw [List.append_nil] at executes
  exact ⟨executes, congrFun sameStages call⟩

section Steps

variable {owner nextOwner : Option Nat}

theorem Suspends.poll
    (suspends : Suspends place isJob mayReject first trace last session)
    (state : JobState setting configuration context False trace session (last.view place).stages
      owner)
    (hasSession : (last.view place).session = some session) {call : Nat} {stage : Stage ω JobStatus}
    (hasStage : (last.view place).stages call = some stage)
    (hasNext : ((last.poll call).view place).session = some after)
    (nextState : JobState setting configuration context False (trace ++ last.asks call) after
      ((last.poll call).view place).stages nextOwner) :
    Suspends place isJob mayReject first (trace ++ last.asks call) (last.poll call) after := by
  have step : Step place isJob mayReject last (last.asks call) (last.poll call) := .poll hasStage
  have isView := view_poll hasSession hasStage
  have isAsked := asks_eq hasSession hasStage
  have isNext : (stage.poll last.registry session last.world).session = after := by
    rw [isView] at hasNext
    exact Option.some.inj hasNext
  have isStage : ((last.poll call).view place).stages call =
      some (stage.poll last.registry session last.world).stage := by
    rw [isView]
    exact Function.update_self ..
  have otherStage {other : Nat} (otherNe : other ≠ call) :
      ((last.poll call).view place).stages other = (last.view place).stages other := by
    rw [isView]
    exact Function.update_of_ne otherNe ..
  -- Only the call that executes the job can touch the status, and it is the only one whose parking
  -- counts. It may come to execute the job in this very poll.
  by_cases executes : Executes (trace ++ last.asks call) call
  · have isOwner := (nextState.executed call).mp executes
    have onlyCall {other : Nat} (otherExecutes : Executes (trace ++ last.asks call) other) :
        other = call :=
      Option.some.inj (((nextState.executed other).mp otherExecutes).symm.trans isOwner)
    have shown : session.control.status = .paused → stage.isParked := by
      intro isPaused
      rcases suspends.shown isPaused with ⟨other, parked, otherExecutes, hasParked, isParked⟩
      obtain rfl := onlyCall (executes_append.mpr (.inl otherExecutes))
      obtain rfl := Option.some.inj (hasStage.symm.trans hasParked)
      exact isParked
    rcases stage.poll_parks last.registry call last.world shown with ⟨same, noAsks⟩ | parks
    · refine suspends.carry step ?_ fun other otherExecutes => ?_
      · rw [← isNext, same]
      · obtain rfl := onlyCall otherExecutes
        rw [isAsked, noAsks, List.append_nil] at otherExecutes
        rw [isStage, same, hasStage]
        exact ⟨otherExecutes, rfl⟩
    · rw [isNext] at parks
      refine ⟨fun isPaused => ⟨call, _, executes, isStage, parks.shown isPaused⟩, ?_⟩
      intro other otherStage otherExecutes hasOther isParked
      have active := nextState.isActive_of_isParked otherExecutes hasOther isParked
      obtain rfl := onlyCall otherExecutes
      obtain rfl := Option.some.inj (isStage.symm.trans hasOther)
      -- A job that is under way is shown as running or as paused. The poll rules out the former.
      refine .inl ?_
      have notRunning := parks.parked isParked
      cases status : after.control.status <;> simp_all [JobStatus.isActive]
  · refine suspends.carry step ?_ fun other otherExecutes => ?_
    · rw [isAsked] at executes
      rw [← isNext, state.session_of_not_executes hasStage executes]
    · have otherNe : other ≠ call := by
        rintro rfl
        exact executes otherExecutes
      rw [isAsked, executes_append] at otherExecutes
      exact ⟨otherExecutes.resolve_right (not_executes_asks otherNe), otherStage otherNe⟩

theorem Suspends.signal
    (suspends : Suspends place isJob mayReject first trace last session)
    (course : Course place isJob mayReject first trace last) (signal : Signal)
    (nextState : JobState setting configuration context False (trace ++ [])
      (session.mapControl signal.act) ((last.modifyControl place signal.act).view place).stages
      nextOwner) :
    Suspends place isJob mayReject first (trace ++ []) (last.modifyControl place signal.act)
      (session.mapControl signal.act) := by
  have sameStages : ((last.modifyControl place signal.act).view place).stages =
      (last.view place).stages := by
    rw [modifyControl, view_modifySession]
  by_cases lifts : signal.lifts
  · have notPaused := session.status_of_lifts lifts
    refine ⟨fun isPaused => absurd isPaused notPaused, fun executes hasStage isParked => ?_⟩
    have active := nextState.isActive_of_isParked executes hasStage isParked
    rw [sameStages] at hasStage
    refine .inr ⟨?_, .intro course hasStage lifts .start⟩
    cases status : (session.mapControl signal.act).control.status <;>
      simp_all [JobStatus.isActive]
  · exact suspends.carry_quiet (.signal signal) (Session.status_of_not_lifts lifts) sameStages

theorem Suspends.spawn
    (suspends : Suspends place isJob mayReject first trace last session)
    (state : JobState setting configuration context False trace session (last.view place).stages
      owner) {program : Program JobStatus} (job : isJob program) :
    Suspends place isJob mayReject first (trace ++ []) (last.spawn place program) session := by
  refine suspends.carry (.spawn job) rfl fun call executes => ?_
  rw [List.append_nil] at executes
  have isNew : (last.view place).stages last.tasks.length = none := by simp [view]
  have callNe : call ≠ last.tasks.length := by
    rintro rfl
    exact state.phase.stages_ne_none ((state.executed _).mp executes) isNew
  refine ⟨executes, ?_⟩
  rw [view_spawn]
  exact Function.update_of_ne callNe ..

theorem Suspends.reject
    (suspends : Suspends place isJob mayReject first trace last session)
    (hasSession : (last.view place).session = some session) (may : mayReject session)
    (now : Calendar.Instant)
    (nextState : JobState setting configuration context False (trace ++ []) (session.reject now)
      ((last.modifySession place fun session => session.reject now).view place).stages nextOwner) :
    Suspends place isJob mayReject first (trace ++ [])
      (last.modifySession place fun session => session.reject now) (session.reject now) := by
  rcases session.reject_status now with same | rejected
  · exact suspends.carry_quiet (.reject hasSession may now) same (by rw [view_modifySession])
  · refine ⟨fun isPaused => (nomatch rejected.symm.trans isPaused), ?_⟩
    intro call stage executes hasStage isParked
    have active := nextState.isActive_of_isParked executes hasStage isParked
    rw [rejected] at active
    exact absurd active Bool.false_ne_true

end Steps

/-- A job is shown as paused only while its execution is parked, and a parked execution is shown so
unless the pause was lifted and the execution has not gone on since. -/
theorem Course.suspends (opens : first.Opens place configuration)
    (course : Course place (· = configuration.runJob setting context) Session.IsIdle first trace
      last) :
    ∃ session, (last.view place).session = some session ∧
      Suspends place (· = configuration.runJob setting context) Session.IsIdle first trace last
        session := by
  induction course with
  | start =>
      rcases opens.session with ⟨listeners, hasSession⟩
      refine ⟨_, hasSession, fun isPaused => (nomatch isPaused), ?_⟩
      rintro call stage ⟨made, madeMem, -⟩
      exact absurd madeMem List.not_mem_nil
  | @step last next trace asked course step ih =>
      rcases ih with ⟨session, hasSession, suspends⟩
      rcases opens.orderly course with ⟨other, hasOther, owner, state⟩
      obtain rfl := Option.some.inj (hasSession.symm.trans hasOther)
      rcases opens.orderly (course.step step) with ⟨after, hasAfter, nextOwner, nextState⟩
      refine ⟨after, hasAfter, ?_⟩
      cases step with
      | poll hasStage => exact suspends.poll state hasSession hasStage hasAfter nextState
      | spawn job =>
          rw [view_spawn] at hasAfter
          obtain rfl := Option.some.inj (hasSession.symm.trans hasAfter)
          exact suspends.spawn state job
      | signal signal =>
          rw [modifyControl, view_modifySession, hasSession] at hasAfter
          obtain rfl := Option.some.inj hasAfter
          exact suspends.signal course signal nextState
      | listen listener =>
          rw [Machine.listen, view_modifySession, hasSession] at hasAfter
          obtain rfl := Option.some.inj hasAfter
          exact suspends.carry_quiet (.listen listener) rfl
            (by rw [Machine.listen, view_modifySession])
      | forget listener =>
          rw [Machine.forget, view_modifySession, hasSession] at hasAfter
          obtain rfl := Option.some.inj hasAfter
          exact suspends.carry_quiet (.forget listener) rfl
            (by rw [Machine.forget, view_modifySession])
      | reject hasRejected may now =>
          obtain rfl := Option.some.inj (hasSession.symm.trans hasRejected)
          rw [view_modifySession, hasSession] at hasAfter
          obtain rfl := Option.some.inj hasAfter
          exact suspends.reject hasSession may now nextState
      | elsewhere same =>
          rw [same, hasSession] at hasAfter
          obtain rfl := Option.some.inj hasAfter
          exact suspends.carry_quiet (.elsewhere same) rfl (by rw [same])

/-- The small job, which was paused before anybody ran it. -/
def parkedSample : Machine Unit JobStatus :=
  ((sample.modifyControl 0 Control.pause).spawn 0 .sample).poll 0

theorem sample_parks :
    ∃ trace, Course 0 (· = .sample) Session.IsIdle sample trace parkedSample ∧
      Executes trace 0 := by
  let paused := (sample.modifyControl 0 Control.pause).spawn 0 .sample
  have course : Course 0 (· = .sample) Session.IsIdle sample ([] ++ [] ++ [] ++ paused.asks 0)
      parkedSample :=
    .step (.step (.step .start (.signal .pause)) (.spawn rfl)) (.poll rfl)
  have asked : (paused.asks 0).any fun made => made.call = 0 ∧ made.request.isOrdinary := by
    decide +kernel
  rcases List.any_eq_true.mp asked with ⟨made, madeMem, holds⟩
  rcases of_decide_eq_true holds with ⟨isCall, ordinary⟩
  refine ⟨_, course, made, List.mem_append_right _ madeMem, isCall, fun begins => ?_⟩
  rw [begins] at ordinary
  exact absurd ordinary Bool.false_ne_true

/-- The small job is shown as paused once its execution is parked. -/
theorem sample_suspends :
    ∃ trace session, (parkedSample.view 0).session = some session ∧
      session.control.status = .paused ∧
        Suspends 0 (· = .sample) Session.IsIdle sample trace parkedSample session := by
  rcases sample_parks with ⟨trace, course, -⟩
  rcases Course.suspends sample_opens course with ⟨session, hasSession, suspends⟩
  have isPaused : (parkedSample.view 0).session.map (·.control.status) = some .paused := by
    decide +kernel
  rw [hasSession] at isPaused
  exact ⟨trace, session, hasSession, Option.some.inj isPaused, suspends⟩

/-- The small job is resumed and paused again before its parked execution has noticed. It has to
wait on, and is shown as running. -/
theorem sample_repaused_shows_running :
    ∃ trace last session stage, Course 0 (· = .sample) Session.IsIdle sample trace last ∧
      (last.view 0).session = some session ∧ Executes trace 0 ∧
        (last.view 0).stages 0 = some stage ∧ stage.isParked ∧ session.control.paused ∧
          session.control.interrupted = false ∧ session.control.status = .running := by
  rcases sample_parks with ⟨trace, course, executes⟩
  let repaused := (parkedSample.modifyControl 0 Control.resume).modifyControl 0 Control.pause
  have reaches : Course 0 (· = .sample) Session.IsIdle sample (trace ++ [] ++ []) repaused :=
    .step (.step course (.signal .resume)) (.signal .pause)
  exact ⟨_, repaused, _, _, reaches, rfl, by simpa using executes, rfl, by decide +kernel⟩

end Machine

end TestEngine
