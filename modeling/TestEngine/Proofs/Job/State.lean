import TestEngine.Proofs.Job.Phase
import TestEngine.Proofs.Machine.Course

/-!
# The courses of a job

The invariant of a job's courses: the job is in some phase, every call that does not own it has
either not been polled or was told a status that the job had, and nobody but the owner asks for
anything but the beginning of the job. It holds from the opening of the job on, whatever comes to
pass.
-/

namespace TestEngine

open Calendar

variable {ω : Type}

section State

variable (setting : Setting) (configuration : Configuration) (context : Context)

/-- The invariant of the courses of a job. -/
structure JobState (mayOverrule : Prop) (trace : List Asked) (session : Session)
    (stages : Nat → Option (Stage ω JobStatus)) (owner : Option Nat) : Prop where
  phase : JobPhase configuration mayOverrule session stages owner
  bystanders : ∀ call stage, stages call = some stage → owner ≠ some call →
    stage.StandsBy setting configuration context session
  executed : ∀ call, Executes trace call ↔ owner = some call
  calm : ∀ made ∈ trace, made.interrupted → ¬made.request.isCall

end State

variable {setting : Setting} {configuration : Configuration} {context : Context}

/-! ### Steps -/

section Steps

variable {mayOverrule : Prop} {trace : List Asked} {session after : Session}
  {stages : Nat → Option (Stage ω JobStatus)} {owner : Option Nat}

/-- A change of the session changes the state of its job with the phase. -/
theorem JobState.withPhase
    (state : JobState setting configuration context mayOverrule trace session stages owner)
    (phase : JobPhase configuration mayOverrule after stages owner)
    (stays : session.StaysAt after) :
    JobState setting configuration context mayOverrule trace after stages owner where
  phase := phase
  bystanders call stage hasStage notOwner := by
    rcases state.bystanders call stage hasStage notOwner with ready | ⟨status, done, told⟩
    · exact .inl ready
    · exact .inr ⟨status, done, told.staysAt stays⟩
  executed := state.executed
  calm := state.calm

theorem JobState.spawn
    (state : JobState setting configuration context mayOverrule trace session stages owner)
    {call : Nat} (isNew : stages call = none) :
    JobState setting configuration context mayOverrule trace session
      (Function.update stages call (some (.ready (configuration.runJob setting context))))
      owner where
  phase := state.phase.update (fun isOwner => state.phase.stages_ne_none isOwner isNew) _
  bystanders other stage hasStage notOwner := by
    rcases eq_or_ne other call with rfl | otherNe
    · rw [Function.update_self] at hasStage
      exact .inl (Option.some.inj hasStage).symm
    · rw [Function.update_of_ne otherNe] at hasStage
      exact state.bystanders other stage hasStage notOwner
  executed := state.executed
  calm := state.calm

/-- The state of a job once a call was polled, given what has become of the call. -/
theorem JobState.poll
    (state : JobState setting configuration context mayOverrule trace session stages owner)
    {call : Nat} {stage : Stage ω JobStatus} {registry : Registry ω} {world : World ω}
    {nextOwner : Option Nat}
    (phase : JobPhase configuration mayOverrule (stage.poll registry session world).session
      (Function.update stages call (some (stage.poll registry session world).stage)) nextOwner)
    (sameOwner : nextOwner = owner ∨ owner = none ∧ nextOwner = some call)
    (polled : nextOwner ≠ some call → (stage.poll registry session world).stage.StandsBy setting
      configuration context (stage.poll registry session world).session)
    (executed : Executes (trace ++ stage.asks registry call session world) call ↔
      nextOwner = some call)
    (calm : ∀ made ∈ stage.asks registry call session world, made.interrupted →
      ¬made.request.isCall) :
    JobState setting configuration context mayOverrule
      (trace ++ stage.asks registry call session world) (stage.poll registry session world).session
      (Function.update stages call (some (stage.poll registry session world).stage)) nextOwner where
  phase := phase
  bystanders other otherStage hasStage notOwner := by
    rcases eq_or_ne other call with rfl | otherNe
    · rw [Function.update_self] at hasStage
      exact Option.some.inj hasStage ▸ polled notOwner
    · rw [Function.update_of_ne otherNe] at hasStage
      have notOwned : owner ≠ some other := by
        rcases sameOwner with rfl | ⟨rfl, -⟩
        · exact notOwner
        · exact nofun
      rcases state.bystanders other otherStage hasStage notOwned with ready | ⟨status, done, told⟩
      · exact .inl ready
      · exact .inr ⟨status, done, told.poll stage registry world⟩
  executed := by
    intro other
    rcases eq_or_ne other call with rfl | otherNe
    · exact executed
    · rw [executes_append, or_iff_left (not_executes_asks otherNe), state.executed]
      rcases sameOwner with rfl | ⟨rfl, rfl⟩
      · exact Iff.rfl
      · simp [otherNe.symm]
  calm := by
    intro made madeMem
    rcases List.mem_append.mp madeMem with earlier | now
    · exact state.calm made earlier
    · exact calm made now

/-- What polling a call does that does not own the job: a call that nobody has polled begins a fresh
job, and any other one only has the status told. -/
inductive Bystands (setting : Setting) (configuration : Configuration) (context : Context)
    (session : Session) (owner : Option Nat) (call : Nat) (stage : Stage ω JobStatus)
    (registry : Registry ω) (world : World ω) : Prop
  | begins (fresh : session.Fresh) (unowned : owner = none)
      (isReady : stage = .ready (configuration.runJob setting context))
  | isTold {status : JobStatus}
      (polled : stage.poll registry session world = ⟨session, world, .done status⟩)
      (asked : ∀ made ∈ stage.asks registry call session world, made.request = .beginJob)
      (told : session.HasTold status)

theorem JobState.bystands
    (state : JobState setting configuration context mayOverrule trace session stages owner)
    {call : Nat} (notOwner : owner ≠ some call) {stage : Stage ω JobStatus}
    (hasStage : stages call = some stage) (registry : Registry ω) (world : World ω) :
    Bystands setting configuration context session owner call stage registry world := by
  rcases state.bystanders call stage hasStage notOwner with rfl | ⟨status, rfl, told⟩
  · rcases state.phase.fresh_or_hasTold with ⟨fresh, unowned⟩ | ⟨started, told⟩
    · exact .begins fresh unowned rfl
    · rcases poll_runJob_of_started setting configuration context started registry world call with
        ⟨polled, asked⟩
      exact .isTold polled (by simp [asked]) told
  · exact .isTold rfl (by simp [Stage.asks]) told

/-- Polling a call that does not own the job tells it a status, if it does not know one. -/
theorem JobState.poll_bystander
    (state : JobState setting configuration context mayOverrule trace session stages owner)
    {call : Nat} (notOwner : owner ≠ some call) {stage : Stage ω JobStatus}
    {registry : Registry ω} {world : World ω} {status : JobStatus}
    (polled : stage.poll registry session world = ⟨session, world, .done status⟩)
    (asked : ∀ made ∈ stage.asks registry call session world, made.request = .beginJob)
    (told : session.HasTold status) :
    JobState setting configuration context mayOverrule
      (trace ++ stage.asks registry call session world) (stage.poll registry session world).session
      (Function.update stages call (some (stage.poll registry session world).stage)) owner := by
  refine state.poll ?_ (.inl rfl) (fun _ => ?_) ?_ fun made madeMem _ => ?_
  · rw [polled]
    exact state.phase.update notOwner _
  · rw [polled]
    exact .inr ⟨status, rfl, told⟩
  · rw [executes_append, state.executed, or_iff_left]
    rintro ⟨made, madeMem, -, executes⟩
    exact executes (asked made madeMem)
  · rw [asked made madeMem]
    exact Bool.false_ne_true

/-- Polling a call of a job leaves the job in a state, which the call may own from now on. -/
theorem JobState.exists_poll
    (state : JobState setting configuration context mayOverrule trace session stages owner)
    {call : Nat} {stage : Stage ω JobStatus} (hasStage : stages call = some stage)
    (registry : Registry ω) (world : World ω) :
    ∃ owner, JobState setting configuration context mayOverrule
      (trace ++ stage.asks registry call session world) (stage.poll registry session world).session
      (Function.update stages call (some (stage.poll registry session world).stage)) owner := by
  by_cases isOwner : owner = some call
  · subst isOwner
    have isStage {other : Stage ω JobStatus} (hasOther : stages call = some other) :
        other = stage := Option.some.inj (hasOther.symm.trans hasStage)
    have executed : Executes (trace ++ stage.asks registry call session world) call ↔
        some call = some call :=
      iff_of_true (executes_append.mpr (.inl ((state.executed call).mpr rfl))) rfl
    cases state.phase with
    | owned hasOwned owns =>
        obtain rfl := isStage hasOwned
        rcases Stage.Runs.poll owns (underWay_runLaw configuration) registry world call with
          ⟨stillOwns, calm⟩
        exact ⟨some call, state.poll (.owned (Function.update_self ..) stillOwns) (.inl rfl)
          (absurd rfl) executed calm⟩
    | overruled may hasOwned owns =>
        obtain rfl := isStage hasOwned
        rcases Stage.Runs.poll owns (rejected_runLaw configuration) registry world call with
          ⟨stillOwns, calm⟩
        exact ⟨some call, state.poll (.overruled may (Function.update_self ..) stillOwns) (.inl rfl)
          (absurd rfl) executed calm⟩
  · cases state.bystands isOwner hasStage registry world with
    | begins fresh unowned isReady =>
        obtain rfl := unowned
        obtain rfl := isReady
        rcases fresh.poll_runJob (underWay_runLaw configuration) (fun _ underWay _ => underWay)
            registry world call with ⟨owns, executes, calm⟩
        exact ⟨some call, state.poll (.owned (Function.update_self ..) owns) (.inr ⟨rfl, rfl⟩)
          (absurd rfl) (iff_of_true (executes_append.mpr (.inr executes)) rfl) calm⟩
    | isTold polled asked told => exact ⟨owner, state.poll_bystander isOwner polled asked told⟩

end Steps

/-- Every course of a job keeps the job in a state. It can be overruled only if it may be rejected
while it is under way. -/
theorem job_courseLaw (setting : Setting) (configuration : Configuration) (context : Context)
    (mayReject : Session → Prop) :
    Machine.CourseLaw (· = configuration.runJob setting context) mayReject
      fun trace session (stages : Nat → Option (Stage ω JobStatus)) =>
        ∃ owner, JobState setting configuration context
          (∃ session, mayReject session ∧ session.control.status.isActive) trace session stages
          owner where
  poll := fun ⟨_, state⟩ _ _ hasStage registry world => state.exists_poll hasStage registry world
  spawn := by
    rintro trace session stages ⟨owner, state⟩ program rfl call isNew
    exact ⟨owner, state.spawn isNew⟩
  signal := by
    rintro trace session stages ⟨owner, state⟩ signal
    have onward := Session.Onward.mapControl session fun control => .act control signal
    exact ⟨owner, state.withPhase (state.phase.carries (onward.carries rfl)) onward.staysAt⟩
  listen := by
    rintro trace session stages ⟨owner, state⟩ listeners
    exact ⟨owner, state.withPhase (state.phase.carries (session.carries_listeners listeners))
      fun _ => rfl⟩
  reject := by
    rintro trace session stages ⟨owner, state⟩ may now
    exact ⟨owner, state.withPhase (state.phase.reject (fun active => ⟨session, may, active⟩) now)
      (session.reject_staysAt now)⟩

/-! ### Jobs from their opening on -/

def Configuration.jobSession (configuration : Configuration) (listeners : List String) : Session :=
  { Session.ofResult true (.ofConfiguration configuration) with listeners }

theorem Configuration.jobSession_fresh (configuration : Configuration) (listeners : List String) :
    (configuration.jobSession listeners).Fresh :=
  ⟨rfl, rfl, rfl, rfl, rfl⟩

/-- A machine on which a job has been opened that nobody has run yet. -/
structure Machine.Opens (machine : Machine ω JobStatus) (place : Nat)
    (configuration : Configuration) : Prop where
  session : ∃ listeners, (machine.view place).session = some (configuration.jobSession listeners)
  noCalls : ∀ call, (machine.view place).stages call = none

/-- A session that is added to a machine for a job opens the job. -/
theorem Machine.openSession_opens (machine : Machine ω JobStatus) (configuration : Configuration)
    (listeners : List String)
    (inBounds : ∀ task ∈ machine.tasks, task.session < machine.sessions.length) :
    (machine.openSession (configuration.jobSession listeners)).1.Opens machine.sessions.length
      configuration where
  session := ⟨listeners, List.getElem?_concat_length⟩
  noCalls call := by
    refine Option.eq_none_iff_forall_not_mem.mpr fun stage hasStage => ?_
    rcases view_stages_eq_some.mp hasStage with ⟨task, hasTask, isHere, -⟩
    exact Nat.ne_of_lt (inBounds task (List.mem_of_getElem? hasTask)) isHere

variable {place : Nat} {mayReject : Session → Prop} {first last : Machine ω JobStatus}
  {trace : List Asked}

theorem Machine.Opens.initial (opens : first.Opens place configuration) (mayOverrule : Prop) :
    ∃ session, (first.view place).session = some session ∧
      JobState setting configuration context mayOverrule [] session (first.view place).stages
        none := by
  rcases opens.session with ⟨listeners, hasSession⟩
  refine ⟨_, hasSession, .fresh (configuration.jobSession_fresh listeners), ?_, ?_, ?_⟩
  · intro call stage hasStage
    simp [opens.noCalls] at hasStage
  · simp [Executes]
  · simp

theorem Machine.Opens.jobState (opens : first.Opens place configuration)
    (course : Machine.Course place (· = configuration.runJob setting context) mayReject first trace
      last) :
    ∃ session, (last.view place).session = some session ∧
      ∃ owner, JobState setting configuration context
        (∃ session, mayReject session ∧ session.control.status.isActive) trace session
        (last.view place).stages owner := by
  rcases opens.initial _ with ⟨session, hasSession, state⟩
  have law := job_courseLaw setting configuration context mayReject (ω := ω)
  exact law.run [] course hasSession ⟨none, state⟩

section Returned

variable {mayOverrule : Prop} {session : Session} {stages : Nat → Option (Stage ω JobStatus)}
  {owner : Option Nat} {call : Nat} {status : JobStatus}

/-- The call that executes a job returns the status that the job is over with, unless the job was
overruled. -/
theorem JobState.over_of_returned
    (state : JobState setting configuration context mayOverrule trace session stages owner)
    (executes : Executes trace call) (returned : stages call = some (.done status)) :
    (∃ told, session.Over status told) ∨
      mayOverrule ∧ session.Rejected ∧
        (status = .finished → configuration.Walked session.result.results) := by
  have isStage {stage : Stage ω JobStatus} (hasStage : stages call = some stage) :
      stage = .done status := Option.some.inj (hasStage.symm.trans returned)
  obtain rfl := (state.executed call).mp executes
  cases state.phase with
  | owned hasStage owns =>
      obtain rfl := isStage hasStage
      exact .inl (Stage.Runs.returned owns)
  | overruled may hasStage owns =>
      obtain rfl := isStage hasStage
      exact .inr ⟨may, Stage.Runs.returned owns⟩

end Returned

/-! ### A small job -/

/-- The program of the small job. -/
def Program.sample : Program JobStatus := Configuration.sample.runJob .sample (.ofProperties [])

/-- A machine of its own for the small job. -/
def Machine.sample : Machine Unit JobStatus :=
  ((Machine.initial .empty (.initial 0 .empty ())).openSession
    (Configuration.sample.jobSession ["client"])).1

theorem Machine.sample_opens : Machine.sample.Opens 0 Configuration.sample :=
  Machine.openSession_opens _ _ _ (by simp [Machine.initial])

end TestEngine
