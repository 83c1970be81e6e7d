import TestEngine.Proofs.Job.Run

/-!
# The phases of a job

Of all calls that run a job, at most one gets to walk the configuration: its *owner*. A phase of the
job says which call that is and what the session is for it. It is left by the owner's first poll, by
its end and by a rejection, and by nothing else that clients and capabilities do.
-/

namespace TestEngine

open Calendar

variable {ω : Type}

/-! ### Owners -/

section Phases

variable (setting : Setting) (configuration : Configuration) (context : Context)

/-- A call that runs a job, which it ends with the status that it returns. -/
def Stage.Runs (during : Session → Prop) (isOver : JobStatus → Session → Prop) (session : Session)
    (stage : Stage ω JobStatus) : Prop :=
  stage.Follows configuration.Walked (fun status standing => standing.ended = some status) during
    isOver session

/-- The owner of a job that nobody has rejected meanwhile. -/
def Stage.Owns (session : Session) (stage : Stage ω JobStatus) : Prop :=
  stage.Runs configuration Session.UnderWay
    (fun status session => ∃ told, session.Over status told) session

/-- The owner of a job that was rejected meanwhile. -/
def Stage.OwnsRejected (session : Session) (stage : Stage ω JobStatus) : Prop :=
  stage.Runs configuration Session.Rejected
    (fun status session => session.Rejected ∧
      (status = .finished → configuration.Walked session.result.results)) session

/-- Where a job is, and which call owns it. That a job is rejected while it is under way is a
possibility of its own. -/
inductive JobPhase (mayOverrule : Prop) (session : Session)
    (stages : Nat → Option (Stage ω JobStatus)) : (owner : Option Nat) → Prop
  | fresh (fresh : session.Fresh) : JobPhase mayOverrule session stages none
  | refused (rejected : session.Rejected) : JobPhase mayOverrule session stages none
  | owned {owner : Nat} {stage : Stage ω JobStatus} (hasStage : stages owner = some stage)
      (owns : stage.Owns configuration session) :
      JobPhase mayOverrule session stages (some owner)
  | overruled {owner : Nat} {stage : Stage ω JobStatus} (may : mayOverrule)
      (hasStage : stages owner = some stage) (owns : stage.OwnsRejected configuration session) :
      JobPhase mayOverrule session stages (some owner)

/-- A call that does not own the job: it waits for its first poll, or was told a status. -/
def Stage.StandsBy (session : Session) (stage : Stage ω JobStatus) : Prop :=
  stage = .ready (configuration.runJob setting context) ∨
    ∃ status, stage = .done status ∧ session.HasTold status

end Phases

/-- Whether a call has done more for its job than trying to begin it. -/
def Executes (trace : List Asked) (call : Nat) : Prop :=
  ∃ made ∈ trace, made.call = call ∧ made.request ≠ .beginJob

theorem executes_append {earlier later : List Asked} {call : Nat} :
    Executes (earlier ++ later) call ↔ Executes earlier call ∨ Executes later call := by
  simp only [Executes, List.mem_append, or_and_right, exists_or]

/-- Whoever has only tried to begin the job since has not executed it then. -/
theorem Executes.of_begins {earlier later : List Asked} {call : Nat}
    (executes : Executes (earlier ++ later) call)
    (onlyBegins : ∀ made ∈ later, made.request = .beginJob) : Executes earlier call := by
  refine (executes_append.mp executes).resolve_right ?_
  rintro ⟨made, madeMem, -, more⟩
  exact more (onlyBegins made madeMem)

theorem not_executes_asks {stage : Stage ω JobStatus} {registry : Registry ω} {session : Session}
    {world : World ω} {call other : Nat} (otherNe : other ≠ call) :
    ¬Executes (stage.asks registry call session world) other := by
  rintro ⟨made, madeMem, isOther, -⟩
  exact otherNe (isOther.symm.trans (Stage.call_of_mem_asks madeMem))

variable {setting : Setting} {configuration : Configuration} {context : Context}

/-! ### Calls that begin -/

theorem Configuration.runJob_eq :
    configuration.runJob setting context = .ask .beginJob fun answer =>
      match answer with
      | some status => .done status
      | none => configuration.run setting context >>= fun ran =>
          Program.request (.endJob ran.ending) := by
  refine congrArg (Program.ask .beginJob) (funext fun answer => ?_)
  cases answer <;> rfl

section Runs

variable {during : Session → Prop} {isOver : JobStatus → Session → Prop} {session : Session}
  {stage : Stage ω JobStatus}

/-- A call that runs a job does so until it returns, and calls no capability once it is
interrupted. -/
theorem Stage.Runs.poll (runs : stage.Runs configuration during isOver session)
    (law : RunLaw ω configuration.Walked during isOver) (registry : Registry ω) (world : World ω)
    (call : Nat) :
    let after := stage.poll registry session world
    after.stage.Runs configuration during isOver after.session ∧
      ∀ made ∈ stage.asks registry call session world, made.interrupted → ¬made.request.isCall := by
  have polled := (law.pollLaw registry fun _ _ ended => ended).poll call stage world runs
  exact ⟨polled.1, fun made madeMem => (polled.2 made madeMem).2⟩

/-- The session of a job that is run is what a run takes it for. -/
theorem Stage.Runs.during_or_over (runs : stage.Runs configuration during isOver session) :
    during session ∨ ∃ status, isOver status session := by
  rcases runs with ⟨standing, -, -, matched⟩
  cases ended : standing.ended with
  | none => exact .inl (matched.underWay ended).2
  | some status => exact .inr ⟨status, matched.isOver status ended⟩

theorem Stage.Runs.returned {status : JobStatus}
    (runs : (Stage.done status : Stage ω JobStatus).Runs configuration during isOver session) :
    isOver status session := by
  rcases runs with ⟨standing, -, ended, matched⟩
  exact matched.isOver status ended

theorem Session.Fresh.poll_runJob (fresh : session.Fresh)
    (law : RunLaw ω configuration.Walked during isOver)
    (holds : ∀ begun : Session, begun.UnderWay → begun.listeners = session.listeners → during begun)
    (registry : Registry ω) (world : World ω) (call : Nat) :
    let stage : Stage ω JobStatus := .ready (configuration.runJob setting context)
    let after := stage.poll registry session world
    after.stage.Runs configuration during isOver after.session ∧
      Executes (stage.asks registry call session world) call ∧
        ∀ made ∈ stage.asks registry call session world, made.interrupted →
          ¬made.request.isCall := by
  rcases fresh.begin world.now with ⟨begun, begins, underWay, noResults, sameListeners⟩
  have follows : Program.Follows configuration.Walked
      (fun status standing => standing.ended = some status) during isOver begun
      (configuration.run setting context >>= fun ran => Program.request (.endJob ran.ending)) :=
    ⟨.initial, configuration.finishJob_obeys setting context,
      fun _ => ⟨⟨noResults, (nomatch ·)⟩, holds begun underWay sameListeners⟩,
      fun _ ended => nomatch ended⟩
  have polled := (law.pollLaw registry fun _ _ ended => ended).advance call _ world follows
  simp only [Stage.poll, Stage.asks, Configuration.runJob_eq, Program.advance, Program.asks,
    Request.carryOut, begins]
  refine ⟨polled.1, ?_, List.forall_mem_cons.mpr ⟨fun _ => by simp [Request.isCall], ?_⟩⟩
  · -- The walk asks for its checkpoint whatever there is to walk, so the call has executed the job.
    have walks : ∃ next, (configuration.run setting context >>= fun ran =>
        Program.request (.endJob ran.ending)) = .ask .checkpoint next := ⟨_, rfl⟩
    rcases walks with ⟨next, walks⟩
    rw [walks, Program.asks]
    exact ⟨_, .tail _ (.head _), rfl, by simp⟩
  · exact fun made madeMem => (polled.2 made madeMem).2

end Runs

/-- A call that comes too late to begin the job is told the status of the job and does nothing. -/
theorem poll_runJob_of_started (setting : Setting) (configuration : Configuration)
    (context : Context) {session : Session} (started : session.control.status ≠ .initialized)
    (registry : Registry ω) (world : World ω) (call : Nat) :
    let stage : Stage ω JobStatus := .ready (configuration.runJob setting context)
    stage.poll registry session world = ⟨session, world, .done session.control.status⟩ ∧
      stage.asks registry call session world =
        [⟨call, .beginJob, session.control.interrupted⟩] := by
  simp only [Stage.poll, Stage.asks, Configuration.runJob_eq, Program.advance, Program.asks,
    Request.carryOut, Session.begin?_eq_none started, and_self]

/-- A call that comes too late to begin the job leaves the session as it is. -/
theorem Stage.StandsBy.poll_session {session : Session} {stage : Stage ω JobStatus}
    (standsBy : stage.StandsBy setting configuration context session)
    (started : session.control.status ≠ .initialized) (registry : Registry ω) (world : World ω) :
    (stage.poll registry session world).session = session := by
  rcases standsBy with rfl | ⟨status, rfl, -⟩
  · have polled := (poll_runJob_of_started setting configuration context started registry world 0).1
    exact congrArg Situation.session polled
  · rfl

/-! ### Phases -/

theorem Stage.Owns.session {session : Session} {stage : Stage ω JobStatus}
    (owns : stage.Owns configuration session) :
    session.UnderWay ∨ ∃ status told, session.Over status told :=
  Stage.Runs.during_or_over owns

theorem Stage.OwnsRejected.session {session : Session} {stage : Stage ω JobStatus}
    (owns : stage.OwnsRejected configuration session) : session.Rejected := by
  rcases Stage.Runs.during_or_over owns with rejected | ⟨status, rejected, -⟩
  · exact rejected
  · exact rejected

/-- What a change of the session has to keep for the phase of its job to stay. -/
structure Session.Carries (before after : Session) : Prop where
  sameResults : after.result.results = before.result.results
  fresh : before.Fresh → after.Fresh
  underWay : before.UnderWay → after.UnderWay
  rejected : before.Rejected → after.Rejected
  isOver : ∀ status told, before.Over status told → after.Over status told

theorem Session.Onward.carries {before after : Session} (onward : before.Onward after)
    (sameResult : after.result = before.result) : before.Carries after where
  sameResults := onward.results
  fresh fresh := fresh.onward onward
  underWay underWay := underWay.onward onward
  rejected rejected := rejected.onward onward
  isOver _ _ isOver := isOver.onward onward sameResult

theorem Session.carries_listeners (session : Session) (listeners : List String) :
    session.Carries { session with listeners } where
  sameResults := rfl
  fresh fresh := ⟨fresh.notFinalized, fresh.notices, fresh.verdict, fresh.results, fresh.status⟩
  underWay underWay :=
    ⟨underWay.notFinalized, underWay.notices, underWay.verdict, underWay.isActive,
      underWay.cancelled⟩
  rejected rejected := ⟨rejected.finalized, rejected.notices, rejected.verdict, rejected.status⟩
  isOver _ _ isOver :=
    ⟨isOver.finalized, isOver.current, isOver.how, isOver.stoppedAt, isOver.result, isOver.notices⟩

section Phase

variable {mayOverrule : Prop} {session after : Session}
  {stages : Nat → Option (Stage ω JobStatus)} {owner : Option Nat}

theorem JobPhase.carries (phase : JobPhase configuration mayOverrule session stages owner)
    (carries : session.Carries after) :
    JobPhase configuration mayOverrule after stages owner := by
  cases phase with
  | fresh fresh => exact .fresh (carries.fresh fresh)
  | refused rejected => exact .refused (carries.rejected rejected)
  | owned hasStage owns =>
      refine .owned hasStage (owns.transfer carries.sameResults carries.underWay fun status => ?_)
      rintro ⟨told, isOver⟩
      exact ⟨told, carries.isOver status told isOver⟩
  | overruled may hasStage owns =>
      refine .overruled may hasStage
        (owns.transfer carries.sameResults carries.rejected fun status => ?_)
      rintro ⟨rejected, walked⟩
      exact ⟨carries.rejected rejected, carries.sameResults.symm ▸ walked⟩

theorem JobPhase.fresh_or_hasTold
    (phase : JobPhase configuration mayOverrule session stages owner) :
    session.Fresh ∧ owner = none ∨
      session.control.status ≠ .initialized ∧ session.HasTold session.control.status := by
  have told {status : JobStatus} (current : session.control.status = status)
      (ongoing : status.isActive ∨ status.isTerminal) :
      session.control.status ≠ .initialized ∧ session.HasTold session.control.status := by
    subst current
    refine ⟨?_, ongoing.imp id fun terminal => ⟨terminal, rfl⟩⟩
    intro initialized
    simp [initialized, JobStatus.isActive, JobStatus.isTerminal] at ongoing
  cases phase with
  | fresh fresh => exact .inl ⟨fresh, rfl⟩
  | refused rejected => exact .inr (told rejected.status (.inr rfl))
  | overruled may hasStage owns => exact .inr (told owns.session.status (.inr rfl))
  | owned hasStage owns =>
      rcases owns.session with underWay | ⟨status, told', isOver⟩
      · exact .inr (told rfl (.inl underWay.isActive))
      · exact .inr (told rfl (.inr isOver.isTerminal))

/-- Rejecting a job ends its life unless that is over already. A job that is under way is then
overruled. -/
theorem JobPhase.reject (phase : JobPhase configuration mayOverrule session stages owner)
    (may : session.control.status.isActive → mayOverrule) (now : Instant) :
    JobPhase configuration mayOverrule (session.reject now) stages owner := by
  cases phase with
  | fresh fresh =>
      have ongoing : ¬session.control.status.isTerminal := by
        simp [fresh.status, JobStatus.isTerminal]
      exact .refused
        (session.reject_rejected fresh.notFinalized fresh.notices fresh.verdict ongoing now)
  | refused rejected =>
      rw [session.reject_of_finalized rejected.finalized]
      exact .refused rejected
  | overruled may hasStage owns =>
      rw [session.reject_of_finalized owns.session.finalized]
      exact .overruled may hasStage owns
  | owned hasStage owns =>
      rcases owns.session with underWay | ⟨status, told, isOver⟩
      · have ongoing := JobStatus.not_isTerminal_of_isActive underWay.isActive
        have rejected := session.reject_rejected underWay.notFinalized underWay.notices
          underWay.verdict ongoing now
        have sameResults : (session.reject now).result.results = session.result.results := by
          rw [Session.reject, underWay.notFinalized]
          rfl
        refine .overruled (may underWay.isActive) hasStage
          (owns.transfer sameResults (fun _ => rejected) fun status => ?_)
        rintro ⟨told, isOver⟩
        exact absurd isOver.isTerminal ongoing
      · rw [session.reject_of_finalized isOver.finalized]
        exact .owned hasStage owns

/-- What becomes of a call that does not own a job leaves its phase alone. -/
theorem JobPhase.update (phase : JobPhase configuration mayOverrule session stages owner)
    {call : Nat} (notOwner : owner ≠ some call) (stage : Stage ω JobStatus) :
    JobPhase configuration mayOverrule session (Function.update stages call (some stage))
      owner := by
  have keeps {owner : Nat} (isOwner : some owner ≠ some call) :
      Function.update stages call (some stage) owner = stages owner :=
    Function.update_of_ne (fun same => isOwner (congrArg some same)) ..
  cases phase with
  | fresh fresh => exact .fresh fresh
  | refused rejected => exact .refused rejected
  | owned hasStage owns => exact .owned ((keeps notOwner).trans hasStage) owns
  | overruled may hasStage owns => exact .overruled may ((keeps notOwner).trans hasStage) owns

theorem JobPhase.stages_ne_none (phase : JobPhase configuration mayOverrule session stages owner)
    {call : Nat} (isOwner : owner = some call) : stages call ≠ none := by
  cases phase with
  | fresh fresh => exact nomatch isOwner
  | refused rejected => exact nomatch isOwner
  | owned hasStage owns => simp [← Option.some.inj isOwner, hasStage]
  | overruled may hasStage owns => simp [← Option.some.inj isOwner, hasStage]

/-- A job with a terminal status is over, or it was rejected. -/
theorem JobPhase.over_of_isTerminal
    (phase : JobPhase configuration mayOverrule session stages owner)
    (terminal : session.control.status.isTerminal) :
    (∃ told, session.Over session.control.status told) ∨ session.Rejected := by
  cases phase with
  | fresh fresh => simp [fresh.status, JobStatus.isTerminal] at terminal
  | refused rejected => exact .inr rejected
  | overruled may hasStage owns => exact .inr owns.session
  | owned hasStage owns =>
      rcases owns.session with underWay | ⟨status, told, isOver⟩
      · exact absurd terminal (JobStatus.not_isTerminal_of_isActive underWay.isActive)
      · exact .inl ⟨told, isOver.current.symm ▸ isOver⟩

/-- A rejected job that was not overruled was refused, so nobody owns it. -/
theorem JobPhase.refused_of_isRejected (phase : JobPhase configuration False session stages owner)
    (isRejected : session.control.status = .rejected) : session.Rejected ∧ owner = none := by
  cases phase with
  | fresh fresh => exact nomatch isRejected.symm.trans fresh.status
  | refused rejected => exact ⟨rejected, rfl⟩
  | overruled never => exact never.elim
  | owned hasStage owns =>
      rcases owns.session with underWay | ⟨status, told, isOver⟩
      · have active := underWay.isActive
        exact nomatch (congrArg JobStatus.isActive isRejected).symm.trans active
      · obtain rfl := isOver.current.symm.trans isRejected
        rcases isOver.how with ⟨finished, -⟩ | interrupted
        · exact nomatch finished
        · exact nomatch interrupted

end Phase

end TestEngine
