import TestEngine.Proofs.Job.State
import TestEngine.Proofs.Job.Verdict
import TestEngine.Proofs.Machine.Trace
import TestEngine.Proofs.Walk.Conclusion

/-!
# Conclusion of jobs

A job that has been brought to its end by a run leaves every result complete, at every depth,
however its capabilities failed and whenever it was interrupted. There is one exception: a
capability that takes the run down leaves the visits without a verdict or an end that were open at
that moment. The run tells of it when it ends the job.
-/

namespace TestEngine

variable {ω : Type} {setting : Setting} {configuration : Configuration} {context : Context}

/-! ### Sessions that agree with an account -/

/-- Whether a run has ended its job as crashed. -/
def HasCrashed (asked : List Request) : Prop := Request.endJob .crashed ∈ asked

def Request.isCrashedEnd : Request → Bool
  | endJob .crashed => true
  | _ => false

theorem Request.isCrashedEnd_iff {request : Request} :
    request.isCrashedEnd ↔ request = .endJob .crashed := by
  cases request with
  | endJob ending => cases ending <;> simp [isCrashedEnd]
  | _ => simp [isCrashedEnd]

instance (asked : List Request) : Decidable (HasCrashed asked) :=
  decidable_of_iff (asked.any Request.isCrashedEnd) <| by
    simp [HasCrashed, Request.isCrashedEnd_iff]

/-- Results that are complete unless a run has ended its job as crashed, and broken off if one
has. -/
structure ElementResult.AsTold (asked : List Request) (results : List ElementResult) : Prop where
  concluded (noCrash : ¬HasCrashed asked) : ∀ result ∈ results, result.Concluded
  brokenOff (crashed : HasCrashed asked) : BrokenOff results

/-- Whether a run has brought the job to its end. -/
def Session.HasRun (session : Session) : Prop :=
  session.control.status = .finished ∨ session.control.status = .interrupted

/-- A session that shows what an account says, given what was asked so far. -/
structure Session.Balances (asked : List Request) (session : Session) (account : Account) :
    Prop where
  underWay (underWay : account.isOver = false) :
    session.result.results = account.shown ∧ ¬session.HasRun ∧ ¬HasCrashed asked
  isOver (isOver : account.isOver = true) : ElementResult.AsTold asked session.result.results

namespace Session

theorem Onward.hasRun {before after : Session} (onward : before.Onward after)
    (hasRun : after.HasRun) : before.HasRun := by
  rcases onward.control.status with same | ⟨-, active⟩
  · rwa [HasRun, ← same]
  · rcases hasRun with finished | interrupted
    · simp [finished, JobStatus.isActive] at active
    · simp [interrupted, JobStatus.isActive] at active

theorem HasRun.of_reject {session : Session} {now : Calendar.Instant}
    (hasRun : (session.reject now).HasRun) : session.HasRun := by
  rw [reject] at hasRun
  split at hasRun
  · exact hasRun
  · by_cases terminal : session.control.status.isTerminal
    · simpa [HasRun, Control.stop?, setRunStatus, terminal] using hasRun
    · simp [HasRun, Control.stop?, Control.writePaused, setRunStatus, terminal] at hasRun

theorem Fresh.not_hasRun {session : Session} (fresh : session.Fresh) : ¬session.HasRun := by
  simp [HasRun, fresh.status]

theorem UnderWay.not_hasRun {session : Session} (underWay : session.UnderWay) :
    ¬session.HasRun := by
  rintro (finished | interrupted)
  · simpa [finished, JobStatus.isActive] using underWay.isActive
  · simpa [interrupted, JobStatus.isActive] using underWay.isActive

/-- Whoever finalizes a job leaves its results complete or broken off as they are. -/
theorem finalize_accounted {crashed : Bool} {session : Session}
    (accounted : ElementResult.Accounted crashed session.result.results) (status : JobStatus)
    (now : Calendar.Instant) (cache : TraceCache) :
    ElementResult.Accounted crashed (session.finalize status now cache).1.result.results := by
  rw [finalize]
  split
  · exact accounted
  · have sameResults : (session.finalResult status now).results = session.result.results := by
      rw [finalResult, ConfigurationResult.finish_eq]
    exact ElementResult.Accounted.visitAll (sameResults ▸ accounted) cache

namespace Balances

variable {asked : List Request} {before after : Session} {account : Account}

theorem transfer (balances : before.Balances asked account)
    (sameResults : after.result.results = before.result.results)
    (stays : after.HasRun → before.HasRun) : after.Balances asked account where
  underWay underWay := by
    rcases balances.underWay underWay with ⟨shown, notRun, noCrash⟩
    exact ⟨sameResults.trans shown, mt stays notRun, noCrash⟩
  isOver isOver := sameResults ▸ balances.isOver isOver

/-- Only the end of a job tells of a crash. -/
theorem concat (balances : before.Balances asked account) {request : Request}
    (goesOn : request.isOrdinary ∨ request = .beginJob) :
    before.Balances (asked ++ [request]) account := by
  have same : HasCrashed (asked ++ [request]) ↔ HasCrashed asked := by
    have other : Request.endJob .crashed ≠ request := by
      rintro rfl
      simp [Request.isOrdinary] at goesOn
    simp [HasCrashed, other]
  refine ⟨fun underWay => ?_, fun isOver => ⟨fun noCrash => ?_, fun crashed => ?_⟩⟩
  · rw [same]
    exact balances.underWay underWay
  · exact (balances.isOver isOver).concluded (mt same.mpr noCrash)
  · exact (balances.isOver isOver).brokenOff (same.mp crashed)

theorem append (balances : before.Balances asked account) {later : List Request}
    (onlyBegins : ∀ request ∈ later, request = .beginJob) :
    before.Balances (asked ++ later) account := by
  induction later generalizing asked with
  | nil => exact (List.append_nil asked).symm ▸ balances
  | cons request rest ih =>
      rw [List.append_cons]
      rw [List.forall_mem_cons] at onlyBegins
      exact ih (balances.concat (.inr onlyBegins.1)) onlyBegins.2

theorem links (balances : before.Balances asked account) {request : Request}
    {carried : Carried ω request} (onward : before.Onward carried.session)
    (shown : ∀ answer, (account.after request answer).shown = account.shown)
    (isOver : ∀ answer, (account.after request answer).isOver = account.isOver) :
    carried.Links accounting account (Session.Balances asked) := by
  have carries := balances.transfer onward.results onward.hasRun
  rw [Carried.Links]
  cases carried.outcome with
  | waiting wait => exact carries
  | answered answer =>
      refine ⟨fun underWay => ?_, fun ended => ?_⟩
      · rcases carries.underWay ((isOver answer).symm.trans underWay) with ⟨showsBefore, rest⟩
        exact ⟨showsBefore.trans (shown answer).symm, rest⟩
      · exact carries.isOver ((isOver answer).symm.trans ended)

theorem publish (balances : before.Balances asked account) {results : List ElementResult}
    (allowed : accounting.allows account (.publish results)) :
    Session.Balances (asked ++ [.publish results])
      { before with result := { before.result with results } }
      (account.after (.publish results) ()) where
  underWay underWay := ⟨rfl, ((balances.concat (.inl rfl)).underWay underWay).2⟩
  isOver isOver := nomatch allowed.2.symm.trans isOver

/-- The end of a job leaves the results as the run tells. -/
theorem endJob (balances : before.Balances asked account) {ending : Ending}
    (allowed : accounting.allows account (.endJob ending)) (registry : Registry ω)
    (world : World ω) (status : JobStatus) :
    ((Request.endJob ending).carryOut registry before world).session.Balances
      (asked ++ [.endJob ending]) (account.after (.endJob ending) status) := by
  rcases allowed with ⟨underWay, crashed_iff, accounted⟩
  rcases balances.underWay underWay with ⟨shown, -, noCrash⟩
  have onward := (before.statusAfter_spec ending).1
  rw [← shown, ← onward.results] at accounted
  have ended := finalize_accounted accounted (before.statusAfter ending).2 world.now world.cache
  have told : HasCrashed (asked ++ [.endJob ending]) ↔ account.crashed = true := by
    rw [HasCrashed] at noCrash
    rw [HasCrashed, ← crashed_iff]
    simp [noCrash, eq_comm]
  refine ⟨fun notOver => Bool.noConfusion (notOver : true = false), fun _ => ⟨?_, ?_⟩⟩
  · intro uncrashed
    rw [told, Bool.not_eq_true] at uncrashed
    rw [uncrashed] at ended
    exact ended
  · intro crashed
    rw [told.mp crashed] at ended
    exact ended

end Balances

end Session

/-- A run that accounts for its results does so in its session. -/
theorem accounting_protocolLaw (registry : Registry ω) :
    ProtocolLaw registry accounting Session.Balances where
  ask := by
    intro asked session account balances request allowed world
    have onward (ordinary : request.isOrdinary) :=
      request.carryOut_onward registry session world ordinary
    cases request with
    | beginJob => exact allowed.elim
    | endJob ending =>
        exact balances.endJob allowed registry world (session.statusAfter ending).2
    | publish results => exact balances.publish allowed
    | _ => exact (balances.concat (.inl rfl)).links (onward rfl) (fun _ => rfl) fun _ => rfl
  resume := by
    intro asked session account balances request wait world
    have onward := wait.resume_onward session world
    cases wait <;> exact balances.links onward (fun _ => rfl) fun _ => rfl

/-! ### Courses of a job -/

/-- The session of a job agrees with an account, and the call that executes the job keeps it. -/
structure AccountedBy (account : Account) (trace : List Asked) (session : Session)
    (stages : Nat → Option (Stage ω JobStatus)) : Prop where
  balances : session.Balances (trace.map Asked.request) account
  executing {call : Nat} {stage : Stage ω JobStatus} (executes : Executes trace call)
    (hasStage : stages call = some stage) :
    stage.ObeysFrom accounting (fun _ reached => reached.isOver = true) account

/-- Only a call that executes the job asks for its end. -/
theorem not_hasCrashed_of_not_executes {trace : List Asked}
    (nobody : ∀ call, ¬Executes trace call) : ¬HasCrashed (trace.map Asked.request) := by
  intro asked
  rcases List.mem_map.mp asked with ⟨made, madeMem, isEnd⟩
  exact nobody made.call ⟨made, madeMem, rfl, by simp [isEnd]⟩

theorem Session.Fresh.balances {session : Session} (fresh : session.Fresh) {asked : List Request}
    (noCrash : ¬HasCrashed asked) : session.Balances asked .initial :=
  ⟨fun _ => ⟨fresh.results, fresh.not_hasRun, noCrash⟩, fun isOver => nomatch isOver⟩

section Steps

variable {mayOverrule : Prop} {account : Account} {trace : List Asked} {session after : Session}
  {stages : Nat → Option (Stage ω JobStatus)} {owner : Option Nat} {call : Nat}
  {stage : Stage ω JobStatus}

theorem AccountedBy.transfer (accounted : AccountedBy account trace session stages)
    (sameResults : after.result.results = session.result.results)
    (stays : after.HasRun → session.HasRun) : AccountedBy account trace after stages :=
  ⟨accounted.balances.transfer sameResults stays, accounted.executing⟩

theorem AccountedBy.spawn (accounted : AccountedBy account trace session stages)
    (state : JobState setting configuration context mayOverrule trace session stages owner)
    (isNew : stages call = none) (stage : Stage ω JobStatus) :
    AccountedBy account trace session (Function.update stages call (some stage)) where
  balances := accounted.balances
  executing {other otherStage} executes hasStage := by
    have otherNe : other ≠ call := by
      rintro rfl
      exact state.phase.stages_ne_none ((state.executed other).mp executes) isNew
    rw [Function.update_of_ne otherNe] at hasStage
    exact accounted.executing executes hasStage

theorem Session.Fresh.poll_balances (fresh : session.Fresh) {asked : List Request}
    (noCrash : ¬HasCrashed asked) (registry : Registry ω) (world : World ω)
    (call : Nat) :
    let stage : Stage ω JobStatus := .ready (configuration.runJob setting context)
    let after := stage.poll registry session world
    ∃ account, after.stage.ObeysFrom accounting (fun _ reached => reached.isOver = true) account ∧
      after.session.Balances
        (asked ++ (stage.asks registry call session world).map Asked.request) account := by
  rcases fresh.begin world.now with ⟨begun, begins, underWay, noResults, -⟩
  have stillNoCrash : ¬HasCrashed (asked ++ [.beginJob]) := by simpa [HasCrashed] using noCrash
  have balances : begun.Balances (asked ++ [.beginJob]) .initial :=
    ⟨fun _ => ⟨noResults, underWay.not_hasRun, stillNoCrash⟩, fun isOver => nomatch isOver⟩
  have polled := (accounting_protocolLaw registry).advance call
    (configuration.finishJob_accounts setting context) balances world
  rw [List.append_assoc] at polled
  simp only [Stage.poll, Stage.asks, Configuration.runJob_eq, Program.advance, Program.asks,
    Request.carryOut, begins]
  exact polled

theorem AccountedBy.poll_bystander (accounted : AccountedBy account trace session stages)
    {registry : Registry ω} {world : World ω}
    (sameSession : (stage.poll registry session world).session = session)
    (onlyBegins : ∀ made ∈ stage.asks registry call session world, made.request = .beginJob)
    (bystands : ¬Executes trace call) :
    AccountedBy account (trace ++ stage.asks registry call session world)
      (stage.poll registry session world).session
      (Function.update stages call (some (stage.poll registry session world).stage)) where
  balances := by
    rw [sameSession, List.map_append]
    generalize stage.asks registry call session world = asks at onlyBegins
    have begins : ∀ request ∈ asks.map Asked.request, request = .beginJob := by
      simpa using onlyBegins
    exact accounted.balances.append begins
  executing {other otherStage} executes hasStage := by
    have executed := executes.of_begins onlyBegins
    have otherNe : other ≠ call := by
      rintro rfl
      exact bystands executed
    rw [Function.update_of_ne otherNe] at hasStage
    exact accounted.executing executed hasStage

theorem AccountedBy.poll_executing {registry : Registry ω} {world : World ω}
    (obeys : (stage.poll registry session world).stage.ObeysFrom accounting
      (fun _ reached => reached.isOver = true) account)
    (balances : (stage.poll registry session world).session.Balances
      (trace.map Asked.request ++ (stage.asks registry call session world).map Asked.request)
      account)
    (onlyOne : ∀ other, Executes trace other → other = call) :
    AccountedBy account (trace ++ stage.asks registry call session world)
      (stage.poll registry session world).session
      (Function.update stages call (some (stage.poll registry session world).stage)) where
  balances := by
    rw [List.map_append]
    exact balances
  executing {other otherStage} executes hasStage := by
    have isCall : other = call := by
      by_contra otherNe
      have executed := (executes_append.mp executes).resolve_right (not_executes_asks otherNe)
      exact otherNe (onlyOne other executed)
    rw [isCall, Function.update_self] at hasStage
    exact Option.some.inj hasStage ▸ obeys

theorem AccountedBy.poll (accounted : AccountedBy account trace session stages)
    (state : JobState setting configuration context mayOverrule trace session stages owner)
    (hasStage : stages call = some stage) (registry : Registry ω) (world : World ω) :
    ∃ account, AccountedBy account (trace ++ stage.asks registry call session world)
      (stage.poll registry session world).session
      (Function.update stages call (some (stage.poll registry session world).stage)) := by
  by_cases executes : Executes trace call
  · rcases (accounting_protocolLaw registry).poll call (accounted.executing executes hasStage)
      accounted.balances world with ⟨account, obeys, balances⟩
    have isOwner := (state.executed call).mp executes
    refine ⟨account, .poll_executing obeys balances fun other otherExecutes => ?_⟩
    exact Option.some.inj (((state.executed other).mp otherExecutes).symm.trans isOwner)
  · have notOwner : owner ≠ some call := mt (state.executed call).mpr executes
    cases state.bystands notOwner hasStage registry world with
    | begins fresh unowned isReady =>
        obtain rfl := unowned
        obtain rfl := isReady
        have nobody (other : Nat) : ¬Executes trace other := by
          simpa using state.executed other
        rcases fresh.poll_balances (not_hasCrashed_of_not_executes nobody) registry world
          call with ⟨account, obeys, balances⟩
        exact ⟨account, .poll_executing obeys balances fun other executes =>
          absurd executes (nobody other)⟩
    | isTold polled asked =>
        exact ⟨account,
          accounted.poll_bystander (congrArg Situation.session polled) asked executes⟩

end Steps

/-- In every course of a job the session agrees with the account of the call that executes the
job. -/
theorem account_courseLaw (setting : Setting) (configuration : Configuration) (context : Context)
    (mayReject : Session → Prop) :
    Machine.CourseLaw (· = configuration.runJob setting context) mayReject
      fun trace session (stages : Nat → Option (Stage ω JobStatus)) =>
        (∃ account, AccountedBy account trace session stages) ∧
          ∃ owner, JobState setting configuration context
            (∃ session, mayReject session ∧ session.control.status.isActive) trace session stages
            owner where
  poll := by
    rintro trace session stages ⟨⟨account, accounted⟩, owner, state⟩ call stage hasStage registry
      world
    exact ⟨accounted.poll state hasStage registry world,
      state.exists_poll hasStage registry world⟩
  spawn := by
    rintro trace session stages ⟨⟨account, accounted⟩, owner, state⟩ program isJob call isNew
    exact ⟨⟨account, accounted.spawn state isNew _⟩,
      (job_courseLaw setting configuration context mayReject).spawn ⟨owner, state⟩ isJob isNew⟩
  signal := by
    rintro trace session stages ⟨⟨account, accounted⟩, holds⟩ signal
    have onward := Session.Onward.mapControl session fun control => .act control signal
    exact ⟨⟨account, accounted.transfer rfl onward.hasRun⟩,
      (job_courseLaw setting configuration context mayReject).signal holds signal⟩
  listen := by
    rintro trace session stages ⟨⟨account, accounted⟩, holds⟩ listeners
    exact ⟨⟨account, accounted.transfer rfl id⟩,
      (job_courseLaw setting configuration context mayReject).listen holds listeners⟩
  reject := by
    rintro trace session stages ⟨⟨account, accounted⟩, holds⟩ may now
    exact ⟨⟨account, accounted.transfer (session.reject_results now) .of_reject⟩,
      (job_courseLaw setting configuration context mayReject).reject holds may now⟩

/-- What a run leaves that has brought its job to its end. -/
structure Session.Concludes (asked : List Request) (session : Session) : Prop where
  verdict : session.result.verdict.isSome
  stop : session.result.stop.isSome
  /-- Every script that ran has been completed, even where an element has not. -/
  scripts {script : ScriptResult} (holds : session.result.HoldsScript script) :
    script.verdict.isSome ∧ script.stop.isSome ∧ script.duration.isSome
  elements (noCrash : ¬HasCrashed asked) {inner : ElementResult}
    (holds : session.result.Holds inner) :
    inner.verdict.isSome ∧ inner.stop.isSome ∧ inner.duration.isSome
  /-- A capability that took the run down broke off the visits that were open, and no others. -/
  brokenOff (crashed : HasCrashed asked) :
    ElementResult.BrokenOff session.result.results

theorem ElementResult.AsTold.scripts {asked : List Request} {results : List ElementResult}
    (asTold : AsTold asked results) {top : ElementResult} (topMem : top ∈ results)
    {script : ScriptResult} (holds : top.HoldsScript script) : script.Concluded := by
  by_cases crash : HasCrashed asked
  · exact (asTold.brokenOff crash).script_of_holds topMem holds
  · exact (asTold.concluded crash top topMem).script_of_holds holds

theorem ElementResult.AsTold.concludes {asked : List Request} {session : Session}
    (asTold : AsTold asked session.result.results) {status : JobStatus}
    (ended : session.result.Ended status) : session.Concludes asked where
  verdict := ended.verdict
  stop := ended.stop
  scripts := by
    rintro script ⟨top, topMem, holds⟩
    rcases asTold.scripts topMem holds with ⟨verdict, stop, duration, -⟩
    exact ⟨verdict, stop, duration⟩
  elements := by
    rintro noCrash inner ⟨top, topMem, holds⟩
    rcases (asTold.concluded noCrash top topMem).of_holds holds with ⟨verdict, stop, duration, -⟩
    exact ⟨verdict, stop, duration⟩
  brokenOff := asTold.brokenOff

theorem Session.HasRun.isTerminal {session : Session} (hasRun : session.HasRun) :
    session.control.status.isTerminal := by
  rcases hasRun with finished | interrupted
  · rw [finished]
    rfl
  · rw [interrupted]
    rfl

/-- A session whose job has been brought to its end shows results as told. -/
theorem Session.Balances.asTold_of_hasRun {asked : List Request} {session : Session}
    {account : Account} (balances : session.Balances asked account) (hasRun : session.HasRun) :
    ElementResult.AsTold asked session.result.results := by
  cases isOver : account.isOver with
  | true => exact balances.isOver isOver
  | false => exact absurd hasRun (balances.underWay isOver).2.1

namespace Machine

variable {place : Nat} {mayReject : Session → Prop} {first last : Machine ω JobStatus}
  {trace : List Asked}

/-- Once a run has brought its job to its end, nothing in the result is left open but what was open
when a capability took the run down. The run tells of a crash if and only if there was one. -/
theorem Course.job_concluded (opens : first.Opens place configuration)
    (course : Course place (· = configuration.runJob setting context) mayReject first trace last) :
    (∃ session, (last.view place).session = some session ∧
      (session.HasRun → session.Concludes (trace.map Asked.request))) ∧
      (configuration.run setting context).Obeys accounting .initial fun ran reached =>
        (ran.ending = .crashed ↔ reached.crashed = true) := by
  refine ⟨?_, (configuration.run_accounts setting context).imp fun _ _ accounts =>
    accounts.crashed_iff⟩
  rcases opens.session with ⟨listeners, hasOpened⟩
  rcases opens.initial _ with ⟨opened, isOpened, state⟩
  obtain rfl := Option.some.inj (hasOpened.symm.trans isOpened)
  have fresh := configuration.jobSession_fresh listeners
  have begins : AccountedBy .initial [] (configuration.jobSession listeners)
      (first.view place).stages :=
    ⟨fresh.balances List.not_mem_nil, fun ⟨made, madeMem, _⟩ => absurd madeMem List.not_mem_nil⟩
  rcases (account_courseLaw setting configuration context mayReject).run [] course hasOpened
    ⟨⟨_, begins⟩, none, state⟩ with ⟨session, hasSession, ⟨account, accounted⟩, owner, atLast⟩
  refine ⟨session, hasSession, fun hasRun => ?_⟩
  rcases atLast.phase.over_of_isTerminal hasRun.isTerminal with ⟨told, isOver⟩ | rejected
  · exact (accounted.balances.asTold_of_hasRun hasRun).concludes isOver.result
  · simp [Session.HasRun, rejected.status] at hasRun

/-- In the small job every element is complete. -/
theorem sample_job_concluded :
    ∃ session, (((Machine.sample.spawn 0 .sample).poll 0).view 0).session = some session ∧
      session.result.results.map ElementResult.elementId = ["a", "b"] ∧
        ∀ inner, session.result.Holds inner →
          inner.verdict.isSome ∧ inner.stop.isSome ∧ inner.duration.isSome := by
  let last := (Machine.sample.spawn 0 .sample).poll 0
  have course : Course 0 (· = .sample) (fun _ => False) Machine.sample _ last :=
    .step (.step .start (.spawn rfl)) (.poll rfl)
  have seen : (last.view 0).session.map (fun session =>
      (session.control.status, session.result.results.map ElementResult.elementId)) =
        some (.finished, ["a", "b"]) := by decide +kernel
  have noCrash : ¬HasCrashed (List.map Asked.request
      ([] ++ [] ++ (Machine.sample.spawn 0 .sample).asks 0)) := by decide +kernel
  rcases (Course.job_concluded Machine.sample_opens course).1 with ⟨session, hasSession, concludes⟩
  rw [hasSession] at seen
  rcases Prod.mk.inj (Option.some.inj seen) with ⟨finished, ids⟩
  exact ⟨session, hasSession, ids, fun inner holds =>
    (concludes (.inl finished)).elements noCrash holds⟩

end Machine

/-! ### A capability that takes its run down -/

/-- A configuration of two elements, the second of which has a script that calls a backend. -/
def Configuration.calling : Configuration where
  id := "c"
  name := "Calling"
  environment := none
  release := none
  elements :=
    [⟨"a", "A", 1, .automatic, false, [], [], [], [],
        some ⟨"s", "S", 0, .many, false, false, .predecessor, false⟩⟩,
      ⟨"b", "B", 2, .automatic, false, [],
        [⟨"t", "T", 1, [⟨"x", 1, .action ⟨"X", [⟨"m", "mock", some "panic", none⟩], [], none⟩⟩]⟩],
        [], [], some ⟨"s", "S", 0, .many, false, false, .predecessor, false⟩⟩]

namespace Machine

/-- The program of a job whose backend is called. -/
def callingProgram : Program JobStatus :=
  Configuration.calling.runJob ⟨⟨["mock"], [], false, false⟩, 0, true⟩ (.ofProperties [])

/-- A machine for that job on which the backend takes the run down. -/
def calling : Machine Unit JobStatus :=
  ((Machine.initial (Registry.empty.withBackend "mock" fun _ => .crash)
    (.initial 0 .empty ())).openSession (Configuration.calling.jobSession [])).1

/-- A backend that takes its run down leaves the element that called it without a verdict and
without an end, although its job is over. -/
theorem calling_leaves_open :
    ∃ trace last session inner, Course 0 (· = callingProgram) (fun _ => False) calling trace last ∧
      calling.Opens 0 Configuration.calling ∧
      (last.view 0).session = some session ∧ session.control.status = .interrupted ∧
      session.result.Holds inner ∧
      inner.verdict = none ∧ inner.stop = none ∧ inner.duration = none := by
  let last := (calling.spawn 0 callingProgram).poll 0
  have course : Course 0 (· = callingProgram) (fun _ => False) calling _ last :=
    .step (.step .start (.spawn rfl)) (.poll rfl)
  have opens : calling.Opens 0 Configuration.calling :=
    Machine.openSession_opens _ _ _ (by simp [Machine.initial])
  have isInterrupted : (last.session 0).control.status = .interrupted := by decide +kernel
  have hasSecond : ((last.session 0).result.results[1]?).any fun inner =>
      inner.verdict.isNone && inner.stop.isNone && inner.duration.isNone := by decide +kernel
  rcases (Option.any_eq_true _ _).mp hasSecond with ⟨inner, isSecond, isOpen⟩
  simp only [Bool.and_eq_true, Option.isNone_iff_eq_none] at isOpen
  exact ⟨_, last, last.session 0, inner, course, opens, rfl, isInterrupted,
    ⟨inner, List.mem_of_getElem? isSecond, .itself⟩, isOpen.1.1, isOpen.1.2, isOpen.2⟩

end Machine

end TestEngine
