import TestEngine.Proofs.Job.State
import TestEngine.Proofs.Machine.Chronicle
import TestEngine.Proofs.Walk.Completeness
import TestEngine.Proofs.Walk.Unwinding

/-!
# Growth of a job's result

Whoever looks at the result of a job twice finds at the path of a result what has become of it: a
result whose visit was over is the same, and one whose visit went on has only been added to. Nothing
but the call that executes the job touches the results, and it ends the job with what it has
published last.
-/

namespace TestEngine

variable {ω : Type} {setting : Setting} {configuration : Configuration} {context : Context}

/-! ### Sessions that have grown -/

/-- A session under way whose results have grown from those of an earlier result. -/
structure Session.GrowsFrom (snapshot : ConfigurationResult) (session : Session) : Prop where
  wasOpen : snapshot.verdict = none
  isOpen : session.result.verdict = none
  grow : ElementResult.AllGrow snapshot.results session.result.results

/-- A session whose result comes from an earlier one. -/
def Session.ComesFrom (snapshot : ConfigurationResult) (session : Session) : Prop :=
  snapshot.Reaches session.result

theorem Session.GrowsFrom.comesFrom {snapshot : ConfigurationResult} {session : Session}
    (grows : session.GrowsFrom snapshot) : session.ComesFrom snapshot :=
  .grows grows.wasOpen grows.isOpen grows.grow

theorem Session.ComesFrom.growsFrom {snapshot : ConfigurationResult} {session : Session}
    (comes : session.ComesFrom snapshot) (isOpen : session.result.verdict = none) :
    session.GrowsFrom snapshot :=
  ⟨(comes.grow_of_none isOpen).1, isOpen, (comes.grow_of_none isOpen).2⟩

theorem Session.finalResult_spec (session : Session) (status : JobStatus)
    (now : Calendar.Instant) :
    (session.finalResult status now).results = session.result.results ∧
      (session.finalResult status now).verdict.isSome := by
  rw [finalResult, ConfigurationResult.finish_eq]
  exact ⟨rfl, rfl⟩

/-- Whoever finalizes a job attaches the traces to what has been published, and nothing else. -/
theorem Session.GrowsFrom.finalize {snapshot : ConfigurationResult} {session : Session}
    (grows : session.GrowsFrom snapshot) (status : JobStatus) (now : Calendar.Instant)
    (cache : TraceCache) : (session.finalize status now cache).1.ComesFrom snapshot := by
  rw [Session.finalize]
  split
  · exact grows.comesFrom
  · rcases session.finalResult_spec status now with ⟨sameResults, judged⟩
    exact .ends grows.wasOpen judged (sameResults ▸ grows.grow) Trace.attach_fills rfl

/-- The run of a job lets its results grow, and what its end leaves comes from them. -/
theorem growth_chronicleLaw (snapshot : ConfigurationResult) :
    ChronicleLaw ω (Session.GrowsFrom snapshot) (Session.ComesFrom snapshot) where
  onward grows onward :=
    ⟨grows.wasOpen, onward.verdict.trans grows.isOpen, onward.results ▸ grows.grow⟩
  overOnward comes onward := comes.congr onward.verdict onward.results
  publish grows _ grow := ⟨grows.wasOpen, grows.isOpen, grows.grow.trans grow⟩
  endJob := by
    intro registry session world ending grows
    have onward := (session.statusAfter_spec ending).1
    have stillGrows : Session.GrowsFrom snapshot (session.statusAfter ending).1 :=
      ⟨grows.wasOpen, onward.verdict.trans grows.isOpen, onward.results ▸ grows.grow⟩
    exact stillGrows.finalize _ _ _

/-! ### Jobs that have grown -/

/-- The result of a job comes from a snapshot, and the call that executes the job lets it grow. -/
structure GrownFrom (snapshot : ConfigurationResult) (trace : List Asked) (session : Session)
    (stages : Nat → Option (Stage ω JobStatus)) : Prop where
  comes : session.ComesFrom snapshot
  executing {call : Nat} {stage : Stage ω JobStatus} (executes : Executes trace call)
    (hasStage : stages call = some stage) :
    stage.Chronicles (fun _ reached => reached.isOver = true) (Session.GrowsFrom snapshot)
      (Session.ComesFrom snapshot) session

/-- Whatever the answers to its requests are, a walk publishes only what has grown from what it has
published before, and does not end its job. -/
theorem Configuration.run_onlyGrows (setting : Setting) (configuration : Configuration)
    (context : Context) :
    (configuration.run setting context).Obeys chronicling .initial fun _ reached =>
      reached.isOver = false := by
  refine (configuration.run_unwinds setting context).imp fun ran reached unwinds => ?_
  cases unwinds with
  | settled => rfl
  | unwound => rfl
  | crashed _ untold => exact untold.2

theorem Configuration.finishJob_chronicles (setting : Setting) (configuration : Configuration)
    (context : Context) :
    (configuration.run setting context >>= fun ran => Program.request (.endJob ran.ending)).Obeys
      chronicling .initial fun _ reached => reached.isOver = true := by
  refine Program.obeys_bind.mpr ((configuration.run_onlyGrows setting context).imp ?_)
  exact fun _ _ underWay => ⟨underWay, fun _ => rfl⟩

section Steps

variable {snapshot : ConfigurationResult} {mayOverrule : Prop} {trace : List Asked}
  {session after : Session} {stages : Nat → Option (Stage ω JobStatus)} {owner : Option Nat}
  {call : Nat} {stage : Stage ω JobStatus}

theorem GrownFrom.transfer (grown : GrownFrom snapshot trace session stages)
    (sameVerdict : after.result.verdict = session.result.verdict)
    (sameResults : after.result.results = session.result.results) :
    GrownFrom snapshot trace after stages where
  comes := grown.comes.congr sameVerdict sameResults
  executing executes hasStage :=
    (grown.executing executes hasStage).transfer sameResults
      (fun grows => ⟨grows.wasOpen, sameVerdict.trans grows.isOpen, sameResults ▸ grows.grow⟩)
      fun comes => comes.congr sameVerdict sameResults

theorem Stage.Chronicles.comesFrom {condition : JobStatus → Chronicle → Prop}
    (chronicles : stage.Chronicles condition (Session.GrowsFrom snapshot)
      (Session.ComesFrom snapshot) session) : session.ComesFrom snapshot := by
  rcases chronicles with ⟨chronicle, -, bears⟩
  cases isOver : chronicle.isOver with
  | false => exact (bears.underWay isOver).2.comesFrom
  | true => exact bears.isOver isOver

theorem Session.Fresh.poll_chronicles (fresh : session.Fresh) (comes : session.ComesFrom snapshot)
    (registry : Registry ω) (world : World ω) :
    let stage : Stage ω JobStatus := .ready (configuration.runJob setting context)
    let after := stage.poll registry session world
    after.stage.Chronicles (fun _ reached => reached.isOver = true) (Session.GrowsFrom snapshot)
      (Session.ComesFrom snapshot) after.session := by
  rcases fresh.begin world.now with ⟨begun, begins, underWay, noResults, -⟩
  have grows := comes.growsFrom fresh.verdict
  have begunGrows : begun.GrowsFrom snapshot :=
    ⟨grows.wasOpen, underWay.verdict, noResults ▸ fresh.results ▸ grows.grow⟩
  have chronicles : Program.Chronicles (fun _ reached => reached.isOver = true)
      (Session.GrowsFrom snapshot) (Session.ComesFrom snapshot) begun
      (configuration.run setting context >>= fun ran => Program.request (.endJob ran.ending)) :=
    ⟨.initial, configuration.finishJob_chronicles setting context,
      fun _ => ⟨noResults, begunGrows⟩, fun isOver => nomatch isOver⟩
  have polled := ((growth_chronicleLaw snapshot).pollLaw registry _).advance 0 _ world chronicles
  simp only [Stage.poll, Configuration.runJob_eq, Program.advance, Request.carryOut, begins]
  exact polled.1

theorem GrownFrom.poll_bystander (grown : GrownFrom snapshot trace session stages)
    {registry : Registry ω} {world : World ω}
    (sameSession : (stage.poll registry session world).session = session)
    (onlyBegins : ∀ made ∈ stage.asks registry call session world, made.request = .beginJob)
    (bystands : ¬Executes trace call) :
    GrownFrom snapshot (trace ++ stage.asks registry call session world)
      (stage.poll registry session world).session
      (Function.update stages call (some (stage.poll registry session world).stage)) where
  comes := by
    rw [sameSession]
    exact grown.comes
  executing {other otherStage} executes hasStage := by
    rw [sameSession]
    have executed := executes.of_begins onlyBegins
    have otherNe : other ≠ call := by
      rintro rfl
      exact bystands executed
    rw [Function.update_of_ne otherNe] at hasStage
    exact grown.executing executed hasStage

theorem GrownFrom.poll_executing {registry : Registry ω} {world : World ω}
    (polled : (stage.poll registry session world).stage.Chronicles
      (fun _ reached => reached.isOver = true) (Session.GrowsFrom snapshot)
      (Session.ComesFrom snapshot) (stage.poll registry session world).session)
    (onlyOne : ∀ other, Executes trace other → other = call) :
    GrownFrom snapshot (trace ++ stage.asks registry call session world)
      (stage.poll registry session world).session
      (Function.update stages call (some (stage.poll registry session world).stage)) where
  comes := polled.comesFrom
  executing {other otherStage} executes hasStage := by
    have isCall : other = call := by
      by_contra otherNe
      have executed := (executes_append.mp executes).resolve_right (not_executes_asks otherNe)
      exact otherNe (onlyOne other executed)
    rw [isCall, Function.update_self] at hasStage
    exact Option.some.inj hasStage ▸ polled

theorem GrownFrom.poll (grown : GrownFrom snapshot trace session stages)
    (state : JobState setting configuration context mayOverrule trace session stages owner)
    (hasStage : stages call = some stage) (registry : Registry ω) (world : World ω) :
    GrownFrom snapshot (trace ++ stage.asks registry call session world)
      (stage.poll registry session world).session
      (Function.update stages call (some (stage.poll registry session world).stage)) := by
  by_cases executes : Executes trace call
  · have polled := (growth_chronicleLaw snapshot).poll (grown.executing executes hasStage) registry
      world
    have isOwner := (state.executed call).mp executes
    refine GrownFrom.poll_executing polled fun other otherExecutes => ?_
    exact Option.some.inj (((state.executed other).mp otherExecutes).symm.trans isOwner)
  · have notOwner : owner ≠ some call := mt (state.executed call).mpr executes
    cases state.bystands notOwner hasStage registry world with
    | begins fresh unowned isReady =>
        obtain rfl := unowned
        obtain rfl := isReady
        -- From here on this call executes the job, and no other one.
        refine GrownFrom.poll_executing (fresh.poll_chronicles grown.comes registry world)
          fun other otherExecutes => ?_
        exact nomatch (state.executed other).mp otherExecutes
    | isTold polled asked =>
        exact grown.poll_bystander (congrArg Situation.session polled) asked executes

end Steps

/-- In every course of a job the result comes from any snapshot that it once came from. -/
theorem growth_courseLaw (setting : Setting) (configuration : Configuration) (context : Context)
    (mayReject : Session → Prop) (snapshot : ConfigurationResult) :
    Machine.CourseLaw (· = configuration.runJob setting context) mayReject
      fun trace session (stages : Nat → Option (Stage ω JobStatus)) =>
        GrownFrom snapshot trace session stages ∧
          ∃ owner, JobState setting configuration context
            (∃ session, mayReject session ∧ session.control.status.isActive) trace session stages
            owner where
  poll := by
    rintro trace session stages ⟨grown, owner, state⟩ call stage hasStage registry world
    exact ⟨grown.poll state hasStage registry world, state.exists_poll hasStage registry world⟩
  spawn := by
    rintro trace session stages ⟨grown, owner, state⟩ program isJob call isNew
    refine ⟨⟨grown.comes, fun {other stage} executes hasStage => ?_⟩,
      (job_courseLaw setting configuration context mayReject).spawn ⟨owner, state⟩ isJob isNew⟩
    have otherNe : other ≠ call := by
      rintro rfl
      exact state.phase.stages_ne_none ((state.executed other).mp executes) isNew
    rw [Function.update_of_ne otherNe] at hasStage
    exact grown.executing executes hasStage
  signal := by
    rintro trace session stages ⟨grown, holds⟩ signal
    exact ⟨grown.transfer rfl rfl,
      (job_courseLaw setting configuration context mayReject).signal holds signal⟩
  listen := by
    rintro trace session stages ⟨grown, holds⟩ listeners
    exact ⟨grown.transfer rfl rfl,
      (job_courseLaw setting configuration context mayReject).listen holds listeners⟩
  reject := by
    rintro trace session stages ⟨grown, holds⟩ may now
    refine ⟨grown.transfer ?_ ?_,
      (job_courseLaw setting configuration context mayReject).reject holds may now⟩
    · rw [Session.reject]
      split <;> rfl
    · exact session.reject_results now

/-- What has grown from anything is a snapshot that everything later grows from. -/
theorem GrownFrom.snapshot {snapshot : ConfigurationResult} {trace : List Asked}
    {session : Session} {stages : Nat → Option (Stage ω JobStatus)}
    (grown : GrownFrom snapshot trace session stages) :
    GrownFrom session.result trace session stages where
  comes := .refl _
  executing executes hasStage :=
    (grown.executing executes hasStage).transfer rfl
      (fun grows => ⟨grows.isOpen, grows.isOpen, .refl _⟩) fun _ => .refl _

namespace Machine

variable {place : Nat} {mayReject : Session → Prop} {first middle last : Machine ω JobStatus}
  {before after : List Asked}

/-- Of any two looks at the result of a job the later one shows what has become of the earlier, and
so it is from each publication of the walk to the next. -/
theorem Course.results_grow (opens : first.Opens place configuration)
    (earlier : Course place (· = configuration.runJob setting context) mayReject first before
      middle)
    (later : Course place (· = configuration.runJob setting context) mayReject middle after last) :
    (∃ session other, (middle.view place).session = some session ∧
      (last.view place).session = some other ∧ session.result.Extends other.result) ∧
      (configuration.run setting context).Obeys chronicling .initial fun _ reached =>
        reached.isOver = false := by
  refine ⟨?_, configuration.run_onlyGrows setting context⟩
  rcases opens.initial _ with ⟨opened, hasOpened, fresh⟩
  have begins : GrownFrom opened.result [] opened (first.view place).stages :=
    ⟨.refl _, fun ⟨made, madeMem, _⟩ => absurd madeMem List.not_mem_nil⟩
  rcases (growth_courseLaw setting configuration context mayReject _).run [] earlier hasOpened
    ⟨begins, none, fresh⟩ with ⟨session, hasSession, grown, state⟩
  rcases (growth_courseLaw setting configuration context mayReject _).run _ later hasSession
    ⟨grown.snapshot, state⟩ with ⟨other, hasOther, grownFurther, -⟩
  exact ⟨session, other, hasSession, hasOther, grownFurther.comes.extends⟩

end Machine

/-- A configuration of two elements, the second of which waits for a tester. -/
def Configuration.attended : Configuration where
  id := "c"
  name := "Attended"
  environment := none
  release := none
  elements :=
    [⟨"a", "A", 1, .automatic, false, [], [], [], [],
        some ⟨"s", "S", 0, .many, false, false, .predecessor, false⟩⟩,
      ⟨"m", "M", 2, .manual, false, [], [], [], [],
        some ⟨"s", "S", 0, .many, false, false, .predecessor, false⟩⟩]

namespace Machine

/-- Between the two looks at the result the tester lets the job go on. -/
theorem sample_results_grow :
    ∃ middle last : Machine Unit JobStatus, ∃ session other,
      (middle.view 0).session = some session ∧ (last.view 0).session = some other ∧
        session.result.Extends other.result ∧
          session.result.results.map (fun result => result.stop.isSome) = [true, false] ∧
            other.result.results.map (fun result => result.stop.isSome) = [true, true] := by
  let first : Machine Unit JobStatus :=
    ((Machine.initial .empty (.initial 0 .empty ())).openSession
      (Configuration.attended.jobSession ["client"])).1
  let program := Configuration.attended.runJob .sample (.ofProperties [])
  let middle := (first.spawn 0 program).poll 0
  let last := (middle.modifyControl 0 Control.resume).poll 0
  have opens : first.Opens 0 Configuration.attended :=
    openSession_opens _ _ _ (by simp [Machine.initial])
  have earlier : Course 0 (· = program) (fun _ => False) first _ middle :=
    .step (.step .start (.spawn rfl)) (.poll rfl)
  have waits : ((middle.view 0).stages 0).isSome := by decide +kernel
  rcases Option.isSome_iff_exists.mp waits with ⟨stage, hasStage⟩
  have later : Course 0 (· = program) (fun _ => False) middle _ last :=
    .step (.step .start (.signal .resume)) (.poll hasStage)
  rcases (Course.results_grow opens earlier later).1 with
    ⟨session, other, hasSession, hasOther, becomes⟩
  have stops : (middle.view 0).session.map (fun session =>
      session.result.results.map fun result => result.stop.isSome) = some [true, false] := by
    decide +kernel
  have otherStops : (last.view 0).session.map (fun session =>
      session.result.results.map fun result => result.stop.isSome) = some [true, true] := by
    decide +kernel
  rw [hasSession] at stops
  rw [hasOther] at otherStops
  exact ⟨middle, last, session, other, hasSession, hasOther, becomes, Option.some.inj stops,
    Option.some.inj otherStops⟩

end Machine

end TestEngine
