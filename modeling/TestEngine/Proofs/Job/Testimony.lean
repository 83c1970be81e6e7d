import TestEngine.Proofs.Job.Growth
import TestEngine.Proofs.Job.Verdict
import TestEngine.Proofs.Machine.Trace
import TestEngine.Proofs.Walk.Testimony

/-!
# What jobs show of aborted scripts

Whatever clients and capabilities do, at every moment everything that a job shows is attested: an
element has the verdict of an aborted script exactly if its tester has delivered a finished result
with that verdict. The job itself never has it, for the elements below a job leave it passed or
failed.
-/

namespace TestEngine

variable {ω : Type} {setting : Setting} {configuration : Configuration} {context : Context}

/-! ### What sessions show -/

/-- Attaching traces changes neither the verdicts nor what testers tell. -/
theorem ElementResult.Attested.visitTraces {σ : Type} {visit : TraceVisit σ}
    {result : ElementResult} (attested : result.Attested) (state : σ) :
    (result.visitTraces visit state).1.Attested := by
  induction attested generalizing state with
  | @intro result aborted leaf results ih =>
      have children (after : ElementResult)
          (afterMem : after ∈ (result.visitTraces visit state).1.results) :
          ∃ before ∈ result.results, ∃ state, after = (before.visitTraces visit state).1 := by
        cases result
        exact ElementResult.mem_visitAll afterMem
      refine .intro ?_ ?_ ?_
      · cases result
        exact aborted
      · intro hasTester
        cases result
        rcases leaf hasTester with ⟨rfl, rfl⟩
        simp [ElementResult.visitTraces, ElementResult.visitAll, ScriptResult.visitAll]
      · intro after afterMem
        rcases children after afterMem with ⟨before, beforeMem, state, rfl⟩
        exact ih before beforeMem state

/-- A session of which everything that is shown is attested. -/
def Session.ShowsAttested (session : Session) : Prop :=
  ∀ result ∈ session.result.results, result.Attested

namespace Session.ShowsAttested

variable {before after : Session}

theorem transfer (shows : before.ShowsAttested)
    (sameResults : after.result.results = before.result.results) : after.ShowsAttested := by
  intro result resultMem
  rw [sameResults] at resultMem
  exact shows result resultMem

theorem finalize (shows : before.ShowsAttested) (status : JobStatus) (now : Calendar.Instant)
    (cache : TraceCache) : (before.finalize status now cache).1.ShowsAttested := by
  rw [Session.finalize]
  split
  · exact shows
  · intro result resultMem
    rcases ElementResult.mem_visitAll resultMem with ⟨shown, shownMem, state, rfl⟩
    rw [finalResult, ConfigurationResult.finish_eq] at shownMem
    exact (shows shown shownMem).visitTraces state

end Session.ShowsAttested

theorem Session.results_begin? {session begun : Session} {now : Calendar.Instant}
    (begins : session.begin? now = some begun) :
    begun.result.results = session.result.results := by
  rcases Option.map_eq_some_iff.mp begins with ⟨running, -, rfl⟩
  rfl

/-- Whatever a request is that shows only attested results, the session goes on showing such. -/
theorem Session.ShowsAttested.carryOut {session : Session} (shows : session.ShowsAttested)
    {request : Request} (allowed : (showing ElementResult.Attested).allows () request)
    (registry : Registry ω) (world : World ω) :
    (request.carryOut registry session world).session.ShowsAttested := by
  have onward (ordinary : request.isOrdinary) :=
    request.carryOut_onward registry session world ordinary
  cases request with
  | beginJob =>
      rw [Request.carryOut]
      split
      · rename_i begun begins
        exact shows.transfer (Session.results_begin? begins)
      · exact shows
  | endJob ending =>
      have ended := (session.statusAfter_spec ending).1
      exact (shows.transfer ended.results).finalize _ _ _
  | publish results => exact allowed
  | _ => exact shows.transfer (onward rfl).results

/-- A task that shows only attested results goes on doing so whenever it is polled. -/
theorem attested_pollLaw (registry : Registry ω) :
    PollLaw registry
      (fun session (stage : Stage ω JobStatus) => session.ShowsAttested ∧
        stage.ObeysFrom (showing ElementResult.Attested) (fun _ _ => True) ())
      (fun session program => session.ShowsAttested ∧
        program.Shows ElementResult.Attested fun _ => True) fun _ _ => True where
  start kept := kept
  finish kept := kept
  ask := by
    rintro session world request next ⟨shows, allowed, goesOn⟩
    have showsOn := shows.carryOut allowed registry world
    rw [Carried.Keeps]
    refine ⟨trivial, ?_⟩
    split
    · exact ⟨showsOn, goesOn _⟩
    · exact ⟨showsOn, goesOn⟩
  resume := by
    rintro session world request wait next ⟨shows, goesOn⟩
    have showsOn := shows.transfer (wait.resume_onward session world).results
    rw [Carried.Keeps]
    split
    · exact ⟨showsOn, goesOn _⟩
    · exact ⟨showsOn, goesOn⟩

/-! ### Courses -/

/-- Every call that runs the job shows only attested results, and so does the job. -/
theorem attested_courseLaw (setting : Setting) (configuration : Configuration) (context : Context)
    (mayReject : Session → Prop) :
    Machine.CourseLaw (· = configuration.runJob setting context) mayReject
      fun _ session (stages : Nat → Option (Stage ω JobStatus)) =>
        session.ShowsAttested ∧ ∀ call stage, stages call = some stage →
          stage.ObeysFrom (showing ElementResult.Attested) (fun _ _ => True) () where
  poll := by
    rintro trace session stages ⟨shows, obey⟩ call stage hasStage registry world
    rcases ((attested_pollLaw registry).poll call stage world
      ⟨shows, obey call stage hasStage⟩).1 with ⟨showsOn, obeys⟩
    refine ⟨showsOn, fun other otherStage hasOther => ?_⟩
    rcases eq_or_ne other call with rfl | otherNe
    · rw [Function.update_self] at hasOther
      exact Option.some.inj hasOther ▸ obeys
    · rw [Function.update_of_ne otherNe] at hasOther
      exact obey other otherStage hasOther
  spawn := by
    rintro trace session stages ⟨shows, obey⟩ program rfl call isNew
    refine ⟨shows, fun other otherStage hasOther => ?_⟩
    rcases eq_or_ne other call with rfl | otherNe
    · rw [Function.update_self] at hasOther
      obtain rfl := Option.some.inj hasOther
      exact configuration.runJob_attests setting context
    · rw [Function.update_of_ne otherNe] at hasOther
      exact obey other otherStage hasOther
  signal := by
    rintro trace session stages ⟨shows, obey⟩ signal
    exact ⟨shows, obey⟩
  listen := by
    rintro trace session stages ⟨shows, obey⟩ listeners
    exact ⟨shows, obey⟩
  reject := by
    rintro trace session stages ⟨shows, obey⟩ - now
    exact ⟨shows.transfer (session.reject_results now), obey⟩

/-! ### Jobs -/

theorem ElementResult.Attested.of_holds {result inner : ElementResult} (attested : result.Attested)
    (holds : result.Holds inner) : inner.Attested := by
  induction holds with
  | itself => exact attested
  | deeper childMem _ ih =>
      cases attested with
      | intro aborted leaf results => exact ih (results _ childMem)

/-- A job has no verdict before its end, and has passed or failed then. -/
theorem JobPhase.verdict {mayOverrule : Prop} {session : Session}
    {stages : Nat → Option (Stage ω JobStatus)} {owner : Option Nat}
    (phase : JobPhase configuration mayOverrule session stages owner) :
    session.result.verdict = none ∨ session.result.verdict = some .passed ∨
      session.result.verdict = some .failed := by
  cases phase with
  | fresh fresh => exact .inl fresh.verdict
  | refused rejected => exact .inl rejected.verdict
  | overruled may hasStage owns => exact .inl owns.session.verdict
  | owned hasStage owns =>
      rcases owns.session with underWay | ⟨status, told, isOver⟩
      · exact .inl underWay.verdict
      · right
        rcases isOver.how with ⟨finished, -⟩ | interrupted
        · rw [(isOver.result.finished finished).2.verdict]
          cases session.result.results.any ElementResult.isFailed <;> simp
        · exact .inr (isOver.result.interrupted interrupted).2

namespace Machine

variable {place : Nat} {mayReject : Session → Prop} {first last : Machine ω JobStatus}
  {trace : List Asked}

/-- At every moment a job has passed, has failed or has no verdict, and an element below it has the
verdict of an aborted script exactly if its tester's finished result has it. -/
theorem Course.aborted_by_testers (opens : first.Opens place configuration)
    (course : Course place (· = configuration.runJob setting context) mayReject first trace last) :
    ∃ session, (last.view place).session = some session ∧
      (session.result.verdict = none ∨ session.result.verdict = some .passed ∨
        session.result.verdict = some .failed) ∧
      ∀ inner, session.result.Holds inner →
        (inner.verdict = some .aborted ↔ inner.TellsAborted) := by
  rcases opens.jobState course with ⟨session, hasSession, owner, state⟩
  refine ⟨session, hasSession, state.phase.verdict, ?_⟩
  rcases opens.session with ⟨listeners, hasOpened⟩
  have nothingShown : (configuration.jobSession listeners).ShowsAttested := by
    intro result resultMem
    exact absurd resultMem List.not_mem_nil
  rcases (attested_courseLaw setting configuration context mayReject).run [] course hasOpened
      ⟨nothingShown, by simp [opens.noCalls]⟩ with ⟨other, hasOther, shows, -⟩
  obtain rfl := Option.some.inj (hasOther.symm.trans hasSession)
  rintro inner ⟨top, topMem, holds⟩
  cases (shows top topMem).of_holds holds with
  | intro aborted => exact aborted

/-- The attended job once its tester has delivered a finished result with a verdict. -/
def answered (verdict : Verdict) : Machine Unit JobStatus :=
  let opened := ((Machine.initial .empty (.initial 0 .empty ())).openSession
    (Configuration.attended.jobSession ["client"])).1
  let waiting := (opened.spawn 0 (Configuration.attended.runJob .sample (.ofProperties []))).poll 0
  (waiting.modifyControl 0
    (Signal.act (.interact ⟨some ⟨.finished, some verdict, none, none⟩⟩))).poll 0

/-- The tester's verdict on the attended job comes in a course of the job. -/
theorem course_answered (verdict : Verdict) :
    ∃ first trace, first.Opens 0 Configuration.attended ∧
      Course 0 (· = Configuration.attended.runJob .sample (.ofProperties [])) (fun _ => False) first
        trace (answered verdict) := by
  let first : Machine Unit JobStatus :=
    ((Machine.initial .empty (.initial 0 .empty ())).openSession
      (Configuration.attended.jobSession ["client"])).1
  let program := Configuration.attended.runJob .sample (.ofProperties [])
  let middle := (first.spawn 0 program).poll 0
  have opens : first.Opens 0 Configuration.attended :=
    openSession_opens _ _ _ (by simp [Machine.initial])
  have waits : ((middle.view 0).stages 0).isSome := by decide +kernel
  rcases Option.isSome_iff_exists.mp waits with ⟨stage, hasStage⟩
  have earlier : Course 0 (· = program) (fun _ => False) first _ middle :=
    .step (.step .start (.spawn rfl)) (.poll rfl)
  let told : Signal := .interact ⟨some ⟨.finished, some verdict, none, none⟩⟩
  have stillWaits : ((middle.modifyControl 0 told.act).view 0).stages 0 = some stage := hasStage
  exact ⟨first, _, opens, (earlier.step (.signal told)).step (.poll stillWaits)⟩

/-- The tester of the attended job finds that its element has failed. -/
theorem attended_aborted_by_testers :
    ∃ session, ((answered .failed).view 0).session = some session ∧
      session.result.verdict = some .failed ∧
        ∀ inner, session.result.Holds inner →
          (inner.verdict = some .aborted ↔ inner.TellsAborted) := by
  rcases course_answered .failed with ⟨first, trace, opens, course⟩
  rcases Course.aborted_by_testers opens course with ⟨session, hasSession, -, aborted⟩
  have failed : ((answered .failed).view 0).session.map (·.result.verdict) =
      some (some .failed) := by decide +kernel
  rw [hasSession] at failed
  exact ⟨session, hasSession, Option.some.inj failed, aborted⟩

/-- An element has the verdict of an aborted script if its tester's finished result has it. -/
theorem attended_is_aborted :
    ∃ first trace session inner, first.Opens 0 Configuration.attended ∧
      Course 0 (· = Configuration.attended.runJob .sample (.ofProperties [])) (fun _ => False) first
        trace (answered .aborted) ∧
      ((answered .aborted).view 0).session = some session ∧ session.result.Holds inner ∧
        inner.verdict = some .aborted := by
  rcases course_answered .aborted with ⟨first, trace, opens, course⟩
  have aborted : ((answered .aborted).view 0).session.any fun session =>
      session.result.results.any fun top => top.verdict = some .aborted := by
    decide +kernel
  rcases (Option.any_eq_true _ _).mp aborted with ⟨session, hasSession, anyAborted⟩
  rcases List.any_eq_true.mp anyAborted with ⟨top, topMem, isAborted⟩
  exact ⟨first, trace, session, top, opens, course, hasSession, ⟨top, topMem, .itself⟩,
    of_decide_eq_true isAborted⟩

end Machine

end TestEngine
