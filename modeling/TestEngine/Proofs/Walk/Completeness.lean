import TestEngine.Proofs.Machine.Course
import TestEngine.Proofs.Machine.Run
import TestEngine.Proofs.Walk.Soundness

/-!
# Completeness of walks

A task that walks a configuration shows what it has recorded so far in its session. Whatever
happens around the session meanwhile, a walk that is not cut short leaves a record of the whole
configuration there: nothing but the walk itself touches the results.
-/

namespace TestEngine

variable {ω : Type} {setting : Setting} {configuration : Configuration} {context : Context}

/-- A walk that has not ended its session's job, and whose results are those it has published. -/
def Configuration.EndsWalk (configuration : Configuration) (ran : ConfigurationRun)
    (standing : Standing) : Prop :=
  standing.ended = none ∧
    (ran.ending = .completed →
      ran.results = standing.published ∧ configuration.Walked standing.published)

def Stage.Walks (configuration : Configuration) (session : Session)
    (stage : Stage ω ConfigurationRun) : Prop :=
  stage.Follows (fun _ => True) configuration.EndsWalk (fun _ => True) (fun _ _ => True) session

/-- Of the session of a walk nothing has to be known but its results. -/
theorem walk_runLaw : RunLaw ω (fun _ => True) (fun _ => True) fun _ _ => True where
  onward _ _ := trivial
  publish _ _ := trivial
  endJob _ _ _ _ _ _ _ _ := trivial

theorem Configuration.run_walks (setting : Setting) (configuration : Configuration)
    (context : Context) {session : Session} (noResults : session.result.results = []) :
    (Stage.ready (configuration.run setting context) : Stage ω ConfigurationRun).Walks configuration
      session :=
  ⟨.initial, rfl, configuration.run_publishes setting context (fun _ => True) .initial rfl rfl,
    fun _ => ⟨⟨noResults, (nomatch ·)⟩, trivial⟩, fun _ _ => trivial⟩

/-- A walk that was not cut short has left a record of the configuration in its session. -/
theorem Stage.Walks.completed {session : Session} {ran : ConfigurationRun}
    (walks : (Stage.done ran : Stage ω ConfigurationRun).Walks configuration session)
    (completed : ran.ending = .completed) :
    session.result.results = ran.results ∧ configuration.Walked session.result.results := by
  rcases walks with ⟨standing, -, ⟨underWay, complete⟩, matched⟩
  rcases complete completed with ⟨sameResults, walked⟩
  have shows := (matched.underWay underWay).1
  exact ⟨shows.results.trans sameResults.symm, shows.results.symm ▸ walked⟩

namespace Machine

variable {place call : Nat} {mayReject : Session → Prop} {first last : Machine ω ConfigurationRun}
  {trace : List Asked}

/-- A walk that nobody else's tasks get in the way of goes on in every course. -/
theorem walk_courseLaw (configuration : Configuration) (call : Nat)
    (mayReject : Session → Prop) :
    CourseLaw (fun _ => False) mayReject
      fun _ session (stages : Nat → Option (Stage ω ConfigurationRun)) =>
        ∃ stage, stages = Function.update (fun _ => none) call (some stage) ∧
          stage.Walks configuration session :=
  sole_courseLaw call mayReject
    (fun _ stage registry world walks =>
      ((walk_runLaw.pollLaw registry fun _ _ ends => ends).poll call stage world walks).1)
    fun _ _ _ sameResults walks => walks.transfer sameResults id fun _ => id

/-- A walk that was not cut short has recorded every element of its configuration, whatever has
happened meanwhile. -/
theorem Course.walk_recorded {session : Session}
    (hasSession : (first.view place).session = some session)
    (noResults : session.result.results = [])
    (hasStages : (first.view place).stages =
      Function.update (fun _ => none) call (some (.ready (configuration.run setting context))))
    (course : Course place (fun _ => False) mayReject first trace last) {ran : ConfigurationRun}
    (returned : (last.view place).stages call = some (.done ran))
    (completed : ran.ending = .completed) :
    ∃ session, (last.view place).session = some session ∧
      session.result.results = ran.results ∧ configuration.Recorded session.result.results := by
  rcases (walk_courseLaw configuration call mayReject).run [] course hasSession
    ⟨_, hasStages, configuration.run_walks setting context noResults⟩ with
    ⟨session, hasSession, stage, stages, walks⟩
  obtain rfl : stage = .done ran := by simpa [stages] using returned
  rcases walks.completed completed with ⟨sameResults, walked⟩
  exact ⟨session, hasSession, sameResults, walked.recorded⟩

/-- The walk of the small configuration records both of its elements. -/
theorem sample_walk_recorded :
    ∃ last : Machine Unit ConfigurationRun, ∃ session, (last.view 0).session = some session ∧
      session.result.results.map ElementResult.elementId = ["a", "b"] ∧
        Configuration.sample.Recorded session.result.results := by
  let opened : Machine Unit ConfigurationRun :=
    ((Machine.initial .empty (.initial 0 .empty ())).openSession .unattended).1
  let first := opened.spawn 0 (Configuration.sample.run .sample (.ofProperties []))
  have hasStages : (first.view 0).stages = Function.update (fun _ => none) 0
      (some (.ready (Configuration.sample.run .sample (.ofProperties [])))) :=
    congrArg View.stages (view_spawn _)
  have course : Course 0 (fun _ => False) (fun _ => False) first _ (first.poll 0) :=
    .step .start (.poll (congrFun hasStages 0))
  have ends : (((first.poll 0).view 0).stages 0).any fun stage =>
      stage.value?.any fun ran => ran.ending = .completed := by decide +kernel
  rcases (Option.any_eq_true _ _).mp ends with ⟨stage, hasStage, ended⟩
  rcases (Option.any_eq_true _ _).mp ended with ⟨ran, hasValue, completed⟩
  have returned : stage = .done ran := by
    cases stage with
    | done value => exact congrArg Stage.done (Option.some.inj hasValue)
    | ready program => exact nomatch hasValue
    | waiting wait next => exact nomatch hasValue
  rcases Course.walk_recorded rfl rfl hasStages course (returned ▸ hasStage)
    (of_decide_eq_true completed) with ⟨session, hasSession, -, recorded⟩
  refine ⟨_, session, hasSession, ?_, recorded⟩
  have ids : ((((first.poll 0).view 0).session).map fun session =>
      session.result.results.map ElementResult.elementId) = some ["a", "b"] := by decide +kernel
  rw [hasSession] at ids
  exact Option.some.inj ids

end Machine

end TestEngine
