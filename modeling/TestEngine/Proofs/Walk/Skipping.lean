import TestEngine.Proofs.Walk.Completeness
import TestEngine.Proofs.Walk.Throughout

/-!
# Skipping for the sake of dependencies

The walk looks at the tree as it is when it comes to an element, and a reader looks at the tree when
the walk is over. Both see the same siblings, so that an element heeds its dependencies when the
walk is over if it did so when its visit was, as `Visited.leftBy_heeds` says of every visit.
-/

namespace TestEngine

variable {α : Type}

/-! ### Results of visits -/

/-- Whoever ends a visit does not skip the element by that. -/
theorem ElementResult.not_skippedUnseen_finish {result : ElementResult}
    (seen : ¬result.SkippedUnseen) (now : Calendar.Instant) :
    ¬(result.finish now).SkippedUnseen := by
  rintro ⟨skipped, noManual⟩
  rw [finish, rollUp_eq] at noManual
  refine seen ⟨?_, noManual⟩
  simp only [finish, rollUp] at skipped
  split at skipped
  · exact skipped
  · split at skipped
    · cases skipped
    · rename_i notSkipped _
      cases hasVerdict : result.verdict with
      | none => simp [hasVerdict] at skipped
      | some verdict => simpa [hasVerdict] using skipped

theorem ElementResult.not_skippedUnseen_of_not_isSkipped {result : ElementResult}
    (notSkipped : ¬result.isSkipped) : ¬result.SkippedUnseen :=
  fun skipped => notSkipped (by simpa [isSkipped] using skipped.1)

/-- A tester who has an element skipped has been shown it. -/
theorem ElementResult.not_skippedUnseen_takeManual (result : ElementResult)
    (input : Option Interaction) : ¬(result.takeManual input).1.SkippedUnseen := by
  rw [takeManual]
  split
  · rintro ⟨⟨⟩, -⟩
  · split
    · rintro ⟨-, ⟨⟩⟩
    · rintro ⟨⟨⟩, -⟩
    · rintro ⟨⟨⟩, -⟩

theorem awaitManualResult_seen (setting : Setting) (site : Site) (result : ElementResult) :
    (awaitManualResult setting site result).Always fun taken => ¬taken.1.SkippedUnseen := by
  have failed (result : ElementResult) (message : String) :
      ¬(result.fail message).SkippedUnseen := fun skipped => nomatch skipped.1
  rw [awaitManualResult]
  split
  · exact .ask fun _ => .pure (failed _ _)
  · refine .ask fun start => .ask fun _ => .ask fun _ => .ask fun input => ?_
    cases input with
    | none => exact .ask fun _ => .pure (failed _ _)
    | some input =>
        exact .ask fun _ => .thenAny fun _ => .pure
          (ElementResult.not_skippedUnseen_takeManual _ input)

/-- An element that is visited is not skipped, whether the visit is cut short or not. -/
theorem runElement_seen (setting : Setting) (site : Site) (element : Element) (schema : Schema)
    (children : List Visitor) (context : Context) :
    (runElement setting site element schema children context).Always fun ran =>
      ∃ result, ran.result = some result ∧ ¬result.SkippedUnseen := by
  have lasting : ElementResult.Lasting fun result => ¬result.SkippedUnseen :=
    { below := fun _ _ seen => seen
      interrupted := fun _ _ _ skipped => nomatch skipped.1
      finish := fun _ stop seen => ElementResult.not_skippedUnseen_finish seen stop }
  refine runElement_leaves setting schema children lasting ?_ ?_
  · exact fun _ start => awaitManualResult_seen setting site _
  · intro _ start context
    have notSkipped : ¬(ElementResult.ofElement element (some schema) start).isSkipped := by
      simp [ElementResult.ofElement, ElementResult.isSkipped]
    have added (result : ElementResult) (script : ScriptResult) :
        ¬result.isSkipped → ¬(result.addScript script).isSkipped :=
      ElementResult.not_isSkipped_addScript script
    refine (runElementScripts_leaves setting schema added ?_ notSkipped).imp ?_
    · exact fun _ _ message => Bool.false_ne_true
    · exact fun ran => ElementResult.not_skippedUnseen_of_not_isSkipped

/-! ### Elements -/

/-- An element and all those below it heed their dependencies. -/
def Visited.HeedsThroughout (visited : Visited) : Prop :=
  ∀ inner, visited.Holds inner → inner.Heeds

/-- A way of visiting an element that leaves it, and all those below it, heeding their
dependencies unless it is cut short. -/
def Element.Heeding (element : Element) (visit : ElementVisit) : Prop :=
  ∀ site context, (visit site context).Always fun ran => ran.ending = .completed →
    ∃ result, ran.result = some result ∧
      Visited.HeedsThroughout ⟨site.isTop, site.siblings, element, result⟩

theorem Visited.leftBy_heeds (setting : Setting) : Visited.LeftBy setting Visited.Heeds := by
  apply Visited.leftBy_of_settled
  · intro isTop earlier element result settled schema isSchema authorRuns
    cases settled with
    | noSchema hasNone => exact nomatch hasNone.symm.trans isSchema
    | authorSkips hasSchema skips =>
        cases hasSchema.symm.trans isSchema
        exact absurd (by simpa using skips) authorRuns
    | heldBack hasSchema _ failure =>
        cases hasSchema.symm.trans isSchema
        dsimp only
        rw [failure]
        exact ⟨⟨rfl, rfl⟩, rfl, rfl, rfl⟩
  · intro element schema children site context hasSchema _ noFailure
    refine (runElement_seen setting site element schema children context).imp ?_
    rintro ran ⟨result, hasResult, seen⟩
    refine ⟨result, hasResult, ?_⟩
    intro other isSchema _
    cases hasSchema.symm.trans isSchema
    dsimp only
    rw [noFailure]
    exact seen

/-- Every visit leaves its element heeding its dependencies, and all those below it too. -/
theorem Element.visit_heeding (setting : Setting) (element : Element) :
    element.Heeding (element.visit setting) :=
  Element.visit_keeps (Visited.leftBy_heeds setting) element

theorem Configuration.run_always (setting : Setting) (configuration : Configuration)
    (context : Context) :
    (configuration.run setting context).Always fun ran => ran.ending = .completed →
      ∀ visited, configuration.Visits ran.results visited → visited.Heeds :=
  configuration.run_throughout (Visited.leftBy_heeds setting) context

/-! ### Visits that do nothing -/

/-- The protocol that allows everything and remembers what was asked. -/
def recording : Protocol (List Request) where
  allows _ _ := True
  after asked request _ := asked ++ [request]

theorem Program.Always.recorded {condition : α → Prop} {program : Program α}
    (always : program.Always condition) (asked : List Request) :
    program.Obeys recording asked fun value _ => condition value := by
  induction program generalizing asked with
  | done value => exact always
  | ask request next ih => exact ⟨True.intro, fun answer => ih answer (always answer) _⟩

/-- A visit that skips an element unseen asks for nothing but the time, before and after, and leaves
the context as it was. -/
def Element.SkipsIdly (visit : ElementVisit) : Prop :=
  ∀ site context, (visit site context).Obeys recording [] fun ran asked =>
    ∀ result, ran.result = some result → result.SkippedUnseen →
      ran.context = context ∧ asked = [.checkpoint, .now, .now, .publish (result.shownAt site)]

theorem Program.obeys_recording_ask {request : Request} {next : request.Answer → Program α}
    {asked : List Request} {condition : α → List Request → Prop}
    (rest : ∀ answer, (next answer).Obeys recording (asked ++ [request]) condition) :
    (Program.request request >>= next).Obeys recording asked condition :=
  ⟨True.intro, rest⟩

theorem settleElement_idle (site : Site) (element : Element) (context : Context)
    (judge : ElementResult → ElementResult) (schema : Option Schema) :
    (settleElement site element context judge schema).Obeys recording [.checkpoint]
      fun ran asked => ∀ result, ran.result = some result → result.SkippedUnseen →
        ran.context = context ∧
          asked = [.checkpoint, .now, .now, .publish (result.shownAt site)] := by
  refine Program.obeys_recording_ask fun start => ?_
  refine Program.obeys_recording_ask fun stop => ?_
  refine Program.obeys_recording_ask fun _ => ?_
  intro result hasResult _
  obtain rfl := Option.some.inj hasResult
  exact ⟨rfl, rfl⟩

theorem visitElement_skipsIdly (setting : Setting) (element : Element) (children : List Visitor) :
    Element.SkipsIdly (visitElement setting element children) := by
  intro site context
  refine Program.obeys_recording_ask fun goesOn => ?_
  cases goesOn with
  | false => exact fun result hasResult => nomatch hasResult
  | true =>
      rw [if_neg (by decide)]
      cases element.schema with
      | none => exact settleElement_idle site element context _ none
      | some schema =>
          dsimp only
          split
          · exact settleElement_idle site element context _ (some schema)
          · split
            · exact settleElement_idle site _ context _ (some schema)
            · -- An element that is visited is not skipped unseen, so nothing is to be shown.
              have visited := runElement_seen setting site element schema children context
              refine (visited.recorded _).imp ?_
              rintro ran asked ⟨result, hasResult, seen⟩ other hasOther skipped
              obtain rfl := Option.some.inj (hasResult.symm.trans hasOther)
              exact absurd skipped seen

theorem Element.visit_skipsIdly (setting : Setting) (element : Element) :
    Element.SkipsIdly (element.visit setting) := by
  rw [Element.visit_eq]
  exact visitElement_skipsIdly setting element _

/-! ### Walks -/

/-- How a walk has dealt with dependencies, as its tree of results tells. -/
structure Configuration.Skips (setting : Setting) (configuration : Configuration)
    (results : List ElementResult) : Prop where
  /-- Whether an element was skipped, and why, follows from the results of its siblings. -/
  law : ∀ visited, configuration.Visits results visited →
    ∀ schema, visited.element.schema = some schema →
      ¬(schema.skippable && visited.element.skip) → visited.SkipLaw schema
  /-- Whenever an element is skipped, nothing is run and no property is merged. -/
  idle : ∀ element : Element, Element.SkipsIdly (element.visit setting)

/-- A configuration of an element with two below it. Nothing says how to visit the first of them,
and the second depends on it. -/
def Configuration.dependent : Configuration where
  id := "c"
  name := "Dependent"
  environment := none
  release := none
  elements :=
    [⟨"p", "P", 1, .automatic, false,
      [⟨"y", "Y", 2, .automatic, false, [], [], [], [],
          some ⟨"s", "S", 1, .many, false, true, .predecessor, false⟩⟩,
        ⟨"x", "X", 1, .automatic, false, [], [], [], [], none⟩],
      [], [], [], some ⟨"s", "S", 0, .many, false, false, .predecessor, false⟩⟩]

namespace Machine

variable {ω : Type} {setting : Setting} {configuration : Configuration} {context : Context}
  {place call : Nat} {mayReject : Session → Prop} {first last : Machine ω ConfigurationRun}
  {trace : List Asked}

/-- The tree that a walk leaves which was not cut short tells which elements were skipped for the
sake of their dependencies, whatever has happened meanwhile. -/
theorem Course.walk_skips {session : Session}
    (hasSession : (first.view place).session = some session)
    (noResults : session.result.results = [])
    (hasStages : (first.view place).stages =
      Function.update (fun _ => none) call (some (.ready (configuration.run setting context))))
    (course : Course place (fun _ => False) mayReject first trace last) {ran : ConfigurationRun}
    (returned : (last.view place).stages call = some (.done ran))
    (completed : ran.ending = .completed) :
    ∃ session, (last.view place).session = some session ∧
      configuration.Skips setting session.result.results := by
  rcases (walk_courseLaw configuration call mayReject).run [] course hasSession
    ⟨_, hasStages, configuration.run_walks setting context noResults⟩ with
    ⟨atLast, hasLast, stage, stages, walks⟩
  obtain rfl : stage = .done ran := by simpa [stages] using returned
  have ready : (first.view place).stages call =
      some (.ready (configuration.run setting context)) := by
    rw [hasStages, Function.update_self]
  have heeds := course.always hasSession ready (configuration.run_always setting context) returned
    completed
  refine ⟨atLast, hasLast, fun visited visits schema hasSchema authorRuns => ?_,
    fun element => element.visit_skipsIdly setting⟩
  rw [(walks.completed completed).1] at visits
  exact (heeds visited visits).skipLaw hasSchema authorRuns

/-- The walk of the configuration of three elements skips the one that depends on its failed
sibling. -/
theorem sample_walk_skips :
    ∃ last : Machine Unit ConfigurationRun, ∃ session, (last.view 0).session = some session ∧
      Configuration.dependent.Skips .sample session.result.results ∧
        session.result.results.map (fun top => top.results.map ElementResult.message) =
          [[some "Element 'X' has no schema element",
            some "Skipped because predecessor 'X' did not pass"]] := by
  let opened : Machine Unit ConfigurationRun :=
    ((Machine.initial .empty (.initial 0 .empty ())).openSession .unattended).1
  let first := opened.spawn 0 (Configuration.dependent.run .sample (.ofProperties []))
  have hasStages : (first.view 0).stages = Function.update (fun _ => none) 0
      (some (.ready (Configuration.dependent.run .sample (.ofProperties [])))) :=
    congrArg View.stages (view_spawn _)
  have course : Course 0 (fun _ => False) (fun _ => False) first _ (first.poll 0) :=
    .step .start (.poll (congrFun hasStages 0))
  have ends : (((first.poll 0).view 0).stages 0).any fun stage =>
      stage.value?.any fun ran => ran.ending = .completed := by decide +kernel
  rcases (Option.any_eq_true _ _).mp ends with ⟨stage, hasStage, ended⟩
  rcases (Option.any_eq_true _ _).mp ended with ⟨ran, hasValue, completed⟩
  have returned : stage = .done ran := by
    cases stage with
    | done value => exact congrArg Stage.done (Option.some.inj hasValue)
    | ready program => exact nomatch hasValue
    | waiting wait next => exact nomatch hasValue
  rcases Course.walk_skips rfl rfl hasStages course (returned ▸ hasStage)
    (of_decide_eq_true completed) with ⟨session, hasSession, skips⟩
  refine ⟨_, session, hasSession, skips, ?_⟩
  have messages : ((((first.poll 0).view 0).session).map fun session =>
      session.result.results.map fun top => top.results.map ElementResult.message) =
        some [[some "Element 'X' has no schema element",
          some "Skipped because predecessor 'X' did not pass"]] := by decide +kernel
  rw [hasSession] at messages
  exact Option.some.inj messages

end Machine

end TestEngine
