import TestEngine.Proofs.Observation.Script
import TestEngine.Proofs.Pause.Transparent

/-!
# Walks that are observed

No decision of a walk depends on what its results have recorded. Two walks, of which one records
itself and the other is mute, publish the same trees but for what is recorded in them, and end in
the same way.
-/

namespace TestEngine

variable {α β : Type} {recording : Recording}

/-! ### Results -/

namespace ElementResult.Recorded

variable {result other : ElementResult}

theorem congr (recorded : result.Recorded recording) (sameScripts : other.scripts = result.scripts)
    (sameResults : other.results = result.results) : other.Recorded recording := by
  cases recorded with
  | intro scripts results => exact .intro (sameScripts ▸ scripts) (sameResults ▸ results)

theorem finish (recorded : result.Recorded recording) (now : Calendar.Instant) :
    (result.finish now).Recorded recording :=
  recorded.congr (scripts_finish result now) (results_finish result now)

theorem addScript (recorded : result.Recorded recording) {script : ScriptResult}
    (scriptRecorded : script.Recorded recording) :
    (result.addScript script).Recorded recording := by
  cases recorded with
  | intro scripts results =>
      have added : ∀ one ∈ result.scripts ++ [script], one.Recorded recording :=
        List.forall_mem_append.mpr ⟨scripts, List.forall_mem_singleton.mpr scriptRecorded⟩
      rw [ElementResult.addScript]
      split
      · exact .intro added results
      · exact .intro added results

theorem withResults (recorded : result.Recorded recording) {results : List ElementResult}
    (resultsRecorded : ∀ child ∈ results, child.Recorded recording) :
    ElementResult.Recorded recording { result with results } := by
  cases recorded with
  | intro scripts _ => exact .intro scripts resultsRecorded

theorem results (recorded : result.Recorded recording) :
    ∀ child ∈ result.results, child.Recorded recording := by
  cases recorded with
  | intro _ results => exact results

end ElementResult.Recorded

theorem ElementResult.recorded_ofElement (element : Element) (schema : Option Schema)
    (now : Calendar.Instant) : (ofElement element schema now).Recorded recording :=
  .intro (List.forall_mem_nil _) (List.forall_mem_nil _)

/-! ### Sites -/

/-- A site in a tree that records what it is to, and the site in the mute tree. -/
structure Site.Mutes (recording : Recording) (site other : Site) : Prop where
  siblings : ∀ result ∈ site.siblings, result.Recorded recording
  plug : ∀ results : List ElementResult, (∀ result ∈ results, result.Recorded recording) →
    ∀ result ∈ site.plug results, result.Recorded recording
  isTop : other.isTop = site.isTop
  muteSiblings : other.siblings = site.siblings.map ElementResult.mute
  mutePlug : ∀ results : List ElementResult,
    other.plug (results.map ElementResult.mute) = (site.plug results).map ElementResult.mute

theorem Site.mutes_top : Site.top.Mutes recording .top where
  siblings := List.forall_mem_nil _
  plug _ recorded := recorded
  isTop := rfl
  muteSiblings := rfl
  mutePlug _ := rfl

namespace Site.Mutes

variable {same : α → β → Prop} {site other : Site} {result : ElementResult}

theorem forall_concat (mutes : site.Mutes recording other) (recorded : result.Recorded recording) :
    ∀ sibling ∈ site.siblings ++ [result], sibling.Recorded recording :=
  List.forall_mem_append.mpr ⟨mutes.siblings, List.forall_mem_singleton.mpr recorded⟩

theorem publish (mutes : site.Mutes recording other) (recorded : result.Recorded recording)
    {next : Unit → Program α} {otherNext : Unit → Program β}
    (goesOn : (next ()).Mutes recording same (otherNext ())) :
    (site.publish result >>= next).Mutes recording same
      (other.publish result.mute >>= otherNext) := by
  have muteTree : other.plug (other.siblings ++ [result.mute]) =
      (site.plug (site.siblings ++ [result])).map ElementResult.mute := by
    rw [mutes.muteSiblings, ← List.map_singleton, ← List.map_append, mutes.mutePlug]
  rw [Site.publish, Site.publish, muteTree]
  exact .publish (mutes.plug _ (mutes.forall_concat recorded)) goesOn

theorem below (mutes : site.Mutes recording other) (recorded : result.Recorded recording) :
    (site.below result).Mutes recording (other.below result.mute) where
  siblings := recorded.results
  plug results resultsRecorded :=
    mutes.plug _ (mutes.forall_concat (recorded.withResults resultsRecorded))
  isTop := rfl
  muteSiblings := result.results_mute
  mutePlug results := by
    have muteChild := result.mute_with_results results
    simp only [Site.below, mutes.muteSiblings, ← muteChild, ← mutes.mutePlug, List.map_append,
      List.map_singleton]

theorem withSiblings (mutes : site.Mutes recording other) {siblings : List ElementResult}
    (recorded : ∀ sibling ∈ siblings, sibling.Recorded recording) :
    ({ site with siblings } : Site).Mutes recording
      { other with siblings := siblings.map ElementResult.mute } :=
  ⟨recorded, mutes.plug, mutes.isTop, rfl, mutes.mutePlug⟩

theorem dependencyFailure_eq (mutes : site.Mutes recording other) (element : Element)
    (schema : Schema) :
    dependencyFailure element schema other.isTop other.siblings =
      dependencyFailure element schema site.isTop site.siblings := by
  rw [mutes.isTop, mutes.muteSiblings, ElementResult.unnoticed_mute.dependencyFailure_map]

end Site.Mutes

/-! ### Scripts of an element -/

/-- A run of an element's scripts that has left what it is to record, and the mute run. -/
structure ScriptsRun.Mutes (recording : Recording) (ran other : ScriptsRun) : Prop where
  recorded : ran.result.Recorded recording
  context : ran.context.Under recording.toObservation
  same : other = ⟨ran.result.mute, ran.ending, ran.context.mute⟩

variable {site other : Site} {result : ElementResult} {context : Context}

theorem runScripts_mutes (mutes : site.Mutes recording other)
    {scripts : List (Context → Program ScriptRun)}
    (runs : ∀ script ∈ scripts, ∀ context : Context, context.Under recording.toObservation →
      (script context).Mutes recording (ScriptRun.Mutes recording) (script context.mute))
    (recorded : result.Recorded recording) (under : context.Under recording.toObservation) :
    (runScripts site scripts result context).Mutes recording (ScriptsRun.Mutes recording)
      (runScripts other scripts result.mute context.mute) := by
  induction scripts generalizing result context with
  | nil => exact .done ⟨recorded, under, rfl⟩
  | cons script rest ih =>
      rw [List.forall_mem_cons] at runs
      refine (runs.1 context under).bind ?_
      rintro ran other ⟨ranRecorded, ranUnder, same⟩
      have added := recorded.addScript ranRecorded
      rw [ScriptRun.mute] at same
      subst same
      dsimp only
      rw [← ElementResult.mute_addScript, ScriptResult.isFailed_mute]
      split
      · exact .done ⟨recorded, ranUnder, rfl⟩
      · refine mutes.publish added ?_
        split
        · exact .done ⟨added, ranUnder, rfl⟩
        · split
          · exact .done ⟨added, ranUnder, rfl⟩
          · exact ih runs.2 added ranUnder

theorem runElementScripts_mutes (setting : Setting) (mutes : site.Mutes recording other)
    (element : Element) (schema : Schema) (recorded : result.Recorded recording)
    (under : context.Under recording.toObservation) :
    (runElementScripts setting site element schema result context).Mutes recording
      (ScriptsRun.Mutes recording)
      (runElementScripts setting other element schema result.mute context.mute) := by
  rw [runElementScripts, runElementScripts]
  split
  · exact .done ⟨recorded, under, rfl⟩
  · split
    · dsimp only
      rw [← ElementResult.mute_fail]
      have failed : (result.fail ("Configuration error: element '" ++ element.name ++
          "' permits one script but has " ++ toString element.scripts.length)).Recorded recording :=
        recorded.congr rfl rfl
      refine mutes.publish failed ?_
      exact .done ⟨failed, under, rfl⟩
    · refine runScripts_mutes mutes ?_ recorded under
      intro run runMem context under
      rcases List.mem_map.mp runMem with ⟨script, -, rfl⟩
      exact script.run_mutes recording setting under

/-! ### Manual elements -/

/-- What the answer of a tester has made of an element and of the mute one. -/
def ManualMutes (recording : Recording) (taken other : ElementResult × Ending) : Prop :=
  taken.1.Recorded recording ∧ other = (taken.1.mute, taken.2)

theorem takeManualInput_mutes (mutes : site.Mutes recording other)
    (recorded : result.Recorded recording) (input : Option (Option Interaction)) :
    (takeManualInput site result input).Mutes recording (ManualMutes recording)
      (takeManualInput other result.mute input) := by
  cases input with
  | none =>
      rw [takeManualInput, takeManualInput, ← ElementResult.mute_fail]
      have failed : (result.fail "Manual execution interrupted").Recorded recording :=
        recorded.congr rfl rfl
      refine mutes.publish failed ?_
      exact .done ⟨failed, rfl⟩
  | some input =>
      rcases result.continues_takeManual input with ⟨continues, sameScripts⟩
      have recordedOn : (result.takeManual input).1.Recorded recording :=
        recorded.congr sameScripts continues.results
      rw [takeManualInput, takeManualInput, ElementResult.mute_takeManual]
      generalize result.takeManual input = taken at recordedOn ⊢
      rcases taken with ⟨after, cancelled⟩
      dsimp only [Prod.map, id]
      refine mutes.publish recordedOn ?_
      cases cancelled with
      | false => exact .done ⟨recordedOn, rfl⟩
      | true => exact .request rfl fun _ => .done ⟨recordedOn, rfl⟩

theorem awaitManualResult_mutes (setting : Setting) (mutes : site.Mutes recording other)
    (recorded : result.Recorded recording) :
    (awaitManualResult setting site result).Mutes recording (ManualMutes recording)
      (awaitManualResult setting other result.mute) := by
  have goesOn (waiting : ElementResult) (waitingRecorded : waiting.Recorded recording) :
      Program.Mutes recording (ManualMutes recording)
        (site.publish waiting >>= fun _ => Program.request .openInteraction >>= fun _ =>
          Program.request .awaitInteraction >>= takeManualInput site waiting)
        (other.publish waiting.mute >>= fun _ => Program.request .openInteraction >>= fun _ =>
          Program.request .awaitInteraction >>= takeManualInput other waiting.mute) := by
    refine mutes.publish waitingRecorded (.request rfl fun _ => .request rfl fun input => ?_)
    exact takeManualInput_mutes mutes waitingRecorded input
  rw [awaitManualResult, awaitManualResult]
  split
  · dsimp only
    rw [← ElementResult.mute_fail]
    have failed : (result.fail "Manual element cannot run without a job").Recorded recording :=
      recorded.congr rfl rfl
    refine mutes.publish failed ?_
    exact .done ⟨failed, rfl⟩
  · refine .request rfl fun start => ?_
    have waits := goesOn { result with manual := some .waiting, start := some start }
      (recorded.congr rfl rfl)
    have muteWaiting :
        ElementResult.mute { result with manual := some .waiting, start := some start } =
          { result.mute with manual := some .waiting, start := some start } := by
      cases result
      rfl
    rw [muteWaiting] at waits
    exact waits

/-! ### Elements -/

/-- A visit of an element that has left what it is to record, and the mute visit. -/
structure ElementRun.Mutes (recording : Recording) (ran other : ElementRun) : Prop where
  recorded : ∀ result ∈ ran.result, result.Recorded recording
  context : ran.context.Under recording.toObservation
  same : other = ⟨ran.element, ran.result.map ElementResult.mute, ran.ending, ran.context.mute⟩

/-- A walk of siblings that has left what it is to record, and the mute walk. -/
structure LevelRun.Mutes (recording : Recording) (ran other : LevelRun) : Prop where
  recorded : ∀ result ∈ ran.results, result.Recorded recording
  context : ran.context.Under recording.toObservation
  same : other =
    ⟨ran.elements, ran.results.map ElementResult.mute, ran.ending, ran.context.mute⟩

/-- A way of visiting an element that does not depend on what is to be recorded. -/
def ElementVisit.Mutes (recording : Recording) (visit : ElementVisit) : Prop :=
  ∀ {site other : Site} {context : Context}, site.Mutes recording other →
    context.Under recording.toObservation →
      (visit site context).Mutes recording (ElementRun.Mutes recording) (visit other context.mute)

theorem walkLevel_mutes (mutes : site.Mutes recording other) {visitors : List Visitor}
    (visits : ∀ visitor ∈ visitors, ElementVisit.Mutes recording visitor.visit)
    (elements : List Element) (under : context.Under recording.toObservation) :
    (walkLevel site visitors elements context).Mutes recording (LevelRun.Mutes recording)
      (walkLevel other visitors elements context.mute) := by
  induction visitors generalizing site other elements context with
  | nil => exact .done ⟨mutes.siblings, under, by rw [mutes.muteSiblings]⟩
  | cons visitor rest ih =>
      rw [List.forall_mem_cons] at visits
      refine (visits.1 mutes under).bind ?_
      rintro ran _ ⟨recorded, ranUnder, rfl⟩
      have siblings : ∀ sibling ∈ site.siblings ++ ran.result.toList,
          sibling.Recorded recording := by
        refine List.forall_mem_append.mpr ⟨mutes.siblings, fun sibling siblingMem => ?_⟩
        exact recorded sibling (Option.mem_toList.mp siblingMem)
      have muteSiblings : other.siblings ++ (ran.result.map ElementResult.mute).toList =
          (site.siblings ++ ran.result.toList).map ElementResult.mute := by
        rw [mutes.muteSiblings, List.map_append, ← Option.toList_map]
      dsimp only
      rw [muteSiblings]
      cases ran.ending with
      | completed => exact ih (mutes.withSiblings siblings) visits.2 _ ranUnder
      | interrupted => exact .done ⟨siblings, ranUnder, rfl⟩
      | crashed => exact .done ⟨siblings, ranUnder, rfl⟩

theorem settleElement_mutes (mutes : site.Mutes recording other) (element : Element)
    (under : context.Under recording.toObservation) {judge : ElementResult → ElementResult}
    (schema : Option Schema) (muteJudged : ∀ result, (judge result).mute = judge result.mute)
    (keeps : ∀ result : ElementResult, result.Recorded recording →
      (judge result).Recorded recording) :
    (settleElement site element context judge schema).Mutes recording (ElementRun.Mutes recording)
      (settleElement other element context.mute judge schema) := by
  refine .request rfl fun start => .request rfl fun stop => ?_
  let judged (result : ElementResult) : ElementResult := (judge result).finish stop
  have muteResult : (judged (.ofElement element schema start)).mute =
      judged (.ofElement element schema start) := by
    simp only [judged]
    rw [ElementResult.mute_finish, muteJudged]
    rfl
  have recorded : (judged (.ofElement element schema start)).Recorded recording :=
    (keeps _ (ElementResult.recorded_ofElement element schema start)).finish stop
  change Program.Mutes recording _ (site.publish (judged (.ofElement element schema start)) >>= _)
    (other.publish (judged (.ofElement element schema start)) >>= _)
  rw [← congrArg other.publish muteResult]
  refine mutes.publish recorded ?_
  have muteRun : (⟨element, some (judged (.ofElement element schema start)), .completed,
      context.mute⟩ : ElementRun) =
        ⟨element, some (judged (.ofElement element schema start)).mute, .completed,
          context.mute⟩ := by
    rw [muteResult]
  exact .done ⟨by simpa using recorded, under, muteRun⟩

theorem closeElement_mutes (mutes : site.Mutes recording other) (element : Element)
    (recorded : result.Recorded recording) (ending : Ending)
    (under : context.Under recording.toObservation) :
    (closeElement site element result ending context).Mutes recording (ElementRun.Mutes recording)
      (closeElement other element result.mute ending context.mute) := by
  have closes (result : ElementResult) (recorded : result.Recorded recording) (ending : Ending)
      (stop : Calendar.Instant) :
      Program.Mutes recording (ElementRun.Mutes recording)
        (site.publish (result.finish stop) >>= fun _ =>
          return ⟨element, some (result.finish stop), ending, context⟩)
        (other.publish (result.mute.finish stop) >>= fun _ =>
          return ⟨element, some (result.mute.finish stop), ending, context.mute⟩) := by
    rw [← ElementResult.mute_finish]
    have finished := recorded.finish stop
    exact mutes.publish finished (.done ⟨by simpa using finished, under, rfl⟩)
  cases ending with
  | crashed => exact .done ⟨by simpa using recorded, under, rfl⟩
  | completed => exact .request rfl fun stop => closes result recorded _ stop
  | interrupted =>
      refine .request rfl fun stop => ?_
      dsimp only
      rw [ElementResult.verdict_mute, ← ElementResult.mute_fail, ← apply_ite ElementResult.mute]
      refine closes _ ?_ _ stop
      split
      · exact recorded.congr rfl rfl
      · exact recorded

theorem runElement_mutes (setting : Setting) (mutes : site.Mutes recording other)
    (element : Element) (schema : Schema) {children : List Visitor}
    (visits : ∀ visitor ∈ children, ElementVisit.Mutes recording visitor.visit)
    (under : context.Under recording.toObservation) :
    (runElement setting site element schema children context).Mutes recording
      (ElementRun.Mutes recording)
      (runElement setting other element schema children context.mute) := by
  refine .request rfl fun start => ?_
  let started : ElementResult := .ofElement element (some schema) start
  have recorded : started.Recorded recording := ElementResult.recorded_ofElement _ _ start
  have entered (context : Context) :
      (if schema.propertyContainer then
          { context.mute with properties := context.mute.properties.merge element.properties }
        else context.mute) =
        Context.mute (if schema.propertyContainer then
            { context with properties := context.properties.merge element.properties }
          else context) := by
    split <;> rfl
  have enteredUnder : Context.Under recording.toObservation
      (if schema.propertyContainer then
        { context with properties := context.properties.merge element.properties }
      else context) := by
    split
    · exact ⟨under.tracing, under.user⟩
    · exact under
  dsimp only
  rw [entered]
  refine mutes.publish recorded ?_
  split
  · refine (awaitManualResult_mutes setting mutes recorded).bind ?_
    rintro ⟨taken, ending⟩ _ ⟨takenRecorded, rfl⟩
    exact closeElement_mutes mutes element takenRecorded ending enteredUnder
  · refine (runElementScripts_mutes setting mutes element schema recorded enteredUnder).bind ?_
    rintro ran other ⟨ranRecorded, ranUnder, rfl⟩
    dsimp only
    rw [ElementResult.isSkipped_mute]
    split
    · exact closeElement_mutes mutes element ranRecorded _ ranUnder
    · have sortedVisits (visitor : Visitor)
          (visitorMem : visitor ∈ inOrder Visitor.order children) :
          ElementVisit.Mutes recording visitor.visit :=
        visits visitor ((inOrder_perm Visitor.order children).mem_iff.mp visitorMem)
      refine (walkLevel_mutes (mutes.below ranRecorded) sortedVisits _ ranUnder).bind ?_
      rintro level _ ⟨levelRecorded, levelUnder, rfl⟩
      dsimp only
      rw [← ElementResult.mute_with_results]
      exact closeElement_mutes mutes _ (ranRecorded.withResults levelRecorded) _ levelUnder

theorem visitElement_mutes (setting : Setting) (element : Element) {children : List Visitor}
    (visits : ∀ visitor ∈ children, ElementVisit.Mutes recording visitor.visit) :
    ElementVisit.Mutes recording (visitElement setting element children) := by
  intro site other context mutes under
  refine .request rfl fun goesOn => ?_
  split
  · exact .done ⟨by simp, under, rfl⟩
  · split
    · exact settleElement_mutes mutes element under none (fun result => result.mute_fail _)
        fun _ recorded => recorded.congr rfl rfl
    · rename_i schema _
      split
      · exact settleElement_mutes mutes element under _ (fun result => result.mute_skip _)
          fun _ recorded => recorded.congr rfl rfl
      · rw [mutes.dependencyFailure_eq element schema]
        split
        · exact settleElement_mutes mutes _ under _ (fun result => result.mute_skip _)
            fun _ recorded => recorded.congr rfl rfl
        · exact runElement_mutes setting mutes element schema visits under

/-- No visit of an element depends on what is to be recorded. -/
theorem Element.visitors_mute (recording : Recording) (setting : Setting) (place : Nat)
    (elements : List Element) :
    ∀ visitor ∈ Element.visitors setting place elements,
      ElementVisit.Mutes recording visitor.visit := by
  refine Visitor.Visits.forall_mem (Element.visitors_induction ?_ place elements)
  exact fun element children visits =>
    visitElement_mutes setting element (Visitor.Visits.forall_mem visits)

/-! ### Configurations -/

def ConfigurationRun.mute (ran : ConfigurationRun) : ConfigurationRun :=
  ⟨ran.configuration, ran.results.map ElementResult.mute, ran.ending, ran.context.mute⟩

/-- A walk of a configuration that has left what it is to record, and the mute walk. -/
structure ConfigurationRun.Mutes (recording : Recording) (ran other : ConfigurationRun) : Prop where
  recorded : ∀ result ∈ ran.results, result.Recorded recording
  context : ran.context.Under recording.toObservation
  same : other = ran.mute

theorem Configuration.run_mutes (recording : Recording) (setting : Setting)
    (configuration : Configuration) (under : context.Under recording.toObservation) :
    (configuration.run setting context).Mutes recording (ConfigurationRun.Mutes recording)
      (configuration.run setting context.mute) := by
  refine .request rfl fun goesOn => ?_
  split
  · exact .done ⟨List.forall_mem_nil _, under, rfl⟩
  · refine .request rfl fun _ => ?_
    let entered : Context :=
      { context with properties := context.properties.merge configuration.properties }
    have enteredUnder : entered.Under recording.toObservation := ⟨under.tracing, under.user⟩
    have visits (visitor : Visitor)
        (visitorMem : visitor ∈
          inOrder Visitor.order (Element.visitors setting 0 configuration.elements)) :
        ElementVisit.Mutes recording visitor.visit :=
      Element.visitors_mute recording setting 0 _ visitor
        ((inOrder_perm Visitor.order _).mem_iff.mp visitorMem)
    refine (walkLevel_mutes Site.mutes_top visits configuration.elements enteredUnder).bind ?_
    rintro level _ ⟨recorded, levelUnder, rfl⟩
    exact .done ⟨recorded, levelUnder, rfl⟩

end TestEngine
