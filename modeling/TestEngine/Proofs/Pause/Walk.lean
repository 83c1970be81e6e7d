import TestEngine.Proofs.Pause.Script
import TestEngine.Proofs.Walk.Law

/-!
# Walks that do not look at the clock

A configuration is timeless if it has no element that waits for a tester and no loop that is bounded
by a duration. Its walk gets times into the tree of results and never out of it: two walks from
trees that differ in times ask the same, and their trees differ in times again.
-/

namespace TestEngine

/-- An element without a manual leaf and without a loop bounded by a duration, at any depth. -/
inductive Element.Timeless : Element → Prop
  | intro {element : Element} (automatic : ¬element.isManualLeaf)
      (scripts : ∀ script ∈ element.scripts, script.Timeless)
      (children : ∀ child ∈ element.children, child.Timeless) : element.Timeless

def Configuration.Timeless (configuration : Configuration) : Prop :=
  ∀ element ∈ configuration.elements, element.Timeless

/-! ### Results -/

namespace ElementResult

variable {result other : ElementResult}

theorem verdict_congr (same : result.untimed = other.untimed) : result.verdict = other.verdict := by
  rw [← verdict_untimed, same, verdict_untimed]

theorem isSkipped_congr (same : result.untimed = other.untimed) :
    result.isSkipped = other.isSkipped := by
  rw [← isSkipped_untimed, same, isSkipped_untimed]

theorem results_congr (same : result.untimed = other.untimed) :
    result.results.map untimed = other.results.map untimed := by
  rw [← results_untimed, same, results_untimed]

theorem with_results_congr (same : result.untimed = other.untimed)
    {results others : List ElementResult} (sameResults : results.map untimed = others.map untimed) :
    ({ result with results } : ElementResult).untimed =
      ({ other with results := others } : ElementResult).untimed := by
  rw [untimed_with_results, same, sameResults, ← untimed_with_results]

theorem fail_congr (same : result.untimed = other.untimed) (message : String) :
    (result.fail message).untimed = (other.fail message).untimed := by
  rw [untimed_fail, same, ← untimed_fail]

theorem finish_congr (same : result.untimed = other.untimed) (now later : Calendar.Instant) :
    (result.finish now).untimed = (other.finish later).untimed := by
  rw [untimed_finish, same, ← untimed_finish]

theorem addScript_congr (same : result.untimed = other.untimed) {script otherScript : ScriptResult}
    (sameScript : script.untimed = otherScript.untimed) :
    (result.addScript script).untimed = (other.addScript otherScript).untimed := by
  rw [untimed_addScript, same, sameScript, ← untimed_addScript]

end ElementResult

/-! ### Sites -/

/-- Places in trees that differ in times at most. -/
structure Site.Alike (site other : Site) : Prop where
  siblings : site.siblings.map ElementResult.untimed = other.siblings.map ElementResult.untimed
  isTop : site.isTop = other.isTop
  plug : ∀ results others : List ElementResult,
    results.map ElementResult.untimed = others.map ElementResult.untimed →
      (site.plug results).map ElementResult.untimed = (other.plug others).map ElementResult.untimed

namespace Site.Alike

variable {α : Type} {same : α → α → Prop} {site other : Site} {result otherResult : ElementResult}

theorem refl_top : Site.top.Alike .top := ⟨rfl, rfl, fun _ _ sameResults => sameResults⟩

theorem publish (alike : site.Alike other) (sameResult : result.untimed = otherResult.untimed)
    {next otherNext : Unit → Program α} (goesOn : (next ()).Alike same (otherNext ())) :
    (site.publish result >>= next).Alike same (other.publish otherResult >>= otherNext) := by
  refine .requestPublish (alike.plug _ _ ?_) goesOn
  simp [alike.siblings, sameResult]

theorem below (alike : site.Alike other) (sameResult : result.untimed = otherResult.untimed) :
    (site.below result).Alike (other.below otherResult) := by
  refine ⟨ElementResult.results_congr sameResult, rfl, fun results others sameResults => ?_⟩
  refine alike.plug _ _ ?_
  rw [List.map_append, List.map_append, alike.siblings, List.map_singleton, List.map_singleton,
    ElementResult.with_results_congr sameResult sameResults]

theorem withSiblings (alike : site.Alike other) {siblings others : List ElementResult}
    (sameSiblings : siblings.map ElementResult.untimed = others.map ElementResult.untimed) :
    ({ site with siblings } : Site).Alike { other with siblings := others } :=
  ⟨sameSiblings, alike.isTop, alike.plug⟩

theorem dependencyFailure (alike : site.Alike other) (element : Element) (schema : Schema) :
    TestEngine.dependencyFailure element schema site.isTop site.siblings =
      TestEngine.dependencyFailure element schema other.isTop other.siblings := by
  have sameFailure := ElementResult.unnoticed_untimed.dependencyFailure_map element schema
  rw [← sameFailure, alike.siblings, alike.isTop, sameFailure]

end Site.Alike

/-! ### Scripts of an element -/

structure ScriptsRun.Alike (ran other : ScriptsRun) : Prop where
  result : ran.result.untimed = other.result.untimed
  ending : ran.ending = other.ending
  context : ran.context = other.context

variable {site other : Site} {result otherResult : ElementResult}

theorem runScripts_alike (alike : site.Alike other)
    {scripts : List (Context → Program ScriptRun)}
    (timeless : ∀ script ∈ scripts, Script.RunsTimelessly script)
    (sameResult : result.untimed = otherResult.untimed) (context : Context) :
    (runScripts site scripts result context).Alike ScriptsRun.Alike
      (runScripts other scripts otherResult context) := by
  induction scripts generalizing result otherResult context with
  | nil => exact .done ⟨sameResult, rfl, rfl⟩
  | cons script rest ih =>
      rw [List.forall_mem_cons] at timeless
      refine (timeless.1 context).bind fun ran otherRan alikeRan => ?_
      have sameFailed : ran.result.isFailed = otherRan.result.isFailed := by
        rw [← ScriptResult.isFailed_untimed, alikeRan.result, ScriptResult.isFailed_untimed]
      have sameAdded := ElementResult.addScript_congr sameResult alikeRan.result
      rw [alikeRan.ending, alikeRan.context, sameFailed]
      split
      · exact .done ⟨sameResult, rfl, rfl⟩
      · refine alike.publish sameAdded ?_
        split
        · exact .done ⟨sameAdded, rfl, rfl⟩
        · split
          · exact .done ⟨sameAdded, rfl, rfl⟩
          · exact ih timeless.2 sameAdded otherRan.context

theorem runElementScripts_alike (setting : Setting) (alike : site.Alike other) (element : Element)
    (schema : Schema) (timeless : ∀ script ∈ element.scripts, script.Timeless)
    (sameResult : result.untimed = otherResult.untimed) (context : Context) :
    (runElementScripts setting site element schema result context).Alike ScriptsRun.Alike
      (runElementScripts setting other element schema otherResult context) := by
  rw [runElementScripts, runElementScripts]
  split
  · exact .done ⟨sameResult, rfl, rfl⟩
  · split
    · have sameFailed := ElementResult.fail_congr sameResult ("Configuration error: element '" ++
        element.name ++ "' permits one script but has " ++ toString element.scripts.length)
      exact alike.publish sameFailed (.done ⟨sameFailed, rfl, rfl⟩)
    · refine runScripts_alike alike ?_ sameResult context
      intro run runMem
      rcases List.mem_map.mp runMem with ⟨script, scriptMem, rfl⟩
      exact script.run_runsTimelessly setting
        (timeless script ((inOrder_perm Script.order element.scripts).mem_iff.mp scriptMem))

/-! ### Elements -/

structure ElementRun.Alike (ran other : ElementRun) : Prop where
  element : ran.element = other.element
  result : ran.result.map ElementResult.untimed = other.result.map ElementResult.untimed
  ending : ran.ending = other.ending
  context : ran.context = other.context

structure LevelRun.Alike (ran other : LevelRun) : Prop where
  elements : ran.elements = other.elements
  results : ran.results.map ElementResult.untimed = other.results.map ElementResult.untimed
  ending : ran.ending = other.ending
  context : ran.context = other.context

/-- A visit of an element that lets no time decide anything. -/
def ElementVisit.Timeless (visit : ElementVisit) : Prop :=
  ∀ {site other : Site} (context : Context), site.Alike other →
    (visit site context).Alike ElementRun.Alike (visit other context)

theorem walkLevel_alike (alike : site.Alike other) {visitors : List Visitor}
    (timeless : ∀ visitor ∈ visitors, ElementVisit.Timeless visitor.visit)
    (elements : List Element) (context : Context) :
    (walkLevel site visitors elements context).Alike LevelRun.Alike
      (walkLevel other visitors elements context) := by
  induction visitors generalizing site other elements context with
  | nil => exact .done ⟨rfl, alike.siblings, rfl, rfl⟩
  | cons visitor rest ih =>
      rw [List.forall_mem_cons] at timeless
      refine (timeless.1 context alike).bind fun ran otherRan alikeRan => ?_
      have sameSiblings : (site.siblings ++ ran.result.toList).map ElementResult.untimed =
          (other.siblings ++ otherRan.result.toList).map ElementResult.untimed := by
        simp only [List.map_append, alike.siblings, ← Option.toList_map, alikeRan.result]
      rw [alikeRan.element, alikeRan.context, alikeRan.ending]
      cases otherRan.ending with
      | completed => exact ih (alike.withSiblings sameSiblings) timeless.2 _ _
      | interrupted => exact .done ⟨rfl, sameSiblings, rfl, rfl⟩
      | crashed => exact .done ⟨rfl, sameSiblings, rfl, rfl⟩

theorem settleElement_alike (alike : site.Alike other) (element : Element) (context : Context)
    {judge : ElementResult → ElementResult} (schema : Option Schema)
    (judges : ∀ result, (judge result).untimed = judge result.untimed) :
    (settleElement site element context judge schema).Alike ElementRun.Alike
      (settleElement other element context judge schema) := by
  refine .requestNow fun start laterStart => .requestNow fun stop laterStop => ?_
  have sameJudged : (judge (.ofElement element schema start)).untimed =
      (judge (.ofElement element schema laterStart)).untimed := by
    rw [judges, judges]
    rfl
  have sameResult := ElementResult.finish_congr sameJudged stop laterStop
  exact alike.publish sameResult (.done ⟨rfl, congrArg some sameResult, rfl, rfl⟩)

theorem closeElement_alike (alike : site.Alike other) (element : Element)
    (sameResult : result.untimed = otherResult.untimed) (ending : Ending) (context : Context) :
    (closeElement site element result ending context).Alike ElementRun.Alike
      (closeElement other element otherResult ending context) := by
  have closes (ending : Ending) :
      (if ending = .interrupted && result.verdict.isNone then result.fail "Execution interrupted"
        else result).untimed =
      (if ending = .interrupted && otherResult.verdict.isNone then
          otherResult.fail "Execution interrupted"
        else otherResult).untimed := by
    rw [ElementResult.verdict_congr sameResult]
    split
    · exact ElementResult.fail_congr sameResult _
    · exact sameResult
  cases ending with
  | crashed => exact .done ⟨rfl, congrArg some sameResult, rfl, rfl⟩
  | completed =>
      refine .requestNow fun stop later => ?_
      have sameFinished := ElementResult.finish_congr (closes .completed) stop later
      exact alike.publish sameFinished (.done ⟨rfl, congrArg some sameFinished, rfl, rfl⟩)
  | interrupted =>
      refine .requestNow fun stop later => ?_
      have sameFinished := ElementResult.finish_congr (closes .interrupted) stop later
      exact alike.publish sameFinished (.done ⟨rfl, congrArg some sameFinished, rfl, rfl⟩)

theorem runElement_alike (setting : Setting) (alike : site.Alike other) {element : Element}
    (timeless : element.Timeless) (schema : Schema) {children : List Visitor}
    (visits : ∀ visitor ∈ children, ElementVisit.Timeless visitor.visit) (context : Context) :
    (runElement setting site element schema children context).Alike ElementRun.Alike
      (runElement setting other element schema children context) := by
  rcases timeless with ⟨automatic, scripts, -⟩
  refine .requestNow fun start later => ?_
  have sameStarted : (ElementResult.ofElement element (some schema) start).untimed =
      (ElementResult.ofElement element (some schema) later).untimed := rfl
  refine alike.publish sameStarted ?_
  rw [if_neg automatic, if_neg automatic]
  refine (runElementScripts_alike setting alike element schema scripts sameStarted _).bind ?_
  intro ran otherRan alikeRan
  rw [alikeRan.ending, alikeRan.context, ElementResult.isSkipped_congr alikeRan.result]
  split
  · exact closeElement_alike alike element alikeRan.result _ _
  · have sortedVisits (visitor : Visitor) (visitorMem : visitor ∈ inOrder Visitor.order children) :
        ElementVisit.Timeless visitor.visit :=
      visits visitor ((inOrder_perm Visitor.order children).mem_iff.mp visitorMem)
    refine (walkLevel_alike (alike.below alikeRan.result) sortedVisits _ _).bind ?_
    intro level otherLevel alikeLevel
    rw [alikeLevel.elements, alikeLevel.ending, alikeLevel.context]
    exact closeElement_alike alike _
      (ElementResult.with_results_congr alikeRan.result alikeLevel.results) _ _

theorem visitElement_timeless (setting : Setting) {element : Element} (timeless : element.Timeless)
    {children : List Visitor}
    (visits : ∀ visitor ∈ children, ElementVisit.Timeless visitor.visit) :
    ElementVisit.Timeless (visitElement setting element children) := by
  intro site other context alike
  refine .request rfl fun goesOn => ?_
  split
  · exact .done ⟨rfl, rfl, rfl, rfl⟩
  · split
    · exact settleElement_alike alike element context none fun result => result.untimed_fail _
    · rename_i schema _
      split
      · exact settleElement_alike alike element context _ fun result => result.untimed_skip _
      · rw [alike.dependencyFailure element schema]
        split
        · exact settleElement_alike alike _ context _ fun result => result.untimed_skip _
        · exact runElement_alike setting alike timeless schema visits context

theorem timeless_of_visits {visitors : List Visitor} {elements : List Element}
    (visits : List.Forall₂
      (Visitor.Visits fun element visit => element.Timeless → ElementVisit.Timeless visit)
      visitors elements)
    (timeless : ∀ element ∈ elements, element.Timeless) :
    ∀ visitor ∈ visitors, ElementVisit.Timeless visitor.visit := by
  induction visits with
  | nil => exact fun _ visitorMem => nomatch visitorMem
  | cons visit _ ih =>
      rw [List.forall_mem_cons] at timeless ⊢
      exact ⟨visit.visited timeless.1, ih timeless.2⟩

/-- The visits of timeless elements let no time decide anything. -/
theorem Element.visitors_timeless (setting : Setting) (place : Nat) {elements : List Element}
    (timeless : ∀ element ∈ elements, element.Timeless) :
    ∀ visitor ∈ Element.visitors setting place elements, ElementVisit.Timeless visitor.visit := by
  refine timeless_of_visits (Element.visitors_induction ?_ place elements) timeless
  intro element children visits elementTimeless
  refine visitElement_timeless setting elementTimeless (timeless_of_visits visits ?_)
  rcases elementTimeless with ⟨-, -, children⟩
  exact children

/-! ### Configurations -/

/-- Walks of a configuration that differ in times at most. -/
structure ConfigurationRun.Alike (ran other : ConfigurationRun) : Prop where
  configuration : ran.configuration = other.configuration
  results : ran.results.map ElementResult.untimed = other.results.map ElementResult.untimed
  ending : ran.ending = other.ending
  context : ran.context = other.context

theorem Configuration.run_alike (setting : Setting) {configuration : Configuration}
    (timeless : configuration.Timeless) (context : Context) :
    (configuration.run setting context).Alike ConfigurationRun.Alike
      (configuration.run setting context) := by
  refine .request rfl fun goesOn => ?_
  split
  · exact .done ⟨rfl, rfl, rfl, rfl⟩
  · refine .request rfl fun _ => ?_
    have visits (visitor : Visitor)
        (visitorMem : visitor ∈
          inOrder Visitor.order (Element.visitors setting 0 configuration.elements)) :
        ElementVisit.Timeless visitor.visit :=
      Element.visitors_timeless setting 0 timeless visitor
        ((inOrder_perm Visitor.order _).mem_iff.mp visitorMem)
    refine (walkLevel_alike .refl_top visits _ _).bind fun level other alike => ?_
    rw [alike.elements]
    exact .done ⟨rfl, alike.results, alike.ending, alike.context⟩

end TestEngine
