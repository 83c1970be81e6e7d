import TestEngine.Proofs.Value
import TestEngine.Proofs.Walk.Dependency
import TestEngine.Proofs.Walk.Soundness

/-!
# Laws throughout a tree of results

A law of visited elements that depends on nothing but the element, its own result and the results of
its siblings before it holds throughout the tree that a walk leaves, if every visit leaves it of its
own element whatever the visits of the children do. The tree is put together here once for all such
laws: a level is walked from its first element to its last, and a result that is in the tree stays
as it is.
-/

namespace TestEngine

variable {α : Type}

/-! ### Results of visits -/

/-- A property of results that lasts when the visit comes to its end. -/
structure ElementResult.Lasting (node : ElementResult → Prop) : Prop where
  below : ∀ result results, node result → node { result with results }
  interrupted : ∀ result, node result → result.verdict = none →
    node (result.fail "Execution interrupted")
  finish : ∀ result stop, node result → node (result.finish stop)

section Results

variable {node : ElementResult → Prop} {site : Site} {element : Element} {result : ElementResult}
  {context : Context}

theorem runScripts_leaves (scripts : List (Context → Program ScriptRun))
    (added : ∀ result script, node result → node (result.addScript script)) (holds : node result) :
    (runScripts site scripts result context).Always fun ran => node ran.result := by
  induction scripts generalizing result context with
  | nil => exact .pure holds
  | cons script rest ih =>
      refine .thenAny fun ran => ?_
      have stillHolds := added result ran.result holds
      split
      · exact .pure holds
      · refine .ask fun _ => ?_
        split
        · exact .pure stillHolds
        · split
          · exact .pure stillHolds
          · exact ih stillHolds

/-- Running its scripts adds their results to the element's, or fails the element at once if there
are more of them than its schema permits. -/
theorem runElementScripts_leaves (setting : Setting) (schema : Schema)
    (added : ∀ result script, node result → node (result.addScript script))
    (failed : schema.scripts = .one → 1 < element.scripts.length →
      ∀ message, node (result.fail message))
    (holds : node result) :
    (runElementScripts setting site element schema result context).Always fun ran =>
      node ran.result := by
  rw [runElementScripts]
  dsimp only
  split
  · exact .pure holds
  · split
    · rename_i excess
      rw [Bool.and_eq_true, decide_eq_true_eq, decide_eq_true_eq] at excess
      exact .ask fun _ => .pure (failed excess.1 excess.2 _)
    · exact runScripts_leaves _ added holds

/-- A tester adds nothing below an element. -/
theorem awaitManualResult_results (setting : Setting) :
    (awaitManualResult setting site result).Always fun taken =>
      taken.1.results = result.results := by
  rw [awaitManualResult]
  split
  · exact .ask fun _ => .pure rfl
  · refine .ask fun start => .ask fun _ => .ask fun _ => .ask fun input => ?_
    cases input with
    | none => exact .ask fun _ => .pure rfl
    | some input =>
        refine .ask fun _ => .thenAny fun _ => .pure ?_
        exact (ElementResult.continues_takeManual _ input).1.results

/-- Whoever ends the visit of an element leaves its result where it was. -/
theorem closeElement_leaves (lasting : ElementResult.Lasting node) (ending : Ending)
    (holds : node result) :
    (closeElement site element result ending context).Always fun ran =>
      ran.ending = ending ∧
        ∃ closed, ran.result = some closed ∧ node closed ∧ closed.results = result.results := by
  cases ending with
  | crashed => exact .pure ⟨rfl, result, rfl, holds, rfl⟩
  | completed =>
      refine .ask fun stop => .ask fun _ => .pure ⟨rfl, _, rfl, ?_, ?_⟩
      · exact lasting.finish _ stop holds
      · exact ElementResult.results_finish _ _
  | interrupted =>
      refine .ask fun stop => .ask fun _ => .pure ⟨rfl, _, rfl, ?_, ?_⟩
      · apply lasting.finish
        split
        · rename_i isOpen
          exact lasting.interrupted result holds (by simpa using isOpen)
        · exact holds
      · rw [ElementResult.results_finish]
        split <;> rfl

/-- What the visit of an element has left of it before its children are walked is left when the
visit is over. -/
theorem runElement_leaves (setting : Setting) (schema : Schema) (children : List Visitor)
    (lasting : ElementResult.Lasting node)
    (manual : element.isManualLeaf → ∀ start,
      (awaitManualResult setting site (.ofElement element (some schema) start)).Always fun taken =>
        node taken.1)
    (automatic : ¬element.isManualLeaf → ∀ start context,
      (runElementScripts setting site element schema (.ofElement element (some schema) start)
        context).Always fun ran => node ran.result) :
    (runElement setting site element schema children context).Always fun ran =>
      ∃ result, ran.result = some result ∧ node result := by
  have closes {changed : Element} {result : ElementResult} {context : Context} (ending : Ending)
      (holds : node result) :
      (closeElement site changed result ending context).Always fun ran =>
        ∃ result, ran.result = some result ∧ node result := by
    refine (closeElement_leaves lasting ending holds).imp ?_
    rintro ran ⟨-, closed, hasResult, stillHolds, -⟩
    exact ⟨closed, hasResult, stillHolds⟩
  refine .ask fun start => .ask fun _ => ?_
  split
  · rename_i isManual
    refine .bind (manual isManual start) ?_
    rintro ⟨result, ending⟩ holds
    exact closes ending holds
  · rename_i isAutomatic
    refine .bind (automatic isAutomatic start _) fun ran holds => ?_
    split
    · exact closes ran.ending holds
    · exact .thenAny fun level => closes level.ending (lasting.below _ _ holds)

theorem settleElement_leaves (judge : ElementResult → ElementResult) (schema : Option Schema) :
    (settleElement site element context judge schema).Always fun ran =>
      ∃ start stop, ran.result = some ((judge (.ofElement element schema start)).finish stop) :=
  .ask fun start => .ask fun stop => .ask fun _ => .pure ⟨start, stop, rfl⟩

end Results

/-! ### Laws -/

namespace Visited

variable {law : Visited → Prop} {visited : Visited}

/-- Whether a law holds of a visited element and of all those below it. -/
def Throughout (law : Visited → Prop) (visited : Visited) : Prop :=
  ∀ inner, visited.Holds inner → law inner

theorem not_onLevel_nil {isTop : Bool} {earlier : List ElementResult} {elements : List Element} :
    ¬OnLevel isTop earlier elements [] visited := by
  intro onLevel
  cases onLevel

theorem throughout_of_below (holds : law visited)
    (below : ∀ child, OnLevel false [] (inOrder Element.order visited.element.children)
      visited.result.results child → child.Throughout law) : visited.Throughout law := by
  intro inner holdsInner
  cases holdsInner with
  | itself => exact holds
  | deeper order onLevel holdsInner =>
      exact below _ (order.eq_inOrder ▸ onLevel) inner holdsInner

/-- A law that every visit leaves of its own element, whatever the visits of the children do. -/
def LeftBy (setting : Setting) (law : Visited → Prop) : Prop :=
  ∀ (element : Element) (children : List Visitor) (site : Site) (context : Context),
    (visitElement setting element children site context).Always fun ran =>
      ∀ result, ran.result = some result → law ⟨site.isTop, site.siblings, element, result⟩

/-- An element whose visit is over at once. -/
inductive Settled (isTop : Bool) (earlier : List ElementResult) (element : Element) :
    ElementResult → Prop
  | noSchema {start stop : Calendar.Instant} (hasNone : element.schema = none) :
      Settled isTop earlier element (((ElementResult.ofElement element none start).fail
        ("Element '" ++ element.name ++ "' has no schema element")).finish stop)
  | authorSkips {schema : Schema} {start stop : Calendar.Instant}
      (hasSchema : element.schema = some schema) (skips : schema.skippable ∧ element.skip) :
      Settled isTop earlier element (((ElementResult.ofElement element (some schema) start).skip
        ("Element '" ++ element.name ++ "' is marked to be skipped")).finish stop)
  | heldBack {schema : Schema} {reason : String} {start stop : Calendar.Instant}
      (hasSchema : element.schema = some schema) (authorRuns : ¬(schema.skippable ∧ element.skip))
      (failure : dependencyFailure element schema isTop earlier = some reason) :
      Settled isTop earlier element
        (((ElementResult.ofElement element (some schema) start).skip reason).finish stop)

/-- A visit is over at once, or the element is run because nothing keeps it from that. -/
theorem leftBy_of_settled {setting : Setting}
    (settled : ∀ {isTop earlier element result}, Settled isTop earlier element result →
      law ⟨isTop, earlier, element, result⟩)
    (run : ∀ element schema children (site : Site) context, element.schema = some schema →
      ¬(schema.skippable ∧ element.skip) →
        dependencyFailure element schema site.isTop site.siblings = none →
          (runElement setting site element schema children context).Always fun ran =>
            ∃ result, ran.result = some result ∧
              law ⟨site.isTop, site.siblings, element, result⟩) :
    LeftBy setting law := by
  intro element children site context
  have ofResult {ran : ElementRun} (left : ∃ result, ran.result = some result ∧
      law ⟨site.isTop, site.siblings, element, result⟩) (result : ElementResult)
      (isResult : ran.result = some result) :
      law ⟨site.isTop, site.siblings, element, result⟩ := by
    rcases left with ⟨other, isOther, holds⟩
    exact Option.some.inj (isOther.symm.trans isResult) ▸ holds
  refine .ask fun goesOn => ?_
  cases goesOn with
  | false => exact .pure fun result hasResult => nomatch hasResult
  | true =>
      rw [if_neg (by decide)]
      cases hasSchema : element.schema with
      | none =>
          refine (settleElement_leaves _ none).imp ?_
          rintro ran ⟨start, stop, hasResult⟩
          exact ofResult ⟨_, hasResult, settled (.noSchema hasSchema)⟩
      | some schema =>
          dsimp only
          split
          · rename_i skips
            rw [Bool.and_eq_true] at skips
            refine (settleElement_leaves _ (some schema)).imp ?_
            rintro ran ⟨start, stop, hasResult⟩
            exact ofResult ⟨_, hasResult, settled (.authorSkips hasSchema skips)⟩
          · rename_i authorRuns
            rw [Bool.and_eq_true] at authorRuns
            split
            · rename_i reason failure
              refine (settleElement_leaves _ (some schema)).imp ?_
              rintro ran ⟨start, stop, hasResult⟩
              exact ofResult ⟨_, hasResult, settled (.heldBack hasSchema authorRuns failure)⟩
            · rename_i noFailure
              exact (run element schema children site context hasSchema authorRuns noFailure).imp
                fun ran => ofResult

end Visited

variable {law : Visited → Prop}

/-- A way of visiting an element that leaves a law of it and of all those below it, unless it is cut
short. -/
def Element.Keeps (law : Visited → Prop) (element : Element) (visit : ElementVisit) : Prop :=
  ∀ site context, (visit site context).Always fun ran => ran.ending = .completed →
    ∃ result, ran.result = some result ∧
      Visited.Throughout law ⟨site.isTop, site.siblings, element, result⟩

theorem walkLevel_keeps {visitors : List Visitor} {elements : List Element} (site : Site)
    {authored : List Element} {context : Context}
    (visits : List.Forall₂ (Visitor.Visits (Element.Keeps law)) visitors elements) :
    (walkLevel site visitors authored context).Always fun level => level.ending = .completed →
      ∃ results, level.results = site.siblings ++ results ∧
        ∀ child, Visited.OnLevel site.isTop site.siblings elements results child →
          child.Throughout law := by
  induction visits generalizing site authored context with
  | nil => exact .pure fun _ => ⟨[], by simp, fun child onLevel => nomatch onLevel⟩
  | @cons visitor element visitors elements visit _ ih =>
      refine .bind (visit.visited site context) fun ran kept => ?_
      cases ended : ran.ending with
      | interrupted => exact .pure fun completed => nomatch completed
      | crashed => exact .pure fun completed => nomatch completed
      | completed =>
          rcases kept ended with ⟨result, hasResult, holds⟩
          have siblings : site.siblings ++ ran.result.toList = site.siblings ++ [result] := by
            rw [hasResult]
            rfl
          simp only [siblings]
          refine (ih { site with siblings := site.siblings ++ [result] }).imp ?_
          intro level restKept completed
          rcases restKept completed with ⟨results, levelResults, restHolds⟩
          refine ⟨result :: results, by simp [levelResults], fun child onLevel => ?_⟩
          cases onLevel with
          | first => exact holds
          | later onLevel => exact restHolds child onLevel

/-- The results below an element are those that the visits of its children have left. -/
theorem runElement_below (setting : Setting) (site : Site) (element : Element) (schema : Schema)
    {children : List Visitor} (context : Context)
    (visits : List.Forall₂ (Visitor.Visits (Element.Keeps law)) children element.children) :
    (runElement setting site element schema children context).Always fun ran =>
      ran.ending = .completed → ∃ result, ran.result = some result ∧
        ∀ child, Visited.OnLevel false [] (inOrder Element.order element.children) result.results
          child → child.Throughout law := by
  have anything : ElementResult.Lasting fun _ => True := ⟨by simp, by simp, by simp⟩
  have nothingBelow {result : ElementResult} (noResults : result.results = []) (ending : Ending)
      (context : Context) :
      (closeElement site element result ending context).Always fun ran =>
        ran.ending = .completed → ∃ result, ran.result = some result ∧
          ∀ child, Visited.OnLevel false [] (inOrder Element.order element.children) result.results
            child → child.Throughout law := by
    refine (closeElement_leaves anything ending trivial).imp ?_
    rintro ran ⟨-, closed, hasResult, -, sameResults⟩ -
    refine ⟨closed, hasResult, fun child onLevel => ?_⟩
    rw [sameResults, noResults] at onLevel
    exact absurd onLevel Visited.not_onLevel_nil
  refine .ask fun start => .ask fun _ => ?_
  split
  · refine .bind (awaitManualResult_results setting) ?_
    rintro ⟨result, ending⟩ noResults
    exact nothingBelow noResults ending _
  · have noneAdded (result : ElementResult) (script : ScriptResult)
        (noResults : result.results = []) : (result.addScript script).results = [] :=
      (result.continues_addScript script).results.trans noResults
    refine .bind (runElementScripts_leaves setting schema noneAdded (fun _ _ _ => rfl) rfl) ?_
    intro ran noResults
    split
    · exact nothingBelow noResults ran.ending _
    · have sorted := forall₂_inOrder (fun _ _ visit => visit.order) visits
      refine .bind (walkLevel_keeps _ sorted) fun level kept => ?_
      refine (closeElement_leaves anything level.ending trivial).imp ?_
      rintro after ⟨sameEnding, closed, hasResult, -, sameResults⟩ completed
      rcases kept (sameEnding ▸ completed) with ⟨results, levelResults, holds⟩
      have noSiblings : (site.below ran.result).siblings = [] := noResults
      rw [noSiblings, List.nil_append] at levelResults
      rw [noSiblings] at holds
      refine ⟨closed, hasResult, fun child onLevel => ?_⟩
      rw [sameResults, levelResults] at onLevel
      exact holds child onLevel

theorem settleElement_below (site : Site) (element : Element) (context : Context)
    {judge : ElementResult → ElementResult} (schema : Option Schema)
    (judgesAlone : ∀ result, (judge result).results = result.results) :
    (settleElement site element context judge schema).Always fun ran =>
      ∃ result, ran.result = some result ∧ result.results = [] := by
  refine (settleElement_leaves judge schema).imp ?_
  rintro ran ⟨start, stop, hasResult⟩
  exact ⟨_, hasResult, (ElementResult.results_finish _ _).trans (judgesAlone _)⟩

theorem visitElement_below (setting : Setting) (site : Site) (element : Element)
    {children : List Visitor} (context : Context)
    (visits : List.Forall₂ (Visitor.Visits (Element.Keeps law)) children element.children) :
    (visitElement setting element children site context).Always fun ran =>
      ran.ending = .completed → ∃ result, ran.result = some result ∧
        ∀ child, Visited.OnLevel false [] (inOrder Element.order element.children) result.results
          child → child.Throughout law := by
  have settles {ran : ElementRun}
      (settled : ∃ result, ran.result = some result ∧ result.results = []) :
      ran.ending = .completed → ∃ result, ran.result = some result ∧
        ∀ child, Visited.OnLevel false [] (inOrder Element.order element.children) result.results
          child → child.Throughout law := by
    rcases settled with ⟨result, hasResult, noResults⟩
    refine fun _ => ⟨result, hasResult, fun child onLevel => ?_⟩
    rw [noResults] at onLevel
    exact absurd onLevel Visited.not_onLevel_nil
  refine .ask fun goesOn => ?_
  cases goesOn with
  | false => exact .pure fun completed => nomatch completed
  | true =>
      rw [if_neg (by decide)]
      cases element.schema with
      | none =>
          refine (settleElement_below site element context none ?_).imp fun ran => settles
          exact fun _ => rfl
      | some schema =>
          dsimp only
          split
          · refine (settleElement_below site element context (some schema) ?_).imp
              fun ran => settles
            exact fun _ => rfl
          · split
            · refine (settleElement_below site _ context (some schema) ?_).imp fun ran => settles
              exact fun _ => rfl
            · exact runElement_below setting site element schema context visits

/-- A law that visits leave of their own elements is left of those below them as well. -/
theorem visitElement_keeps {setting : Setting} (left : Visited.LeftBy setting law)
    (element : Element) (children : List Visitor)
    (visits : List.Forall₂ (Visitor.Visits (Element.Keeps law)) children element.children) :
    element.Keeps law (visitElement setting element children) := by
  intro site context
  have itself := left element children site context
  refine (itself.and (visitElement_below setting site element context visits)).imp ?_
  rintro ran ⟨holds, below⟩ completed
  rcases below completed with ⟨result, hasResult, below⟩
  exact ⟨result, hasResult, Visited.throughout_of_below (holds result hasResult) below⟩

theorem Element.visit_keeps {setting : Setting} (left : Visited.LeftBy setting law)
    (element : Element) : element.Keeps law (element.visit setting) :=
  Element.visit_induction (visitElement_keeps left) element

/-- A law that visits leave of their own elements holds of all elements in the tree of a walk that
was not cut short. -/
theorem Configuration.run_throughout {setting : Setting} (left : Visited.LeftBy setting law)
    (configuration : Configuration) (context : Context) :
    (configuration.run setting context).Always fun ran => ran.ending = .completed →
      ∀ visited, configuration.Visits ran.results visited → law visited := by
  refine .ask fun goesOn => ?_
  cases goesOn with
  | false => exact .pure fun completed => nomatch completed
  | true =>
      refine .ask fun _ => ?_
      have visits := forall₂_inOrder (fun _ _ visit => visit.order)
        (Element.visitors_induction (visitElement_keeps left) 0 configuration.elements)
      refine .bind (walkLevel_keeps .top visits) fun level kept => .pure ?_
      rintro completed visited ⟨elements, top, order, onLevel, holds⟩
      rcases kept completed with ⟨results, levelResults, lawful⟩
      rw [order.eq_inOrder] at onLevel
      have onTop : Visited.OnLevel true [] (inOrder Element.order configuration.elements) results
          top := by
        simpa [levelResults, Site.top] using onLevel
      exact lawful top onTop visited holds

end TestEngine
