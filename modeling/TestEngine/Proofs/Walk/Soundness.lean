import TestEngine.Proofs.Walk.Law
import TestEngine.Proofs.Walk.Record
import TestEngine.Proofs.Walk.RollUp

/-!
# Soundness of walks

A walk that was not cut short has published, in the place it was given, the record of its elements
with rolled-up verdicts. The invariant is one on what was published last: before the visit of an
element it is the tree without the element, and after it the tree with the element's result behind
those of its siblings, so that the next sibling finds the tree as its site describes it.
-/

namespace TestEngine

variable {α β : Type}

/-! ### Publishing -/

/-- A program that keeps to the conduct of runs, and that ends with a condition on what it publishes
last if it finds some results published. -/
def Program.Publishes (program : Program α) (shown : List ElementResult)
    (condition : α → List ElementResult → Prop) : Prop :=
  ∀ good standing, standing.ended = none → standing.published = shown →
    program.Obeys (conduct good) standing fun value reached =>
      reached.ended = none ∧ condition value reached.published

namespace Program.Publishes

variable {shown : List ElementResult} {condition : α → List ElementResult → Prop}

theorem pure {value : α} (holds : condition value shown) :
    (Pure.pure value : Program α).Publishes shown condition := by
  intro good standing underWay published
  exact ⟨underWay, published ▸ holds⟩

theorem imp {program : Program α} {weaker : α → List ElementResult → Prop}
    (publishes : program.Publishes shown condition)
    (weakens : ∀ value results, condition value results → weaker value results) :
    program.Publishes shown weaker := by
  intro good standing underWay published
  refine (publishes good standing underWay published).imp ?_
  rintro value reached ⟨underWay, holds⟩
  exact ⟨underWay, weakens value _ holds⟩

theorem bind {program : Program β} {next : β → Program α} {middle : β → List ElementResult → Prop}
    (first : program.Publishes shown middle)
    (rest : ∀ value results, middle value results → (next value).Publishes results condition) :
    (program >>= next).Publishes shown condition := by
  intro good standing underWay published
  refine Program.obeys_bind.mpr ((first good standing underWay published).imp ?_)
  rintro value reached ⟨underWay, holds⟩
  exact rest value _ holds good reached underWay rfl

theorem ask {request : Request} {next : request.Answer → Program α}
    (allowed : ∀ good standing, standing.ended = none → (conduct good).allows standing request)
    (remains : ∀ (standing : Standing) answer, standing.ended = none →
      standing.Remains (standing.after request answer))
    (rest : ∀ answer, (next answer).Publishes shown condition) :
    (Program.request request >>= next).Publishes shown condition := by
  intro good standing underWay published
  refine ⟨allowed good standing underWay, fun answer => ?_⟩
  rcases remains standing answer underWay with ⟨same, stillUnderWay⟩
  exact rest answer good _ stillUnderWay (same.trans published)

theorem quiet {request : Request} {next : request.Answer → Program α} (quiet : request.isQuiet)
    (rest : ∀ answer, (next answer).Publishes shown condition) :
    (Program.request request >>= next).Publishes shown condition :=
  ask (fun _ _ underWay => conduct_allows_of_isQuiet underWay quiet)
    (fun _ answer underWay => Standing.remains_after_of_isQuiet underWay quiet answer) rest

theorem checkpoint {next : Bool → Program α}
    (rest : ∀ goesOn, (next goesOn).Publishes shown condition) :
    (Program.request .checkpoint >>= next).Publishes shown condition :=
  ask (fun _ _ underWay => ⟨underWay, trivial⟩) (fun _ _ underWay => ⟨rfl, underWay⟩) rest

theorem publish {results : List ElementResult} {next : Unit → Program α}
    (rest : (next ()).Publishes results condition) :
    (Program.request (.publish results) >>= next).Publishes shown condition := by
  intro good standing underWay published
  exact ⟨⟨underWay, trivial⟩, fun _ => rest good _ underWay rfl⟩

theorem script {script : Script} {run : Context → Program ScriptRun} (runs : script.RunsSoundly run)
    {context : Context} {next : ScriptRun → Program α}
    (rest : ∀ ran : ScriptRun, ran.Sound script → (next ran).Publishes shown condition) :
    (run context >>= next).Publishes shown condition := by
  intro good standing underWay published
  refine Program.obeys_bind.mpr ((runs context good standing underWay).imp ?_)
  rintro ran reached ⟨⟨same, stillUnderWay⟩, sound⟩
  exact rest ran sound good reached stillUnderWay (same.trans published)

end Program.Publishes

/-! ### Results -/

namespace ElementResult

/-- What a site shows with a result behind those of the siblings. -/
def shownAt (result : ElementResult) (site : Site) : List ElementResult :=
  site.plug (site.siblings ++ [result])

/-- A result that goes on from another one, with the same element and the same children. -/
structure Continues (before after : ElementResult) : Prop where
  elementId : after.elementId = before.elementId
  name : after.name = before.name
  results : after.results = before.results

theorem Continues.refl (result : ElementResult) : result.Continues result := ⟨rfl, rfl, rfl⟩

theorem Continues.trans {first middle last : ElementResult} (before : first.Continues middle)
    (after : middle.Continues last) : first.Continues last :=
  ⟨after.elementId.trans before.elementId, after.name.trans before.name,
    after.results.trans before.results⟩

theorem rollUp_eq (result : ElementResult) :
    result.rollUp = { result with verdict := result.rollUp.verdict } := by
  cases result
  rw [rollUp]
  split
  · rfl
  · split <;> rfl

@[simp]
theorem results_finish (result : ElementResult) (now : Calendar.Instant) :
    (result.finish now).results = result.results := by
  rw [finish, rollUp_eq]

@[simp]
theorem scripts_finish (result : ElementResult) (now : Calendar.Instant) :
    (result.finish now).scripts = result.scripts := by
  rw [finish, rollUp_eq]

theorem continues_finish (result : ElementResult) (now : Calendar.Instant) :
    result.Continues (result.finish now) := by
  rw [finish, rollUp_eq]
  exact ⟨rfl, rfl, rfl⟩

/-- An element that is rolled up over what is below it is rolled up as a whole. -/
theorem rolledUp_finish {result : ElementResult} (now : Calendar.Instant)
    (results : ∀ child ∈ result.results, child.RolledUp)
    (scripts : ∀ script ∈ result.scripts, script.isFailed ∨ script.Passed)
    (skipped : result.isSkipped → result.results = [] ∧ result.scripts = []) :
    (result.finish now).RolledUp := by
  have verdict : (result.finish now).verdict.isSome ∧
      ((result.finish now).isFailed ∨
        (∀ child ∈ result.results, ¬child.isFailed) ∧
          ∀ script ∈ result.scripts, ¬script.isFailed) := by
    simp only [finish, rollUp]
    split
    · rename_i isSkipped
      rcases skipped isSkipped with ⟨noResults, noScripts⟩
      have verdict : result.verdict = some .skipped := by
        simpa [ElementResult.isSkipped] using isSkipped
      exact ⟨by rw [verdict]; rfl, .inr (by simp [noResults, noScripts])⟩
    · split
      · exact ⟨rfl, .inl rfl⟩
      · rename_i noFailure
        simp only [Bool.or_eq_true, not_or, List.any_eq_true, not_exists, not_and] at noFailure
        exact ⟨rfl, .inr noFailure⟩
  refine .intro verdict.1 ?_ ?_ ?_ ?_
  · simpa using results
  · simpa using scripts
  · intro child childMem childFailed
    rw [results_finish] at childMem
    exact verdict.2.resolve_right fun stand => stand.1 child childMem childFailed
  · intro script scriptMem scriptFailed
    rw [scripts_finish] at scriptMem
    exact verdict.2.resolve_right fun stand => stand.2 script scriptMem scriptFailed

end ElementResult

/-! ### Scripts of an element -/

namespace ElementResult

@[simp]
theorem scripts_addScript (result : ElementResult) (script : ScriptResult) :
    (result.addScript script).scripts = result.scripts ++ [script] := by
  rw [addScript]
  split <;> rfl

theorem continues_addScript (result : ElementResult) (script : ScriptResult) :
    result.Continues (result.addScript script) := by
  rw [addScript]
  split <;> exact ⟨rfl, rfl, rfl⟩

theorem not_isSkipped_addScript {result : ElementResult} (script : ScriptResult)
    (notSkipped : ¬result.isSkipped) : ¬(result.addScript script).isSkipped := by
  rw [addScript]
  split
  · exact Bool.false_ne_true
  · exact notSkipped

end ElementResult

/-- What the scripts of an element leave behind if they were not cut short: a result that goes on
from the one before and is not skipped, with the record of the scripts. -/
structure ScriptsRun.Complete (ran : ScriptsRun) (before : ElementResult) (scripts : List Script)
    (site : Site) (shown : List ElementResult) : Prop where
  continues : before.Continues ran.result
  notSkipped : ¬ran.result.isSkipped
  shown : shown = ran.result.shownAt site
  recorded : ∃ added, ran.result.scripts = before.scripts ++ added ∧
    Script.Recorded scripts added ∧ ∀ script ∈ added, script.isFailed ∨ script.Passed

theorem runScripts_publishes (setting : Setting) (site : Site) (scripts : List Script)
    {result : ElementResult} {context : Context} {shown : List ElementResult}
    (notSkipped : ¬result.isSkipped) (shownAt : shown = result.shownAt site) :
    (runScripts site (scripts.map fun script => script.run setting) result context).Publishes shown
      fun ran shown => ran.ending = .completed → ran.Complete result scripts site shown := by
  induction scripts generalizing result context shown with
  | nil => exact .pure fun _ => ⟨.refl result, notSkipped, shownAt, [], by simp, .nil, by simp⟩
  | cons script rest ih =>
      refine .script (script.run_runsSoundly setting) fun ran sound => ?_
      have continues := result.continues_addScript ran.result
      have stillNotSkipped := ElementResult.not_isSkipped_addScript ran.result notSkipped
      have hasResult : script.HasResult ran.result := ⟨sound.scriptId, sound.name⟩
      split
      · exact .pure fun completed => nomatch completed
      · rename_i notCrashed
        refine .publish ?_
        split
        · exact .pure fun completed => nomatch completed
        · rename_i notInterrupted
          have judged : ran.result.isFailed ∨ ran.result.Passed := by
            refine sound.outcome ?_
            cases ended : ran.ending with
            | completed => rfl
            | interrupted => exact absurd ended notInterrupted
            | crashed => exact absurd ended notCrashed
          split
          · rename_i isFailed
            exact .pure fun _ =>
              ⟨continues, stillNotSkipped, rfl, [ran.result], by simp, .failed hasResult isFailed,
                by simpa using judged⟩
          · rename_i stands
            refine (ih stillNotSkipped rfl).imp fun after shown complete completed => ?_
            rcases complete completed with
              ⟨goesOn, notSkipped, shown, added, scripts, recorded, sound⟩
            refine ⟨continues.trans goesOn, notSkipped, shown, ran.result :: added, ?_, ?_, ?_⟩
            · simp [scripts]
            · exact .passed hasResult stands recorded
            · exact List.forall_mem_cons.mpr ⟨judged, sound⟩

/-- The scripts that an element runs are those that are due, in visiting order. -/
theorem runElementScripts_publishes (setting : Setting) (site : Site) (element : Element)
    (schema : Schema) {result : ElementResult} {context : Context} {shown : List ElementResult}
    (automatic : ¬element.isManualLeaf) (notSkipped : ¬result.isSkipped)
    (shownAt : shown = result.shownAt site) :
    (runElementScripts setting site element schema result context).Publishes shown
      fun ran shown => ran.ending = .completed →
        ran.Complete result (inOrder Script.order (element.dueScripts schema)) site shown := by
  have nothingDue {after : ElementResult} (continues : result.Continues after)
      (notSkipped : ¬after.isSkipped) (scripts : after.scripts = result.scripts)
      (noneDue : element.dueScripts schema = []) :
      ScriptsRun.Complete ⟨after, .completed, context⟩ result
        (inOrder Script.order (element.dueScripts schema)) site (after.shownAt site) := by
    rw [noneDue]
    exact ⟨continues, notSkipped, rfl, [], by simp [scripts], .nil, by simp⟩
  rw [runElementScripts]
  split
  · rename_i noScripts
    rw [shownAt]
    refine .pure fun _ => nothingDue (.refl result) notSkipped rfl ?_
    rcases Bool.or_eq_true_iff.mp noScripts with noneHeld | forbidden
    · simp [Element.dueScripts, List.eq_nil_of_length_eq_zero (of_decide_eq_true noneHeld)]
    · simp [Element.dueScripts, of_decide_eq_true forbidden]
  · rename_i someScripts
    split
    · rename_i tooMany
      refine .publish (.pure fun _ => nothingDue ⟨rfl, rfl, rfl⟩ Bool.false_ne_true rfl ?_)
      simp [Element.dueScripts, tooMany]
    · rename_i fewEnough
      have allDue : element.dueScripts schema = element.scripts := by
        simp_all [Element.dueScripts]
      rw [allDue]
      exact runScripts_publishes setting site _ notSkipped shownAt

/-! ### Manual elements -/

theorem ElementResult.continues_takeManual (result : ElementResult) (input : Option Interaction) :
    result.Continues (result.takeManual input).1 ∧
      (result.takeManual input).1.scripts = result.scripts := by
  rw [takeManual]
  split
  · exact ⟨⟨rfl, rfl, rfl⟩, rfl⟩
  · split <;> exact ⟨⟨rfl, rfl, rfl⟩, rfl⟩

theorem cancelIf_publishes {cancelled : Bool} {next : Unit → Program α}
    {shown : List ElementResult} {condition : α → List ElementResult → Prop}
    (rest : (next ()).Publishes shown condition) :
    (cancelIf cancelled >>= next).Publishes shown condition := by
  cases cancelled with
  | false => exact rest
  | true => exact .quiet rfl fun _ => rest

theorem takeManualInput_publishes (site : Site) (result : ElementResult)
    (input : Option (Option Interaction)) {shown : List ElementResult} :
    (takeManualInput site result input).Publishes shown fun after shown =>
      result.Continues after.1 ∧ after.1.scripts = result.scripts ∧
        shown = after.1.shownAt site := by
  cases input with
  | none => exact .publish (.pure ⟨⟨rfl, rfl, rfl⟩, rfl, rfl⟩)
  | some input =>
      rcases result.continues_takeManual input with ⟨continues, scripts⟩
      exact .publish (cancelIf_publishes (.pure ⟨continues, scripts, rfl⟩))

/-- A tester gives a verdict and neither results nor scripts. -/
theorem awaitManualResult_publishes (setting : Setting) (site : Site) (result : ElementResult)
    {shown : List ElementResult} :
    (awaitManualResult setting site result).Publishes shown fun after shown =>
      result.Continues after.1 ∧ after.1.scripts = result.scripts ∧
        shown = after.1.shownAt site := by
  rw [awaitManualResult]
  split
  · exact .publish (.pure ⟨⟨rfl, rfl, rfl⟩, rfl, rfl⟩)
  · refine .quiet rfl fun start => ?_
    refine .publish ?_
    refine .quiet rfl fun _ => ?_
    refine .quiet rfl fun input => ?_
    refine (takeManualInput_publishes site _ input).imp ?_
    rintro after shown ⟨continues, scripts, shownAt⟩
    exact ⟨⟨continues.elementId, continues.name, continues.results⟩, scripts, shownAt⟩

/-! ### Elements -/

/-- What a visit leaves behind if it was not cut short. -/
def ElementRun.Complete (ran : ElementRun) (element : Element) (site : Site)
    (shown : List ElementResult) : Prop :=
  ∃ result, ran.result = some result ∧ shown = result.shownAt site ∧ result.RolledUp ∧
    Element.Recorded site.isTop site.siblings element result

/-- A way of visiting an element that leaves the record of the element at its site. -/
def Element.Walks (element : Element) (visit : ElementVisit) : Prop :=
  ∀ site context, (visit site context).Publishes (site.plug site.siblings) fun ran shown =>
    ran.ending = .completed → ran.Complete element site shown

/-- What walking a level leaves behind if it was not cut short. -/
structure LevelRun.Complete (level : LevelRun) (elements : List Element) (site : Site)
    (shown : List ElementResult) (results : List ElementResult) : Prop where
  siblings : level.results = site.siblings ++ results
  shown : shown = site.plug level.results
  rolledUp : ∀ result ∈ results, result.RolledUp
  recorded : Element.LevelRecorded site.isTop site.siblings elements results

theorem walkLevel_publishes {visitors : List Visitor} {elements : List Element} (site : Site)
    {authored : List Element} {context : Context}
    (visits : List.Forall₂ (Visitor.Visits Element.Walks) visitors elements) :
    (walkLevel site visitors authored context).Publishes (site.plug site.siblings)
      fun level shown =>
      level.ending = .completed → ∃ results, level.Complete elements site shown results := by
  induction visits generalizing site authored context with
  | nil => exact .pure fun _ => ⟨[], by simp, rfl, by simp, .nil⟩
  | @cons visitor element visitors elements visit _ ih =>
      refine .bind (visit.visited site context) fun ran shown complete => ?_
      cases ended : ran.ending with
      | interrupted => exact .pure fun completed => nomatch completed
      | crashed => exact .pure fun completed => nomatch completed
      | completed =>
          rcases complete ended with ⟨result, ranResult, shownAt, rolledUp, recorded⟩
          have siblings : site.siblings ++ ran.result.toList = site.siblings ++ [result] := by
            rw [ranResult]
            rfl
          simp only [siblings]
          rw [shownAt]
          refine (ih { site with siblings := site.siblings ++ [result] }).imp ?_
          intro level shown restComplete completed
          rcases restComplete completed with
            ⟨results, levelResults, shown, restRolledUp, restRecorded⟩
          refine ⟨result :: results, ?_, shown, ?_, .cons recorded restRecorded⟩
          · simp [levelResults]
          · exact List.forall_mem_cons.mpr ⟨rolledUp, restRolledUp⟩

theorem closeElement_publishes {site : Site} {element changed : Element} {result : ElementResult}
    {ending : Ending} {context : Context} {shown : List ElementResult}
    (finished : ending = .completed → ∀ stop, (result.finish stop).RolledUp ∧
      Element.Recorded site.isTop site.siblings element (result.finish stop)) :
    (closeElement site changed result ending context).Publishes shown fun ran shown =>
      ran.ending = .completed → ran.Complete element site shown := by
  cases ending with
  | crashed => exact .pure fun completed => nomatch completed
  | interrupted =>
      refine .quiet rfl fun stop => ?_
      exact .publish (.pure fun completed => nomatch completed)
  | completed =>
      refine .quiet rfl fun stop => ?_
      rcases finished rfl stop with ⟨rolledUp, recorded⟩
      exact .publish (.pure fun _ => ⟨_, rfl, rfl, rolledUp, recorded⟩)

theorem settleElement_publishes {site : Site} {element changed : Element} {context : Context}
    {judge : ElementResult → ElementResult} {schema : Option Schema} {shown : List ElementResult}
    (sameElement : changed.id = element.id ∧ changed.name = element.name)
    (judged : ∀ result : ElementResult, result.Continues (judge result) ∧
      (judge result).scripts = result.scripts)
    (noVisit : element.visitSchema? site.isTop site.siblings = none) :
    (settleElement site changed context judge schema).Publishes shown fun ran shown =>
      ran.ending = .completed → ran.Complete element site shown := by
  refine .quiet rfl fun start => ?_
  refine .quiet rfl fun stop => ?_
  rcases judged (.ofElement changed schema start) with ⟨continues, sameScripts⟩
  have noResults : (judge (.ofElement changed schema start)).results = [] := continues.results
  have noScripts : (judge (.ofElement changed schema start)).scripts = [] := sameScripts
  have finished := continues.trans (ElementResult.continues_finish _ stop)
  have hasResult : element.HasResult ((judge (.ofElement changed schema start)).finish stop) :=
    ⟨finished.elementId.trans sameElement.1, finished.name.trans sameElement.2⟩
  refine .publish (.pure fun _ => ⟨_, rfl, rfl, ?_, .unvisited hasResult noVisit ?_ ?_⟩)
  · exact ElementResult.rolledUp_finish stop (by simp [noResults]) (by simp [noScripts])
      fun _ => ⟨noResults, noScripts⟩
  · simp [noResults]
  · simp [noScripts]

theorem Site.plug_below (site : Site) (result : ElementResult) :
    (site.below result).plug (site.below result).siblings = result.shownAt site := by
  cases result
  rfl

theorem Element.recorded_of_manual {element : Element} {schema : Schema} {isTop : Bool}
    {earlier : List ElementResult} {result : ElementResult} (manual : element.isManualLeaf)
    (visit : element.visitSchema? isTop earlier = some schema)
    (hasResult : element.HasResult result)
    (noResults : result.results = []) (noScripts : result.scripts = []) :
    Element.Recorded isTop earlier element result := by
  have noChildren : element.children = [] := by
    simpa using (Bool.and_eq_true_iff.mp manual).2
  have noneDue : element.dueScripts schema = [] := by simp [dueScripts, manual]
  refine .visited hasResult visit (visitingOrder_inOrder _ _) ?_ (visitingOrder_inOrder _ _) ?_
  · rw [noResults, noChildren]
    exact .nil
  · rw [noScripts, noneDue]
    exact .nil

/-- A visited element that is not skipped ends with the records of its children and its scripts. -/
theorem Element.recorded_of_visit {element : Element} {schema : Schema} {isTop : Bool}
    {earlier : List ElementResult} {result : ElementResult}
    (visit : element.visitSchema? isTop earlier = some schema)
    (hasResult : element.HasResult result)
    (notSkipped : ¬result.isSkipped) (rolledUp : ∀ child ∈ result.results, child.RolledUp)
    (childrenRecorded :
      Element.LevelRecorded false [] (inOrder Element.order element.children) result.results)
    (judged : ∀ script ∈ result.scripts, script.isFailed ∨ script.Passed)
    (scriptsRecorded :
      Script.Recorded (inOrder Script.order (element.dueScripts schema)) result.scripts)
    (stop : Calendar.Instant) :
    (result.finish stop).RolledUp ∧
      Element.Recorded isTop earlier element (result.finish stop) := by
  have finished := result.continues_finish stop
  refine ⟨ElementResult.rolledUp_finish stop rolledUp judged (absurd · notSkipped), ?_⟩
  refine .visited ?_ visit (visitingOrder_inOrder _ _) ?_ (visitingOrder_inOrder _ _) ?_
  · exact ⟨finished.elementId.trans hasResult.1, finished.name.trans hasResult.2⟩
  · simpa using childrenRecorded
  · simpa using scriptsRecorded

theorem runElement_publishes (setting : Setting) {site : Site} {element : Element} {schema : Schema}
    {children : List Visitor} {context : Context} {shown : List ElementResult}
    (visit : element.visitSchema? site.isTop site.siblings = some schema)
    (visits : List.Forall₂ (Visitor.Visits Element.Walks) children element.children) :
    (runElement setting site element schema children context).Publishes shown fun ran shown =>
      ran.ending = .completed → ran.Complete element site shown := by
  refine .quiet rfl fun start => ?_
  refine .publish ?_
  split
  · rename_i manual
    refine .bind (awaitManualResult_publishes setting site _) ?_
    rintro ⟨result, ending⟩ shown ⟨continues, scripts, shownAt⟩
    refine closeElement_publishes fun _ stop => ?_
    have finished := continues.trans (result.continues_finish stop)
    have noResults : result.results = [] := continues.results
    have noScripts : result.scripts = [] := scripts
    refine ⟨ElementResult.rolledUp_finish stop (by simp [noResults]) (by simp [noScripts])
      fun _ => ⟨noResults, noScripts⟩, ?_⟩
    exact Element.recorded_of_manual manual visit ⟨finished.elementId, finished.name⟩
      finished.results (by simp [noScripts])
  · rename_i automatic
    refine .bind (runElementScripts_publishes setting site element schema automatic
      (by simp [ElementResult.ofElement, ElementResult.isSkipped]) rfl) ?_
    intro ran shown complete
    split
    · rename_i cutShort
      refine closeElement_publishes fun completed => ?_
      have notSkipped := (complete completed).notSkipped
      simp [completed, notSkipped] at cutShort
    · rename_i notCutShort
      have completed : ran.ending = .completed := by simp_all
      rcases complete completed with
        ⟨continues, notSkipped, shownAt, scripts, ranScripts, recorded, judged⟩
      have noResults : ran.result.results = [] := continues.results
      -- What the scripts have published is what the children find at the site below the result.
      rw [shownAt, ← Site.plug_below]
      have sorted := forall₂_inOrder (fun _ _ visit => visit.order) visits
      refine .bind (walkLevel_publishes _ sorted) ?_
      intro level shown levelComplete
      refine closeElement_publishes fun levelCompleted stop => ?_
      rcases levelComplete levelCompleted with ⟨results, levelResults, -, rolledUp, levelRecorded⟩
      have sameResults : level.results = results := by
        simpa [Site.below, noResults] using levelResults
      have sameScripts : ran.result.scripts = scripts := ranScripts
      have sameSiblings : (site.below ran.result).siblings = [] := noResults
      rw [sameSiblings] at levelRecorded
      have hasResult : element.HasResult { ran.result with results := level.results } :=
        ⟨continues.elementId, continues.name⟩
      refine Element.recorded_of_visit visit hasResult notSkipped ?_ ?_ ?_ ?_ stop
      · exact sameResults ▸ rolledUp
      · exact sameResults ▸ levelRecorded
      · exact sameScripts ▸ judged
      · exact sameScripts ▸ recorded

/-- The visit of an element records it if the visits of its children record them. -/
theorem visitElement_walks (setting : Setting) (element : Element) (children : List Visitor)
    (visits : List.Forall₂ (Visitor.Visits Element.Walks) children element.children) :
    element.Walks (visitElement setting element children) := by
  intro site context
  refine .checkpoint fun goesOn => ?_
  cases goesOn with
  | false => exact .pure fun completed => nomatch completed
  | true =>
      rw [if_neg (by decide)]
      cases hasSchema : element.schema with
      | none =>
          refine settleElement_publishes ⟨rfl, rfl⟩ (fun _ => ⟨⟨rfl, rfl, rfl⟩, rfl⟩) ?_
          simp [Element.visitSchema?, hasSchema]
      | some schema =>
          dsimp only
          split
          · rename_i authorSkips
            refine settleElement_publishes ⟨rfl, rfl⟩ (fun _ => ⟨⟨rfl, rfl, rfl⟩, rfl⟩) ?_
            rw [Element.visitSchema?, hasSchema, Option.filter_some, authorSkips]
            rfl
          · rename_i authorRuns
            split
            · rename_i reason failure
              refine settleElement_publishes ⟨rfl, rfl⟩ (fun _ => ⟨⟨rfl, rfl, rfl⟩, rfl⟩) ?_
              simp [Element.visitSchema?, hasSchema, failure]
            · rename_i noFailure
              refine runElement_publishes setting ?_ visits
              rw [Element.visitSchema?, hasSchema, Option.filter_some, noFailure,
                Bool.eq_false_iff.mpr authorRuns]
              rfl

/-- Every element is recorded by its visit, whatever the answers to its requests are. -/
theorem Element.visit_walks (setting : Setting) (element : Element) :
    element.Walks (element.visit setting) :=
  Element.visit_induction (visitElement_walks setting) element

/-! ### Configurations -/

/-- What the walk of a configuration leaves behind if it was not cut short. -/
structure Configuration.Walked (configuration : Configuration) (results : List ElementResult) :
    Prop where
  rolledUp : ∀ result ∈ results, result.RolledUp
  recorded : configuration.Recorded results

theorem Configuration.run_publishes (setting : Setting) (configuration : Configuration)
    (context : Context) :
    (configuration.run setting context).Publishes [] fun ran shown =>
      ran.ending = .completed → ran.results = shown ∧ configuration.Walked shown := by
  refine .checkpoint fun goesOn => ?_
  cases goesOn with
  | false => exact .pure fun completed => nomatch completed
  | true =>
      refine .quiet rfl fun _ => ?_
      have visits := forall₂_inOrder (fun _ _ visit => visit.order)
        (Element.visitors_induction (visitElement_walks setting) 0 configuration.elements)
      refine .bind (walkLevel_publishes .top visits) ?_
      intro level shown complete
      refine .pure fun completed => ?_
      rcases complete completed with ⟨results, levelResults, shownAt, rolledUp, recorded⟩
      have sameResults : shown = results := shownAt.trans levelResults
      rw [sameResults]
      exact ⟨levelResults, rolledUp, _, visitingOrder_inOrder _ _, recorded⟩

/-- Once a job has begun, it walks its configuration and ends with the status that it is told. -/
theorem Configuration.finishJob_obeys (setting : Setting) (configuration : Configuration)
    (context : Context) :
    (configuration.run setting context >>= fun ran => Program.request (.endJob ran.ending)).Obeys
      (conduct configuration.Walked) .initial
      fun status reached => reached.ended = some status := by
  refine Program.obeys_bind.mpr
    ((configuration.run_publishes setting context configuration.Walked .initial rfl rfl).imp ?_)
  rintro ran reached ⟨underWay, complete⟩
  exact ⟨⟨underWay, fun completed => (complete completed).2⟩, fun status => rfl⟩

end TestEngine
