import TestEngine.Configuration.Issue
import TestEngine.Proofs.Walk.Flags
import TestEngine.Proofs.Walk.Skipping
import TestEngine.Proofs.Walk.Testimony
import TestEngine.Proofs.Walk.Unwinding

/-!
# Issues and failures

What is told of a configuration before it runs, and what becomes of that in a walk. The issues go by
the tree of elements alone, and the walk comes to the same checks behind several others: an element
may be skipped, or be a tester's, or not be visited at all. `Visited.FailsAsTold` says of a visited
element what the walk makes of its issue, and it depends on nothing below the element.
-/

namespace TestEngine

/-! ### Issues -/

/-- What is wrong with an element: it has no schema, or more scripts than its schema permits. -/
inductive Element.Breaks (element : Element) : Issue → Prop
  | noSchema (noSchema : element.schema = none) : element.Breaks (.noSchema element.name)
  | scriptsNotPermitted {schema : Schema} (hasSchema : element.schema = some schema)
      (permitsNone : schema.scripts = .none) (hasScripts : 0 < element.scripts.length) :
      element.Breaks (.scriptsNotPermitted element.name element.scripts.length)
  | tooManyScripts {schema : Schema} (hasSchema : element.schema = some schema)
      (permitsOne : schema.scripts = .one) (hasMore : 1 < element.scripts.length) :
      element.Breaks (.tooManyScripts element.name element.scripts.length)

namespace Element

variable {element inner : Element}

def issue? (element : Element) : Option Issue :=
  Issue.of? element.name element.schema element.scripts.length

theorem issue?_eq_some {issue : Issue} : element.issue? = some issue ↔ element.Breaks issue := by
  constructor
  · intro hasIssue
    cases hasSchema : element.schema with
    | none =>
        obtain rfl : .noSchema element.name = issue := by
          simpa [issue?, Issue.of?, hasSchema] using hasIssue
        exact .noSchema hasSchema
    | some schema =>
        cases permits : schema.scripts with
        | none =>
            rcases show 0 < element.scripts.length ∧ _ = issue by
              simpa only [issue?, Issue.of?, hasSchema, permits, Option.ite_none_right_eq_some,
                Option.some.injEq] using hasIssue with ⟨hasScripts, rfl⟩
            exact .scriptsNotPermitted hasSchema permits hasScripts
        | one =>
            rcases show 1 < element.scripts.length ∧ _ = issue by
              simpa only [issue?, Issue.of?, hasSchema, permits, Option.ite_none_right_eq_some,
                Option.some.injEq] using hasIssue with ⟨hasMore, rfl⟩
            exact .tooManyScripts hasSchema permits hasMore
        | many => simp [issue?, Issue.of?, hasSchema, permits] at hasIssue
  · rintro (noSchema | ⟨hasSchema, permitsNone, hasScripts⟩ | ⟨hasSchema, permitsOne, hasMore⟩)
    · simp [issue?, Issue.of?, noSchema]
    · simp only [issue?, Issue.of?, hasSchema, permitsNone, if_pos hasScripts]
    · simp only [issue?, Issue.of?, hasSchema, permitsOne, if_pos hasMore]

mutual

/-- An element and those below it, each before its children, in the author's order. -/
def preorder : Element → List Element
  | element@⟨_, _, _, _, _, children, _, _, _, _⟩ => element :: listPreorder children

def listPreorder : List Element → List Element
  | [] => []
  | element :: rest => element.preorder ++ listPreorder rest

end

mutual

theorem issues_eq : (element : Element) → element.issues = element.preorder.filterMap issue?
  | ⟨_, _, _, _, _, children, _, _, _, _⟩ => by
      rw [issues, preorder, listIssues_eq children, List.filterMap_cons]
      simp only [issue?]
      split <;> simp [*]

theorem listIssues_eq :
    (elements : List Element) → listIssues elements = (listPreorder elements).filterMap issue?
  | [] => rfl
  | element :: rest => by
      rw [listIssues, listPreorder, issues_eq element, listIssues_eq rest, List.filterMap_append]

end

theorem above_iff : element.Above inner ↔
    ∃ child ∈ element.children, inner = child ∨ child.Above inner := by
  constructor
  · rintro (childMem | ⟨childMem, above⟩)
    · exact ⟨_, childMem, .inl rfl⟩
    · exact ⟨_, childMem, .inr above⟩
  · rintro ⟨child, childMem, rfl | above⟩
    · exact .child childMem
    · exact .deeper childMem above

mutual

theorem mem_preorder :
    (element : Element) → (inner ∈ element.preorder ↔ inner = element ∨ element.Above inner)
  | ⟨_, _, _, _, _, children, _, _, _, _⟩ => by
      rw [preorder, List.mem_cons, mem_listPreorder children, above_iff]

theorem mem_listPreorder : (elements : List Element) →
    (inner ∈ listPreorder elements ↔ ∃ top ∈ elements, inner = top ∨ top.Above inner)
  | [] => by simp [listPreorder]
  | element :: rest => by
      rw [listPreorder, List.mem_append, mem_preorder element, mem_listPreorder rest]
      simp

end

end Element

/-- All elements of a configuration, each before those below it, in the author's order. -/
def Configuration.preorder (configuration : Configuration) : List Element :=
  Element.listPreorder configuration.elements

/-! ### Failures -/

namespace Element

/-- What the walk says of an element that has no schema. -/
def noSchemaText (element : Element) : String :=
  "Element '" ++ element.name ++ "' has no schema element"

/-- What the walk says of an element with more scripts than its schema permits. -/
def tooManyScriptsText (element : Element) : String :=
  "Configuration error: element '" ++ element.name ++ "' permits one script but has " ++
    toString element.scripts.length

/-- Two letters tell the messages of the walk apart, whatever the names of the elements are. -/
@[simp]
theorem take_noSchemaText (element : Element) :
    element.noSchemaText.toList.take 2 = ['E', 'l'] := by
  simp [noSchemaText]

@[simp]
theorem take_tooManyScriptsText (element : Element) :
    element.tooManyScriptsText.toList.take 2 = ['C', 'o'] := by
  have beginning (name count : String) : ("Configuration error: element '" ++ name ++
      "' permits one script but has " ++ count).toList.take 2 = ['C', 'o'] := by simp
  exact beginning element.name (toString element.scripts.length)

end Element

namespace ElementResult

/-- A result that holds a message, and neither a script nor a tester that could have left it. -/
structure Blames (result : ElementResult) (text : String) : Prop where
  message : result.message = some text
  noScripts : result.scripts = []
  noManual : result.manual = none

/-- The result of an element that the walk itself has failed for a reason. -/
structure FailsFor (result : ElementResult) (text : String) : Prop extends result.Blames text where
  failed : result.verdict = some .failed

@[simp]
theorem message_finish (result : ElementResult) (now : Calendar.Instant) :
    (result.finish now).message = result.message := by
  rw [finish, rollUp_eq]

variable {result : ElementResult} {element : Element} {text : String}

theorem Blames.finish (blames : result.Blames text) (now : Calendar.Instant) :
    (result.finish now).Blames text :=
  ⟨by simpa using blames.message, by simpa using blames.noScripts, by simpa using blames.noManual⟩

theorem Blames.of_finish {now : Calendar.Instant} (blames : (result.finish now).Blames text) :
    result.Blames text :=
  ⟨by simpa using blames.message, by simpa using blames.noScripts, by simpa using blames.noManual⟩

/-- A result that blames its element neither for its schema nor for its scripts. -/
structure IsClearOf (result : ElementResult) (element : Element) : Prop where
  schema : ¬result.Blames element.noSchemaText
  scripts : ¬result.Blames element.tooManyScriptsText

theorem isClearOf_of_message (noMessage : result.message = none) : result.IsClearOf element :=
  ⟨fun blames => by simpa [noMessage] using blames.message,
    fun blames => by simpa [noMessage] using blames.message⟩

theorem isClearOf_of_scripts (hasScripts : result.scripts ≠ []) : result.IsClearOf element :=
  ⟨fun blames => hasScripts blames.noScripts, fun blames => hasScripts blames.noScripts⟩

theorem isClearOf_of_manual (hasManual : result.manual ≠ none) : result.IsClearOf element :=
  ⟨fun blames => hasManual blames.noManual, fun blames => hasManual blames.noManual⟩

theorem isClearOf_fail (result : ElementResult) (element : Element) {message : String}
    (noSchema : message.toList.take 2 ≠ ['E', 'l']) (scripts : message.toList.take 2 ≠ ['C', 'o']) :
    (result.fail message).IsClearOf element := by
  constructor
  · intro blames
    have same : message = element.noSchemaText := Option.some.inj blames.message
    simp [same] at noSchema
  · intro blames
    have same : message = element.tooManyScriptsText := Option.some.inj blames.message
    simp [same] at scripts

theorem lasting_isClearOf (element : Element) : Lasting fun result => result.IsClearOf element where
  below _ _ isClear :=
    ⟨fun blames => isClear.schema ⟨blames.message, blames.noScripts, blames.noManual⟩,
      fun blames => isClear.scripts ⟨blames.message, blames.noScripts, blames.noManual⟩⟩
  interrupted result _ _ := isClearOf_fail result element (by decide) (by decide)
  finish _ _ isClear :=
    ⟨fun blames => isClear.schema blames.of_finish, fun blames => isClear.scripts blames.of_finish⟩

theorem FailsFor.finish (fails : result.FailsFor text) (now : Calendar.Instant) :
    (result.finish now).FailsFor text :=
  ⟨fails.toBlames.finish now, verdict_finish_of_failed fails.failed now⟩

theorem lasting_failsFor (text : String) : Lasting fun result => result.FailsFor text where
  below _ _ fails := ⟨⟨fails.message, fails.noScripts, fails.noManual⟩, fails.failed⟩
  interrupted _ fails noVerdict := nomatch noVerdict.symm.trans fails.failed
  finish _ stop fails := fails.finish stop

/-- An element is failed for one thing only. -/
theorem FailsFor.not_schema (fails : result.FailsFor element.tooManyScriptsText) :
    ¬result.FailsFor element.noSchemaText := by
  intro failsForSchema
  have same := Option.some.inj (fails.message.symm.trans failsForSchema.message)
  have beginnings := element.take_noSchemaText
  simp [← same] at beginnings

end ElementResult

/-! ### Visits -/

namespace Visited

/-- The author of the element has it skipped. -/
def AuthorSkipped (visited : Visited) : Prop :=
  ∃ schema, visited.element.schema = some schema ∧ schema.skippable ∧ visited.element.skip

/-- Something that the element depends on did not pass. -/
def HeldBack (visited : Visited) : Prop :=
  ∃ schema reason, visited.element.schema = some schema ∧
    dependencyFailure visited.element schema visited.isTop visited.earlier = some reason

end Visited

section Visits

variable {setting : Setting} {site : Site} {element : Element} {schema : Schema}

/-- An element with more scripts than its schema permits is failed before any of them is run. -/
theorem runElement_fails (children : List Visitor) (context : Context)
    (automatic : ¬element.isManualLeaf) (permitsOne : schema.scripts = .one)
    (hasMore : 1 < element.scripts.length) :
    (runElement setting site element schema children context).Always fun ran =>
      ∃ result, ran.result = some result ∧ result.FailsFor element.tooManyScriptsText := by
  apply runElement_leaves
  · exact ElementResult.lasting_failsFor _
  · exact fun isManual => absurd isManual automatic
  · intro _ start context
    have hasScripts : element.scripts.length ≠ 0 := by omega
    simp only [runElementScripts, permitsOne, hasScripts, hasMore]
    exact .ask fun _ => .pure ⟨⟨rfl, rfl, rfl⟩, rfl⟩

theorem awaitManualResult_isClear (setting : Setting) (site : Site) (result : ElementResult)
    (element : Element) :
    (awaitManualResult setting site result).Always fun taken => taken.1.IsClearOf element := by
  rw [awaitManualResult]
  split
  · exact .ask fun _ => .pure
      (ElementResult.isClearOf_fail result element (by decide) (by decide))
  · refine .ask fun start => .ask fun _ => .ask fun _ => .ask fun input => ?_
    cases input with
    | none =>
        apply Program.Always.ask
        exact fun _ => .pure (ElementResult.isClearOf_of_manual (by simp [ElementResult.fail]))
    | some input =>
        refine .ask fun _ => .thenAny fun _ => .pure (ElementResult.isClearOf_of_manual ?_)
        rw [ElementResult.takeManual]
        split
        · simp [ElementResult.fail]
        · split <;> simp [ElementResult.fail]

/-- An element with no more scripts than its schema permits is not blamed for that, whatever its
scripts and its tester do. -/
theorem runElement_isClear (children : List Visitor) (context : Context)
    (keepsTo : element.isManualLeaf ∨ ¬(schema.scripts = .one ∧ 1 < element.scripts.length)) :
    (runElement setting site element schema children context).Always fun ran =>
      ∃ result, ran.result = some result ∧ result.IsClearOf element := by
  apply runElement_leaves
  · exact ElementResult.lasting_isClearOf element
  · exact fun _ start => awaitManualResult_isClear setting _ _ element
  · intro automatic start context
    have added (result : ElementResult) (script : ScriptResult) :
        result.IsClearOf element → (result.addScript script).IsClearOf element :=
      fun _ => ElementResult.isClearOf_of_scripts (by simp)
    refine runElementScripts_leaves setting schema added ?_ (ElementResult.isClearOf_of_message rfl)
    intro permitsOne hasMore
    exact absurd ⟨permitsOne, hasMore⟩ (keepsTo.resolve_left automatic)

/-- What an element that is visited is failed for by the walk itself. -/
theorem runElement_told (setting : Setting) (site : Site) (element : Element) (schema : Schema)
    (children : List Visitor) (context : Context) :
    (runElement setting site element schema children context).Always fun ran =>
      ∃ result, ran.result = some result ∧ ¬result.FailsFor element.noSchemaText ∧
        (result.FailsFor element.tooManyScriptsText ↔
          ¬element.isManualLeaf ∧ schema.scripts = .one ∧ 1 < element.scripts.length) := by
  by_cases excess : ¬element.isManualLeaf ∧ schema.scripts = .one ∧ 1 < element.scripts.length
  · rcases excess with ⟨automatic, permitsOne, hasMore⟩
    refine (runElement_fails children context automatic permitsOne hasMore).imp ?_
    rintro ran ⟨result, hasResult, fails⟩
    exact ⟨result, hasResult, fails.not_schema,
      iff_of_true fails ⟨automatic, permitsOne, hasMore⟩⟩
  · have keepsTo : element.isManualLeaf ∨
        ¬(schema.scripts = .one ∧ 1 < element.scripts.length) := by
      rcases not_and_or.mp excess with isManual | keepsTo
      · exact .inl (not_not.mp isManual)
      · exact .inr keepsTo
    refine (runElement_isClear children context keepsTo).imp ?_
    rintro ran ⟨result, hasResult, isClear⟩
    exact ⟨result, hasResult, fun fails => isClear.schema fails.toBlames,
      iff_of_false (fun fails => isClear.scripts fails.toBlames) excess⟩

end Visits

namespace Visited

variable {visited : Visited} {schema : Schema}

/-- What the walk makes of the issue of an element: it fails the element unless it skips it or, if
there are too many scripts, leaves it to a tester. -/
structure FailsAsTold (visited : Visited) : Prop where
  noSchema : visited.result.FailsFor visited.element.noSchemaText ↔
    visited.element.issue? = some (.noSchema visited.element.name) ∧
      ¬visited.AuthorSkipped ∧ ¬visited.HeldBack
  tooManyScripts : visited.result.FailsFor visited.element.tooManyScriptsText ↔
    visited.element.issue? =
        some (.tooManyScripts visited.element.name visited.element.scripts.length) ∧
      ¬visited.AuthorSkipped ∧ ¬visited.HeldBack ∧ ¬visited.element.isManualLeaf
  skipped : visited.result.SkippedUnseen ↔ visited.AuthorSkipped ∨ visited.HeldBack

theorem failsAsTold_of_noSchema (noSchema : visited.element.schema = none)
    (fails : visited.result.FailsFor visited.element.noSchemaText) : visited.FailsAsTold := by
  have isIssue : visited.element.issue? = some (.noSchema visited.element.name) :=
    Element.issue?_eq_some.mpr (.noSchema noSchema)
  have notAuthorSkipped : ¬visited.AuthorSkipped := by
    rintro ⟨schema, hasSchema, -⟩
    exact nomatch noSchema.symm.trans hasSchema
  have notHeldBack : ¬visited.HeldBack := by
    rintro ⟨schema, reason, hasSchema, -⟩
    exact nomatch noSchema.symm.trans hasSchema
  constructor
  · exact iff_of_true fails ⟨isIssue, notAuthorSkipped, notHeldBack⟩
  · exact iff_of_false (fun other => other.not_schema fails) fun told => by simp [isIssue] at told
  · apply iff_of_false
    · exact fun skipped => nomatch fails.failed.symm.trans skipped.1
    · exact not_or.mpr ⟨notAuthorSkipped, notHeldBack⟩

theorem failsAsTold_of_skipped (skipped : visited.result.SkippedUnseen)
    (why : visited.AuthorSkipped ∨ visited.HeldBack) : visited.FailsAsTold := by
  have notFailed (text : String) : ¬visited.result.FailsFor text :=
    fun fails => nomatch fails.failed.symm.trans skipped.1
  constructor
  · exact iff_of_false (notFailed _) fun told => why.elim told.2.1 told.2.2
  · exact iff_of_false (notFailed _) fun told => why.elim told.2.1 told.2.2.1
  · exact iff_of_true skipped why

/-- The schema of an element that is visited decides what it is failed for. -/
theorem failsAsTold_of_seen (hasSchema : visited.element.schema = some schema)
    (seen : ¬visited.result.SkippedUnseen) (notAuthorSkipped : ¬visited.AuthorSkipped)
    (notHeldBack : ¬visited.HeldBack)
    (notBlamed : ¬visited.result.FailsFor visited.element.noSchemaText)
    (fails_iff : visited.result.FailsFor visited.element.tooManyScriptsText ↔
      ¬visited.element.isManualLeaf ∧ schema.scripts = .one ∧ 1 < visited.element.scripts.length) :
    visited.FailsAsTold := by
  constructor
  · apply iff_of_false notBlamed
    rintro ⟨isIssue, -⟩
    cases Element.issue?_eq_some.mp isIssue with
    | noSchema noSchema => exact nomatch noSchema.symm.trans hasSchema
  · rw [fails_iff]
    constructor
    · rintro ⟨automatic, permitsOne, hasMore⟩
      have isIssue := Element.issue?_eq_some.mpr (.tooManyScripts hasSchema permitsOne hasMore)
      exact ⟨isIssue, notAuthorSkipped, notHeldBack, automatic⟩
    · rintro ⟨isIssue, -, -, automatic⟩
      cases Element.issue?_eq_some.mp isIssue with
      | tooManyScripts hasOther permitsOne hasMore =>
          cases hasSchema.symm.trans hasOther
          exact ⟨automatic, permitsOne, hasMore⟩
  · exact iff_of_false seen (not_or.mpr ⟨notAuthorSkipped, notHeldBack⟩)

/-- Every visit makes of the issue of its element what is told. -/
theorem leftBy_failsAsTold (setting : Setting) : LeftBy setting FailsAsTold := by
  apply leftBy_of_settled
  · intro isTop earlier element result settled
    cases settled with
    | @noSchema start stop hasNone =>
        have fails : ((ElementResult.ofElement element none start).fail
            element.noSchemaText).FailsFor element.noSchemaText := ⟨⟨rfl, rfl, rfl⟩, rfl⟩
        exact failsAsTold_of_noSchema hasNone (fails.finish stop)
    | @authorSkips schema _ _ hasSchema skips =>
        exact failsAsTold_of_skipped ⟨rfl, rfl⟩ (.inl ⟨schema, hasSchema, skips⟩)
    | @heldBack schema reason _ _ hasSchema _ failure =>
        exact failsAsTold_of_skipped ⟨rfl, rfl⟩ (.inr ⟨schema, reason, hasSchema, failure⟩)
  · intro element schema children site context hasSchema authorRuns noFailure
    have seen := runElement_seen setting site element schema children context
    have told := runElement_told setting site element schema children context
    refine (seen.and told).imp ?_
    rintro ran ⟨⟨result, hasResult, seen⟩, other, hasOther, notBlamed, fails_iff⟩
    cases hasResult.symm.trans hasOther
    refine ⟨result, hasResult, failsAsTold_of_seen hasSchema seen ?_ ?_ notBlamed fails_iff⟩
    · rintro ⟨other, isSchema, skips⟩
      cases hasSchema.symm.trans isSchema
      exact authorRuns skips
    · rintro ⟨other, reason, isSchema, failure⟩
      cases hasSchema.symm.trans isSchema
      exact nomatch noFailure.symm.trans failure

end Visited

/-! ### Trees of results -/

namespace Visited

variable {visited outer inner : Visited} {isTop : Bool} {earlier results : List ElementResult}
  {elements : List Element}

theorem OnLevel.mem (onLevel : OnLevel isTop earlier elements results visited) :
    visited.element ∈ elements := by
  induction onLevel with
  | first => exact List.mem_cons_self
  | later _ ih => exact List.mem_cons_of_mem _ ih

theorem Holds.above (holds : outer.Holds inner) :
    inner.element = outer.element ∨ outer.element.Above inner.element := by
  induction holds with
  | itself => exact .inl rfl
  | deeper order onLevel _ ih =>
      have childMem := order.perm.mem_iff.mp onLevel.mem
      rcases ih with same | above
      · exact .inr (same ▸ .child childMem)
      · exact .inr (.deeper childMem above)

end Visited

theorem Element.LevelRecorded.exists_onLevel {isTop : Bool} {earlier results : List ElementResult}
    {elements : List Element} (recorded : Element.LevelRecorded isTop earlier elements results)
    {result : ElementResult} (resultMem : result ∈ results) :
    ∃ visited, Visited.OnLevel isTop earlier elements results visited ∧ visited.result = result ∧
      visited.element.Recorded visited.isTop visited.earlier visited.result := by
  induction elements generalizing earlier results with
  | nil =>
      cases recorded
      exact absurd resultMem List.not_mem_nil
  | cons element rest ih =>
      rcases recorded with _ | ⟨recorded, restRecorded⟩
      rcases List.mem_cons.mp resultMem with rfl | resultMem
      · exact ⟨_, .first, rfl, recorded⟩
      · rcases ih restRecorded resultMem with ⟨visited, onLevel, isResult, recorded⟩
        exact ⟨visited, .later onLevel, isResult, recorded⟩

/-- In a record, every result is one of an element that was visited. -/
theorem Element.Recorded.exists_visited {visited : Visited}
    (recorded : visited.element.Recorded visited.isTop visited.earlier visited.result)
    {inner : ElementResult} (holds : visited.result.Holds inner) :
    ∃ other, visited.Holds other ∧ other.result = inner := by
  generalize isOuter : visited.result = outer at holds
  induction holds generalizing visited with
  | itself => exact ⟨visited, .itself, isOuter⟩
  | deeper childMem _ ih =>
      subst isOuter
      cases recorded with
      | unvisited _ _ noResults =>
          rw [noResults] at childMem
          exact absurd childMem List.not_mem_nil
      | visited _ _ childOrder childrenRecorded =>
          rcases childrenRecorded.exists_onLevel childMem with ⟨child, onLevel, isChild, recorded⟩
          rcases ih recorded isChild with ⟨other, childHolds, isInner⟩
          exact ⟨other, .deeper childOrder onLevel childHolds, isInner⟩

namespace Configuration

variable {configuration : Configuration} {results : List ElementResult}

theorem mem_preorder {element : Element} : element ∈ configuration.preorder ↔
    ∃ top ∈ configuration.elements, element = top ∨ top.Above element :=
  Element.mem_listPreorder configuration.elements

theorem Visits.mem_preorder {visited : Visited} (visits : configuration.Visits results visited) :
    visited.element ∈ configuration.preorder := by
  rcases visits with ⟨elements, top, order, onLevel, holds⟩
  exact Configuration.mem_preorder.mpr
    ⟨top.element, order.perm.mem_iff.mp onLevel.mem, holds.above⟩

theorem Recorded.exists_visits (recorded : configuration.Recorded results) {top : ElementResult}
    (topMem : top ∈ results) {inner : ElementResult} (holds : top.Holds inner) :
    ∃ visited, configuration.Visits results visited ∧ visited.result = inner := by
  rcases recorded with ⟨elements, order, levelRecorded⟩
  rcases levelRecorded.exists_onLevel topMem with ⟨visited, onLevel, rfl, recorded⟩
  rcases recorded.exists_visited holds with ⟨other, visitedHolds, isInner⟩
  exact ⟨other, ⟨elements, visited, order, onLevel, visitedHolds⟩, isInner⟩

/-- What is told of a configuration before it runs, and what has become of that in the results of
its run. -/
structure Foretells (configuration : Configuration) (results : List ElementResult) : Prop where
  /-- At most one issue is told of each element, in the author's order. -/
  told : configuration.issues = configuration.preorder.filterMap Element.issue?
  everywhere : ∀ element, element ∈ configuration.preorder ↔
    ∃ top ∈ configuration.elements, element = top ∨ top.Above element
  /-- Everything that is wrong with an element is told, whether the element is visited or not. -/
  complete : ∀ element ∈ configuration.preorder, ∀ issue,
    element.issue? = some issue ↔ element.Breaks issue
  /-- Every result is one of an element of the configuration that was visited. -/
  visited : ∀ top ∈ results, ∀ inner, top.Holds inner →
    ∃ visited, configuration.Visits results visited ∧ visited.result = inner
  known : ∀ visited, configuration.Visits results visited →
    visited.element ∈ configuration.preorder
  fails : ∀ visited, configuration.Visits results visited → visited.FailsAsTold
  /-- Where nothing is told, the walk itself fails no element. -/
  spotless : configuration.issues = [] → ∀ visited, configuration.Visits results visited →
    ¬visited.result.FailsFor visited.element.noSchemaText ∧
      ¬visited.result.FailsFor visited.element.tooManyScriptsText

/-- The static part of what is told follows from the tree of elements, and the rest from what every
visit leaves. -/
theorem Recorded.foretells (recorded : configuration.Recorded results)
    (fails : ∀ visited, configuration.Visits results visited → visited.FailsAsTold) :
    configuration.Foretells results where
  told := Element.listIssues_eq configuration.elements
  everywhere _ := Configuration.mem_preorder
  complete _ _ _ := Element.issue?_eq_some
  visited _ topMem _ holds := recorded.exists_visits topMem holds
  known _ visits := visits.mem_preorder
  fails := fails
  spotless noIssues visited visits := by
    have noIssue : visited.element.issue? = none := by
      have none := (Element.listIssues_eq configuration.elements).symm.trans noIssues
      exact List.filterMap_eq_nil_iff.mp none _ visits.mem_preorder
    have asTold := fails visited visits
    simp [asTold.noSchema, asTold.tooManyScripts, noIssue]

/-- A configuration of three elements. One has too many scripts, one that lies below it has no
schema, and so has one below an element that is to be skipped. -/
def faulty : Configuration where
  id := "c"
  name := "Faulty"
  environment := none
  release := none
  elements :=
    [⟨"p", "P", 2, .automatic, false,
      [⟨"x", "X", 1, .automatic, false, [], [], [], [], none⟩],
      [⟨"t", "T", 1, []⟩, ⟨"u", "U", 2, []⟩], [], [],
      some ⟨"s", "S", 0, .one, false, false, .predecessor, false⟩⟩,
      ⟨"q", "Q", 1, .automatic, true,
        [⟨"y", "Y", 1, .automatic, false, [], [], [], [], none⟩],
        [], [], [], some ⟨"s", "S", 0, .many, true, false, .predecessor, false⟩⟩]

end Configuration

namespace Machine

variable {ω : Type} {setting : Setting} {configuration : Configuration} {context : Context}
  {place call : Nat} {mayReject : Session → Prop} {first last : Machine ω ConfigurationRun}
  {trace : List Asked}

/-- A walk that was not cut short fails an element for its schema or for the number of its scripts
where an issue of the element was told, unless it skips the element or leaves it to a tester. -/
theorem Course.walk_foretold {session : Session}
    (hasSession : (first.view place).session = some session)
    (noResults : session.result.results = [])
    (hasStages : (first.view place).stages =
      Function.update (fun _ => none) call (some (.ready (configuration.run setting context))))
    (course : Course place (fun _ => False) mayReject first trace last) {ran : ConfigurationRun}
    (returned : (last.view place).stages call = some (.done ran))
    (completed : ran.ending = .completed) :
    ∃ session, (last.view place).session = some session ∧
      configuration.Foretells session.result.results := by
  rcases (walk_courseLaw configuration call mayReject).run [] course hasSession
    ⟨_, hasStages, configuration.run_walks setting context noResults⟩ with
    ⟨atLast, hasLast, stage, stages, walks⟩
  obtain rfl : stage = .done ran := by simpa [stages] using returned
  have ready : (first.view place).stages call =
      some (.ready (configuration.run setting context)) := by
    rw [hasStages, Function.update_self]
  have left := configuration.run_throughout (Visited.leftBy_failsAsTold setting) context
  have fails := course.always hasSession ready left returned completed
  rcases walks.completed completed with ⟨sameResults, walked⟩
  exact ⟨atLast, hasLast, walked.recorded.foretells (sameResults ▸ fails)⟩

/-- Of the configuration with three issues two become failures. The third is of an element that is
not visited. -/
theorem sample_walk_foretold :
    ∃ last : Machine Unit ConfigurationRun, ∃ session, (last.view 0).session = some session ∧
      Configuration.faulty.Foretells session.result.results ∧
        Configuration.faulty.issues =
          [.tooManyScripts "P" 2, .noSchema "X", .noSchema "Y"] ∧
        session.result.results.map (fun top =>
            (top.message, top.results.map ElementResult.message)) =
          [(some "Element 'Q' is marked to be skipped", []),
            (some "Configuration error: element 'P' permits one script but has 2",
              [some "Element 'X' has no schema element"])] := by
  let opened : Machine Unit ConfigurationRun :=
    ((Machine.initial .empty (.initial 0 .empty ())).openSession .unattended).1
  let first := opened.spawn 0 (Configuration.faulty.run .sample (.ofProperties []))
  have hasStages : (first.view 0).stages = Function.update (fun _ => none) 0
      (some (.ready (Configuration.faulty.run .sample (.ofProperties [])))) :=
    congrArg View.stages (view_spawn _)
  have course : Course 0 (fun _ => False) (fun _ => False) first _ (first.poll 0) :=
    .step .start (.poll (congrFun hasStages 0))
  have ends : ((((first.poll 0).view 0).stages 0).bind Stage.value?).any fun ran =>
      ran.ending = .completed := by decide +kernel
  rcases (Option.any_eq_true _ _).mp ends with ⟨ran, hasValue, completed⟩
  rcases Course.walk_foretold rfl rfl hasStages course (view_stages_eq_done.mpr hasValue)
    (of_decide_eq_true completed) with ⟨session, hasSession, foretells⟩
  refine ⟨_, session, hasSession, foretells, by decide +kernel, ?_⟩
  have messages : ((((first.poll 0).view 0).session).map fun session =>
      session.result.results.map fun top => (top.message, top.results.map ElementResult.message)) =
        some [(some "Element 'Q' is marked to be skipped", []),
          (some "Configuration error: element 'P' permits one script but has 2",
            [some "Element 'X' has no schema element"])] := by decide +kernel
  rw [hasSession] at messages
  exact Option.some.inj messages

end Machine

end TestEngine
