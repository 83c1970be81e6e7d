import TestEngine.Proofs.Order
import TestEngine.Proofs.Script.Closure
import TestEngine.Run.Walk

/-!
# Laws of walks

A property of the visits of all elements is proved along the tree of elements: it holds of the
visit of an element if it holds of the visits of its children. `Visitor.Visits` is what a level
needs to know of the visits that it sorts.

Apart from the scripts of its elements a walk asks only what is indifferent, and it only merges
properties into its context. `WalkLaw` says that a property of programs is passed on by this, and
`WalkLaw.configuration` that it is then one of all walks.
-/

namespace TestEngine

abbrev ElementVisit := Site → Context → Program ElementRun

/-- A visitor that stands for an element and visits it as a property demands. -/
structure Visitor.Visits (visited : Element → ElementVisit → Prop) (visitor : Visitor)
    (element : Element) : Prop where
  order : visitor.order = element.order
  visited : visited element visitor.visit

theorem Element.visit_eq (setting : Setting) (element : Element) :
    element.visit setting =
      visitElement setting element (Element.visitors setting 0 element.children) := by
  cases element
  rw [Element.visit]

variable {setting : Setting} {visited : Element → ElementVisit → Prop}

mutual

/-- What holds of the visit of an element if it holds of those of its children holds of the visits
of all elements. -/
theorem Element.visit_induction
    (step : ∀ element children,
      List.Forall₂ (Visitor.Visits visited) children element.children →
        visited element (visitElement setting element children)) :
    (element : Element) → visited element (element.visit setting)
  | ⟨id, name, order, mode, skip, children, scripts, dependencies, properties, schema⟩ => by
      rw [Element.visit]
      exact step _ _ (Element.visitors_induction step 0 children)

theorem Element.visitors_induction
    (step : ∀ element children,
      List.Forall₂ (Visitor.Visits visited) children element.children →
        visited element (visitElement setting element children)) (place : Nat) :
    (elements : List Element) →
      List.Forall₂ (Visitor.Visits visited) (Element.visitors setting place elements) elements
  | [] => by
      rw [Element.visitors]
      exact .nil
  | element :: rest => by
      rw [Element.visitors]
      exact .cons ⟨rfl, Element.visit_induction step element⟩
        (Element.visitors_induction step (place + 1) rest)

end

/-- What holds of the visits of all elements holds of those that a level sorts. -/
theorem Visitor.Visits.forall_mem {allVisits : ElementVisit → Prop} {visitors : List Visitor}
    {elements : List Element}
    (visits : List.Forall₂ (Visitor.Visits fun _ visit => allVisits visit) visitors elements) :
    ∀ visitor ∈ visitors, allVisits visitor.visit := by
  induction visits with
  | nil => exact fun _ visitorMem => nomatch visitorMem
  | cons visit _ ih => exact List.forall_mem_cons.mpr ⟨visit.visited, ih⟩

/-! ### Properties that walks pass on -/

/-- What has to be known of a property for all walks to have it. It is one of programs in the
context of the run, and of the context that can be told from the value of the program. -/
structure WalkLaw (setting : Setting)
    (holds : (α : Type) → Context → Program α → (α → Context) → Prop) : Prop where
  pure {α : Type} {context : Context} {value : α} {left : α → Context}
    (unchanged : left value = context) : holds α context (Pure.pure value) left
  bind {α β : Type} {context : Context} {program : Program α} {left : α → Context}
    {next : α → Program β} {last : β → Context} (first : holds α context program left)
    (rest : ∀ value, holds β (left value) (next value) last) :
    holds β context (program >>= next) last
  ask {α : Type} {context : Context} {request : Request} (indifferent : request.isIndifferent)
    {next : request.Answer → Program α} {left : α → Context}
    (rest : ∀ answer, holds α context (next answer) left) :
    holds α context (Program.request request >>= next) left
  merge {α : Type} {context : Context} (properties : List Property) {program : Program α}
    {left : α → Context}
    (merged : holds α { context with properties := context.properties.merge properties } program
      left) : holds α context program left
  script (script : Script) (context : Context) :
    holds ScriptRun context (script.run setting context) ScriptRun.context

/-- The visit of an element that has such a property. -/
def ElementVisit.Has (holds : (α : Type) → Context → Program α → (α → Context) → Prop)
    (visit : ElementVisit) : Prop :=
  ∀ site context, holds ElementRun context (visit site context) ElementRun.context

namespace WalkLaw

variable {holds : (α : Type) → Context → Program α → (α → Context) → Prop}
  (law : WalkLaw setting holds) {context : Context}

include law

theorem runScripts (scripts : List Script) (site : Site) (result : ElementResult) :
    holds ScriptsRun context
      (runScripts site (scripts.map fun script => script.run setting) result context)
      ScriptsRun.context := by
  induction scripts generalizing result context with
  | nil => exact law.pure rfl
  | cons script rest ih =>
      apply law.bind (law.script script context)
      intro ran
      split
      · exact law.pure rfl
      · refine law.ask rfl fun _ => ?_
        split
        · exact law.pure rfl
        · split
          · exact law.pure rfl
          · exact ih _

theorem runElementScripts (site : Site) (element : Element) (schema : Schema)
    (result : ElementResult) :
    holds ScriptsRun context (runElementScripts setting site element schema result context)
      ScriptsRun.context := by
  unfold TestEngine.runElementScripts
  dsimp only
  split
  · exact law.pure rfl
  · split
    · exact law.ask rfl fun _ => law.pure rfl
    · exact law.runScripts _ site result

theorem awaitManualResult (site : Site) (result : ElementResult) :
    holds (ElementResult × Ending) context (awaitManualResult setting site result)
      fun _ => context := by
  have takes (input : Option (Option Interaction)) (result : ElementResult) :
      holds (ElementResult × Ending) context (takeManualInput site result input)
        fun _ => context := by
    cases input with
    | none => exact law.ask rfl fun _ => law.pure rfl
    | some input =>
        refine law.ask rfl fun _ => ?_
        rw [cancelIf]
        split
        · exact law.ask rfl fun _ => law.pure rfl
        · exact law.pure rfl
  unfold TestEngine.awaitManualResult
  split
  · exact law.ask rfl fun _ => law.pure rfl
  · refine law.ask rfl fun start => law.ask rfl fun _ => law.ask rfl fun _ => ?_
    exact law.ask rfl fun input => takes input _

theorem settleElement (site : Site) (element : Element) (judge : ElementResult → ElementResult)
    (schema : Option Schema) :
    holds ElementRun context (settleElement site element context judge schema)
      ElementRun.context :=
  law.ask rfl fun _ => law.ask rfl fun _ => law.ask rfl fun _ => law.pure rfl

theorem closeElement (site : Site) (element : Element) (result : ElementResult)
    (ending : Ending) :
    holds ElementRun context (closeElement site element result ending context)
      ElementRun.context := by
  unfold TestEngine.closeElement
  split
  · exact law.pure rfl
  · exact law.ask rfl fun _ => law.ask rfl fun _ => law.pure rfl

/-- A level visits its elements one after the other. -/
theorem walkLevel {visitors : List Visitor}
    (has : ∀ visitor ∈ visitors, ElementVisit.Has holds visitor.visit) (site : Site)
    (elements : List Element) :
    holds LevelRun context (walkLevel site (inOrder Visitor.order visitors) elements context)
      LevelRun.context := by
  have inAnyOrder {visitors : List Visitor}
      (has : ∀ visitor ∈ visitors, ElementVisit.Has holds visitor.visit) (site : Site)
      (elements : List Element) (context : Context) :
      holds LevelRun context (TestEngine.walkLevel site visitors elements context)
        LevelRun.context := by
    induction visitors generalizing site elements context with
    | nil => exact law.pure rfl
    | cons visitor rest ih =>
        rcases List.forall_mem_cons.mp has with ⟨visitHas, restHas⟩
        apply law.bind (visitHas site context)
        intro ran
        cases ran.ending with
        | completed => exact ih restHas _ _ _
        | interrupted => exact law.pure rfl
        | crashed => exact law.pure rfl
  exact inAnyOrder (fun visitor visitorMem =>
    has visitor ((inOrder_perm Visitor.order visitors).mem_iff.mp visitorMem)) site elements context

theorem runElement (site : Site) (element : Element) (schema : Schema) {children : List Visitor}
    (has : ∀ visitor ∈ children, ElementVisit.Has holds visitor.visit) :
    holds ElementRun context (runElement setting site element schema children context)
      ElementRun.context := by
  have merges {program : Program ElementRun}
      (merged : holds ElementRun (if schema.propertyContainer then
        { context with properties := context.properties.merge element.properties }
        else context) program ElementRun.context) :
      holds ElementRun context program ElementRun.context := by
    split at merged
    · exact law.merge element.properties merged
    · exact merged
  refine law.ask rfl fun start => merges ?_
  dsimp only
  generalize (if schema.propertyContainer then
    { context with properties := context.properties.merge element.properties }
    else context) = merged
  refine law.ask rfl fun _ => ?_
  split
  · exact law.bind (law.awaitManualResult site _) fun _ => law.closeElement site element _ _
  · apply law.bind (law.runElementScripts site element schema _)
    intro ran
    split
    · exact law.closeElement site element _ _
    · exact law.bind (law.walkLevel has _ _) fun _ => law.closeElement site _ _ _

theorem visitElement (element : Element) {children : List Visitor}
    (has : ∀ visitor ∈ children, ElementVisit.Has holds visitor.visit) :
    ElementVisit.Has holds (visitElement setting element children) := by
  intro site context
  refine law.ask rfl fun goesOn => ?_
  split
  · exact law.pure rfl
  · split
    · exact law.settleElement site element _ _
    · split
      · exact law.settleElement site element _ _
      · split
        · exact law.settleElement site _ _ _
        · exact law.runElement site element _ has

/-- Every run of a configuration has the property. -/
theorem configuration (configuration : Configuration) :
    holds ConfigurationRun context (configuration.run setting context)
      ConfigurationRun.context := by
  have visits (elements : List Element) : ∀ visitor ∈ Element.visitors setting 0 elements,
      ElementVisit.Has holds visitor.visit :=
    Visitor.Visits.forall_mem <| Element.visitors_induction
      (fun element children childrenHave =>
        law.visitElement element (Visitor.Visits.forall_mem childrenHave)) 0 elements
  refine law.ask rfl fun goesOn => ?_
  split
  · exact law.pure rfl
  · refine law.merge configuration.properties (law.ask rfl fun _ => ?_)
    exact law.bind (law.walkLevel (visits _) _ _) fun _ => law.pure rfl

end WalkLaw

end TestEngine
