import TestEngine.Proofs.Result.Address
import TestEngine.Proofs.Walk.Attendance
import TestEngine.Proofs.Walk.Soundness

/-!
# Edits of the tree

A walk publishes the tree as it puts it together from the site that it has come to. What it does to
the tree published before is one edit at a path: the first time that it publishes the result of an
element, the result is appended below the element's parent, and from then on the node that the path
of the result leads to is changed. The visit of an element edits nothing but this node and what is
below it, and no edit but an append touches the children of a node.
-/

namespace TestEngine

variable {α : Type}

/-! ### Sites and paths -/

/-- The site at which a node's children are visited: the tree that it shows has the results in the
place of those children. -/
structure Site.IsAt (site : Site) (path : ResultPath) : Prop where
  children (results : List ElementResult) :
    ElementResult.childrenAt? (site.plug results) path = some results
  append (results : List ElementResult) (added : ElementResult) :
    ElementResult.appendAt? (site.plug results) added path =
      some (site.plug (results ++ [added]), path ++ [results.length])
  modify (results : List ElementResult) (node changed : ElementResult) :
    ElementResult.modifyAt? (site.plug (results ++ [node])) (fun _ => changed)
        (path ++ [results.length]) =
      some (site.plug (results ++ [changed]))

namespace Site.IsAt

variable {site : Site} {path : ResultPath}

theorem top : Site.top.IsAt [] where
  children _ := rfl
  append _ _ := rfl
  modify results node changed := by simp [Site.top, ElementResult.modifyAt?]

theorem withSiblings (isAt : site.IsAt path) (siblings : List ElementResult) :
    IsAt { site with siblings } path := ⟨isAt.children, isAt.append, isAt.modify⟩

/-- The path of the next result leads to it once it is shown. -/
theorem nodeAt?_shownAt (isAt : site.IsAt path) (result : ElementResult) :
    ElementResult.nodeAt? (result.shownAt site) (path ++ [site.siblings.length]) =
      some result := by
  rw [ElementResult.nodeAt?_concat, ElementResult.shownAt, isAt.children]
  exact List.getElem?_concat_length

theorem below (isAt : site.IsAt path) (result : ElementResult) :
    (site.below result).IsAt (path ++ [site.siblings.length]) where
  children results := by
    rw [ElementResult.childrenAt?_eq_of_ne_nil _ (List.concat_ne_nil _ _)]
    have found := isAt.nodeAt?_shownAt { result with results }
    rw [ElementResult.shownAt] at found
    rw [Site.below, found]
    rfl
  append results added := by
    have found := isAt.nodeAt?_shownAt { result with results }
    rw [ElementResult.shownAt] at found
    rw [ElementResult.appendAt?_of_ne_nil _ _ (List.concat_ne_nil _ _)]
    simp only [Site.below, found, Option.bind_some, isAt.modify, Option.map_some]
  modify results node changed := by
    have found := isAt.nodeAt?_shownAt { result with results := results ++ [node] }
    rw [ElementResult.shownAt] at found
    have last : ElementResult.modifyAt? (results ++ [node]) (fun _ => changed) [results.length] =
        some (results ++ [changed]) := top.modify results node changed
    rw [ElementResult.modifyAt?_append _ _ (List.concat_ne_nil _ _) (List.cons_ne_nil _ _)]
    simp only [Site.below, found, Option.bind_some, last, isAt.modify]

end Site.IsAt

/-! ### Edits -/

/-- An edit at a path: a node without children is appended and gets the path, or the node that the
path leads to goes on with the children that it has. -/
inductive ElementResult.Edited (before : List ElementResult) (path : ResultPath)
    (after : List ElementResult) : Prop
  | appended {parent : ResultPath} {added : ElementResult} (leaf : added.results = [])
      (appended : appendAt? before added parent = some (after, path)) : Edited before path after
  | changed {node changed : ElementResult} (found : nodeAt? before path = some node)
      (continues : node.Continues changed)
      (changes : modifyAt? before (fun _ => changed) path = some after) : Edited before path after

/-- The protocol of programs that edit the tree they have published at a path or below it. -/
def editing (first : ResultPath) : Protocol (List ElementResult) where
  allows shown
    | .publish results => ∃ path, first <+: path ∧ ElementResult.Edited shown path results
    | _ => True
  after shown
    | .publish results, _ => results
    | _, _ => shown

theorem Program.Obeys.widen {program : Program α} {first wider : ResultPath}
    {shown : List ElementResult} {condition : α → List ElementResult → Prop}
    (obeys : program.Obeys (editing first) shown condition) (isWider : wider <+: first) :
    program.Obeys (editing wider) shown condition := by
  induction program generalizing shown with
  | done value => exact obeys
  | ask request next ih =>
      refine ⟨?_, fun answer => ih answer (obeys.2 answer)⟩
      cases request with
      | publish results =>
          rcases obeys.1 with ⟨path, inside, edited⟩
          exact ⟨path, isWider.trans inside, edited⟩
      | _ => exact trivial

/-- What makes none but the requests of visits edits nothing. -/
theorem Program.Obeys.editsNothing {program : Program α} {condition : α → Unit → Prop}
    (obeys : program.Obeys visiting () condition) (first : ResultPath)
    (shown : List ElementResult) :
    program.Obeys (editing first) shown fun _ reached => reached = shown := by
  induction program with
  | done value => exact rfl
  | ask request next ih =>
      have rest := fun answer => ih answer (obeys.2 answer)
      cases request <;> first | exact ⟨trivial, rest⟩ | exact nomatch obeys.1

section Elements

variable {site : Site} {path : ResultPath} (isAt : site.IsAt path) {element : Element}
  {result : ElementResult} {context : Context}

include isAt

theorem Site.IsAt.appends (leaf : result.results = []) :
    (editing (path ++ [site.siblings.length])).allows (site.plug site.siblings)
      (.publish (result.shownAt site)) :=
  ⟨_, List.prefix_rfl, .appended leaf (isAt.append site.siblings result)⟩

theorem Site.IsAt.changes {changed : ElementResult} (continues : result.Continues changed) :
    (editing (path ++ [site.siblings.length])).allows (result.shownAt site)
      (.publish (changed.shownAt site)) :=
  ⟨_, List.prefix_rfl, .changed (isAt.nodeAt?_shownAt result) continues
    (isAt.modify site.siblings result changed)⟩

theorem runScripts_edits (setting : Setting) (scripts : List Script) :
    (runScripts site (scripts.map fun script => script.run setting) result context).Obeys
      (editing (path ++ [site.siblings.length])) (result.shownAt site)
      fun ran shown => shown = ran.result.shownAt site := by
  induction scripts generalizing result context with
  | nil => exact rfl
  | cons script rest ih =>
      refine Program.obeys_bind.mpr
        (((script.run_runs visitsOnly setting context ()).editsNothing _ _).imp ?_)
      rintro ran _ rfl
      split
      · exact rfl
      · refine ⟨isAt.changes (result.continues_addScript ran.result), fun _ => ?_⟩
        split
        · exact rfl
        · split
          · exact rfl
          · exact ih

theorem runElementScripts_edits (setting : Setting) (schema : Schema) :
    (runElementScripts setting site element schema result context).Obeys
      (editing (path ++ [site.siblings.length])) (result.shownAt site)
      fun ran shown => shown = ran.result.shownAt site := by
  rw [runElementScripts]
  split
  · exact rfl
  · split
    · exact ⟨isAt.changes ⟨rfl, rfl, rfl⟩, fun _ => rfl⟩
    · exact runScripts_edits isAt setting _

theorem takeManualInput_edits (input : Option (Option Interaction)) :
    (takeManualInput site result input).Obeys (editing (path ++ [site.siblings.length]))
      (result.shownAt site) fun taken shown => shown = taken.1.shownAt site := by
  cases input with
  | none => exact ⟨isAt.changes ⟨rfl, rfl, rfl⟩, fun _ => rfl⟩
  | some input =>
      refine ⟨isAt.changes (result.continues_takeManual input).1, fun _ => ?_⟩
      change (cancelIf (result.takeManual input).2 >>= fun _ => _).Obeys _ _ _
      cases (result.takeManual input).2 with
      | false => exact rfl
      | true => exact ⟨trivial, fun _ => rfl⟩

theorem awaitManualResult_edits (setting : Setting) :
    (awaitManualResult setting site result).Obeys (editing (path ++ [site.siblings.length]))
      (result.shownAt site) fun taken shown => shown = taken.1.shownAt site := by
  rw [awaitManualResult]
  split
  · exact ⟨isAt.changes ⟨rfl, rfl, rfl⟩, fun _ => rfl⟩
  · refine ⟨trivial, fun start => ⟨isAt.changes ⟨rfl, rfl, rfl⟩, fun _ => ?_⟩⟩
    exact ⟨trivial, fun _ => ⟨trivial, fun input => takeManualInput_edits isAt input⟩⟩

/-- What is shown when the visit of an element is over. -/
def ElementRun.IsShown (ran : ElementRun) (site : Site) (shown : List ElementResult) : Prop :=
  shown = site.plug (site.siblings ++ ran.result.toList)

theorem closeElement_edits (ending : Ending) :
    (closeElement site element result ending context).Obeys
      (editing (path ++ [site.siblings.length])) (result.shownAt site)
      fun ran shown => ran.IsShown site shown := by
  cases ending with
  | crashed => exact rfl
  | completed =>
      refine ⟨trivial, fun stop => ⟨isAt.changes ?_, fun _ => rfl⟩⟩
      exact result.continues_finish stop
  | interrupted =>
      refine ⟨trivial, fun stop => ⟨isAt.changes ?_, fun _ => rfl⟩⟩
      refine ElementResult.Continues.trans ?_ (ElementResult.continues_finish _ stop)
      split <;> exact ⟨rfl, rfl, rfl⟩

theorem settleElement_edits {judge : ElementResult → ElementResult} {schema : Option Schema}
    (judged : ∀ result : ElementResult, result.Continues (judge result)) :
    (settleElement site element context judge schema).Obeys
      (editing (path ++ [site.siblings.length])) (site.plug site.siblings)
      fun ran shown => ran.IsShown site shown := by
  refine ⟨trivial, fun start => ⟨trivial, fun stop => ⟨isAt.appends ?_, fun _ => rfl⟩⟩⟩
  rw [ElementResult.results_finish]
  exact (judged _).results

end Elements

/-! ### Visits -/

/-- A way of visiting an element that edits nothing but the node of the element and what is below
it. -/
def ElementVisit.Edits (visit : ElementVisit) : Prop :=
  ∀ (site : Site) (path : ResultPath), site.IsAt path → ∀ context,
    (visit site context).Obeys (editing (path ++ [site.siblings.length]))
      (site.plug site.siblings) fun ran shown => ran.IsShown site shown

theorem walkLevel_edits {visitors : List Visitor}
    (edits : ∀ visitor ∈ visitors, ElementVisit.Edits visitor.visit) {site : Site}
    {path : ResultPath} (isAt : site.IsAt path) {authored : List Element} {context : Context} :
    (walkLevel site visitors authored context).Obeys (editing path) (site.plug site.siblings)
      fun level shown => shown = site.plug level.results := by
  induction visitors generalizing site authored context with
  | nil => exact rfl
  | cons visitor rest ih =>
      rw [List.forall_mem_cons] at edits
      have visits := (edits.1 site path isAt context).widen (List.prefix_append _ _)
      refine Program.obeys_bind.mpr (visits.imp ?_)
      rintro ran _ rfl
      cases ran.ending with
      | completed => exact ih edits.2 (isAt.withSiblings _)
      | interrupted => exact rfl
      | crashed => exact rfl

theorem runElement_edits (setting : Setting) (element : Element) (schema : Schema)
    {children : List Visitor} (edits : ∀ visitor ∈ children, ElementVisit.Edits visitor.visit) :
    ElementVisit.Edits fun site context =>
      runElement setting site element schema children context := by
  intro site path isAt context
  refine ⟨trivial, fun start => ⟨isAt.appends rfl, fun _ => ?_⟩⟩
  change Program.Obeys _ (if element.isManualLeaf then _ else _) _ _
  split
  · refine Program.obeys_bind.mpr ((awaitManualResult_edits isAt setting).imp ?_)
    rintro taken _ rfl
    exact closeElement_edits isAt _
  · refine Program.obeys_bind.mpr ((runElementScripts_edits isAt setting schema).imp ?_)
    rintro ran _ rfl
    split
    · exact closeElement_edits isAt _
    · rw [← Site.plug_below]
      have sorted : ∀ visitor ∈ inOrder Visitor.order children,
          ElementVisit.Edits visitor.visit := fun visitor visitorMem =>
        edits visitor ((inOrder_perm Visitor.order children).mem_iff.mp visitorMem)
      refine Program.obeys_bind.mpr ((walkLevel_edits sorted (isAt.below ran.result)).imp ?_)
      rintro level _ rfl
      exact closeElement_edits isAt _

theorem visitElement_edits (setting : Setting) (element : Element) (children : List Visitor)
    (visits : List.Forall₂ (Visitor.Visits fun _ => ElementVisit.Edits) children
      element.children) :
    ElementVisit.Edits (visitElement setting element children) := by
  intro site path isAt context
  refine Program.obeys_ask.mpr ⟨trivial, fun goesOn => ?_⟩
  cases goesOn with
  | false =>
      change site.plug site.siblings = site.plug (site.siblings ++ [])
      rw [List.append_nil]
  | true =>
      rw [if_neg (by decide)]
      split
      · exact settleElement_edits isAt fun _ => ⟨rfl, rfl, rfl⟩
      · split
        · exact settleElement_edits isAt fun _ => ⟨rfl, rfl, rfl⟩
        · split
          · exact settleElement_edits isAt fun _ => ⟨rfl, rfl, rfl⟩
          · exact runElement_edits setting element _ (Visitor.Visits.forall_mem visits) site path
              isAt context

/-- Whatever the answers to its requests are, a walk puts its results together by edits of the tree
that it has published before. -/
theorem Configuration.run_edits (setting : Setting) (configuration : Configuration)
    (context : Context) :
    (configuration.run setting context).Obeys (editing []) [] fun ran shown =>
      shown = ran.results := by
  have edits : ∀ visitor ∈ Element.visitors setting 0 configuration.elements,
      ElementVisit.Edits visitor.visit := Visitor.Visits.forall_mem
    (Element.visitors_induction (visitElement_edits setting) 0 configuration.elements)
  have sorted : ∀ visitor ∈ inOrder Visitor.order
      (Element.visitors setting 0 configuration.elements), ElementVisit.Edits visitor.visit :=
    fun visitor visitorMem => edits visitor ((inOrder_perm Visitor.order _).mem_iff.mp visitorMem)
  refine Program.obeys_ask.mpr ⟨trivial, fun goesOn => ?_⟩
  cases goesOn with
  | false => exact rfl
  | true =>
      refine Program.obeys_ask.mpr ⟨trivial, fun _ => ?_⟩
      refine Program.obeys_bind.mpr ((walkLevel_edits sorted Site.IsAt.top).imp ?_)
      exact fun level shown isShown => isShown

end TestEngine
