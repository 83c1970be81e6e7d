import TestEngine.Proofs.Order
import TestEngine.Run.Walk

/-!
# The record of a walk

What a walk that was not cut short leaves in the tree of results: a result for each element, and
below it those of the element's children and of its scripts, as far as the policies of the element
let them run. Nothing in it depends on how elements and scripts before have ended, except for
dependencies and for the scripts behind one that failed.
-/

namespace TestEngine

/-- The scripts that run if an element is visited, in the author's order. -/
def Element.dueScripts (element : Element) (schema : Schema) : List Script :=
  if element.isManualLeaf || schema.scripts = .none ||
      schema.scripts = .one && 1 < element.scripts.length then []
  else element.scripts

/-- A script result that is one of a given script. -/
def Script.HasResult (script : Script) (result : ScriptResult) : Prop :=
  result.scriptId = script.id ∧ result.name = script.name

/-- The results of scripts that run one after the other up to the first that fails. -/
inductive Script.Recorded : List Script → List ScriptResult → Prop
  | nil : Recorded [] []
  | failed {script : Script} {rest : List Script} {result : ScriptResult}
      (hasResult : script.HasResult result) (isFailed : result.isFailed) :
      Recorded (script :: rest) [result]
  | passed {script : Script} {rest : List Script} {result : ScriptResult}
      {results : List ScriptResult} (hasResult : script.HasResult result)
      (stands : ¬result.isFailed) (restRecorded : Recorded rest results) :
      Recorded (script :: rest) (result :: results)

/-- An element result that is one of a given element. -/
def Element.HasResult (element : Element) (result : ElementResult) : Prop :=
  result.elementId = element.id ∧ result.name = element.name

/-- The schema that an element is visited by; there is none if the element has none, if its author
skips it, or if something that it depends on among its siblings before did not pass. -/
def Element.visitSchema? (element : Element) (isTop : Bool) (earlier : List ElementResult) :
    Option Schema :=
  element.schema.filter fun schema =>
    !(schema.skippable && element.skip) && (dependencyFailure element schema isTop earlier).isNone

mutual

/-- The result of an element behind those of its siblings before. -/
inductive Element.Recorded : (isTop : Bool) → (earlier : List ElementResult) →
    Element → ElementResult → Prop
  | unvisited {isTop : Bool} {earlier : List ElementResult} {element : Element}
      {result : ElementResult} (hasResult : element.HasResult result)
      (noVisit : element.visitSchema? isTop earlier = none)
      (noResults : result.results = []) (noScripts : result.scripts = []) :
      Element.Recorded isTop earlier element result
  | visited {isTop : Bool} {earlier : List ElementResult} {element : Element} {schema : Schema}
      {result : ElementResult} {children : List Element} {scripts : List Script}
      (hasResult : element.HasResult result)
      (visit : element.visitSchema? isTop earlier = some schema)
      (childOrder : VisitingOrder Element.order element.children children)
      (childrenRecorded : Element.LevelRecorded false [] children result.results)
      (scriptOrder : VisitingOrder Script.order (element.dueScripts schema) scripts)
      (scriptsRecorded : Script.Recorded scripts result.scripts) :
      Element.Recorded isTop earlier element result

/-- The results of siblings, one for each, behind those of their siblings before. -/
inductive Element.LevelRecorded : (isTop : Bool) → (earlier : List ElementResult) →
    List Element → List ElementResult → Prop
  | nil {isTop : Bool} {earlier : List ElementResult} :
      Element.LevelRecorded isTop earlier [] []
  | cons {isTop : Bool} {earlier : List ElementResult} {element : Element} {rest : List Element}
      {result : ElementResult} {results : List ElementResult}
      (recorded : Element.Recorded isTop earlier element result)
      (restRecorded : Element.LevelRecorded isTop (earlier ++ [result]) rest results) :
      Element.LevelRecorded isTop earlier (element :: rest) (result :: results)

end

/-- The results of a configuration, of whose elements nobody has a sibling before. -/
def Configuration.Recorded (configuration : Configuration) (results : List ElementResult) : Prop :=
  ∃ elements, VisitingOrder Element.order configuration.elements elements ∧
    Element.LevelRecorded true [] elements results

/-! ### A small configuration -/

/-- A configuration of two elements. The one to be visited first is the author's second, and nothing
says how to visit the other. -/
def Configuration.sample : Configuration where
  id := "c"
  name := "Sample"
  environment := none
  release := none
  elements :=
    [⟨"b", "B", 2, .automatic, false, [], [], [], [], none⟩,
      ⟨"a", "A", 1, .automatic, false, [], [], [], [],
        some ⟨"s", "S", 0, .many, false, false, .predecessor, false⟩⟩]

/-- What the runs of the small configuration have in common. -/
def Setting.sample : Setting := ⟨⟨[], [], false, false⟩, 0, true⟩

end TestEngine
