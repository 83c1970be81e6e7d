import TestEngine.Run.Script

/-!
# Walking a configuration

The walk visits the elements of a configuration in ascending order, each with its scripts first and
its children after them, and puts their results together. Whenever a result changes, the whole tree
so far is published. Only an interruption ends the walk early: a failure of one element keeps none
of its siblings from being visited.
-/

namespace TestEngine

/-- What the visit of an element left behind. -/
structure ElementRun where
  element : Element
  /-- The result; none if the run was interrupted before the element was looked at. -/
  result : Option ElementResult
  ending : Ending
  context : Context

/-- Where in the tree of results a visit takes place. -/
structure Site where
  siblings : List ElementResult
  isTop : Bool
  /-- The whole tree with given results in the place of the siblings. -/
  plug : List ElementResult → List ElementResult

namespace Site

/-- The place of the top-level elements, of which none has been visited. -/
def top : Site := ⟨[], true, id⟩

/-- Publishes the tree with one more result behind those of the siblings. -/
def publish (site : Site) (result : ElementResult) : Program Unit :=
  Program.request (.publish (site.plug (site.siblings ++ [result])))

def below (site : Site) (result : ElementResult) : Site where
  siblings := result.results
  isTop := false
  plug results := site.plug (site.siblings ++ [{ result with results }])

end Site

/-! ### Dependencies -/

/-- The reason for skipping an element because of the sibling visited just before. -/
def predecessorFailure (siblings : List ElementResult) : Option String :=
  siblings.getLast?.bind fun predecessor =>
    if predecessor.verdict = some .passed then none
    else some ("Skipped because predecessor '" ++ predecessor.name ++ "' did not pass")

/-- The reason for skipping an element because of one of its dependencies. Of several siblings with
one id the latest counts. -/
def listedFailure (siblings : List ElementResult) (dependencies : List String) : Option String :=
  dependencies.findSome? fun dependency =>
    match siblings.reverse.find? fun sibling => sibling.elementId = dependency with
    | some sibling =>
      if sibling.verdict = some .passed then none
      else some ("Skipped because dependency '" ++ sibling.name ++ "' did not pass")
    | none => some ("Skipped because dependency '" ++ dependency ++ "' has no result")

/-- The reason for skipping an element because something it depends on did not pass. Elements at
the top depend on nothing. -/
def dependencyFailure (element : Element) (schema : Schema) (isTop : Bool)
    (siblings : List ElementResult) : Option String :=
  if !schema.dependencyCheck || isTop then none
  else match schema.dependencyRule with
    | .predecessor => predecessorFailure siblings
    | .listed => listedFailure siblings element.dependencies

/-! ### Scripts of an element -/

/-- What running the scripts of an element left behind. -/
structure ScriptsRun where
  result : ElementResult
  ending : Ending
  context : Context

/-- The result of an element with one more script result. A failed script fails the element. -/
def ElementResult.addScript (result : ElementResult) (script : ScriptResult) : ElementResult :=
  let result := { result with scripts := result.scripts ++ [script] }
  if script.isFailed then { result with verdict := some .failed, message := script.message }
  else result

/-- Runs scripts one after the other up to the first that fails. -/
def runScripts (site : Site) : List (Context → Program ScriptRun) → ElementResult → Context →
    Program ScriptsRun
  | [], result, context => return ⟨result, .completed, context⟩
  | script :: rest, result, context => do
    let ran ← script context
    if ran.ending = .crashed then return ⟨result, .crashed, ran.context⟩
    let result := result.addScript ran.result
    site.publish result
    if ran.ending = .interrupted then return ⟨result, .interrupted, ran.context⟩
    if ran.result.isFailed then return ⟨result, .completed, ran.context⟩
    runScripts site rest result ran.context

/-- Runs the scripts of an element as far as its schema permits them. -/
def runElementScripts (setting : Setting) (site : Site) (element : Element) (schema : Schema)
    (result : ElementResult) (context : Context) : Program ScriptsRun := do
  let count := element.scripts.length
  if count = 0 || schema.scripts = .none then return ⟨result, .completed, context⟩
  if schema.scripts = .one && 1 < count then
    let result := result.fail ("Configuration error: element '" ++ element.name ++
      "' permits one script but has " ++ toString count)
    site.publish result
    return ⟨result, .completed, context⟩
  runScripts site ((inOrder Script.order element.scripts).map fun script => script.run setting)
    result context

/-! ### Manual elements -/

/-- What a tester's answer makes of a waiting element, and whether it cancels the run. -/
def ElementResult.takeManual (result : ElementResult) (input : Option Interaction) :
    ElementResult × Bool :=
  match input.bind Interaction.manualResult with
  | none => (result.fail "No manual result received", false)
  | some manual =>
    match manual.status with
    | .finished =>
      ({ result with
          verdict := some (manual.verdict.getD .passed), message := manual.comment,
          manual := some manual }, false)
    | .aborted => ({ result.fail "Manual execution aborted" with manual := some manual }, true)
    | .waiting => (result.fail ("Manual result is still " ++ manual.status.title), false)

/-- Cancels the run if a tester's answer does. -/
def cancelIf (cancelled : Bool) : Program Unit := do
  if cancelled then Program.request .cancelRun else return ()

def takeManualInput (site : Site) (result : ElementResult) :
    Option (Option Interaction) → Program (ElementResult × Ending)
  | none => do
    let result := result.fail "Manual execution interrupted"
    site.publish result
    return (result, .interrupted)
  | some input => do
    let taken := result.takeManual input
    site.publish taken.1
    cancelIf taken.2
    return (taken.1, .completed)

def awaitManualResult (setting : Setting) (site : Site) (result : ElementResult) :
    Program (ElementResult × Ending) := do
  if !setting.attended then
    let result := result.fail "Manual element cannot run without a job"
    site.publish result
    return (result, .completed)
  let start ← Program.request .now
  let result := { result with manual := some .waiting, start := some start }
  site.publish result
  Program.request .openInteraction
  takeManualInput site result (← Program.request .awaitInteraction)

/-! ### Elements -/

/-- What walking siblings left behind. -/
structure LevelRun where
  elements : List Element
  results : List ElementResult
  ending : Ending
  context : Context

/-- A sibling that waits for its visit: its place among the others, its order and its visit. -/
structure Visitor where
  place : Nat
  order : UInt32
  visit : Site → Context → Program ElementRun

def walkLevel (site : Site) : List Visitor → (elements : List Element) → Context → Program LevelRun
  | [], elements, context => return ⟨elements, site.siblings, .completed, context⟩
  | visitor :: rest, elements, context => do
    let ran ← visitor.visit site context
    let elements := elements.set visitor.place ran.element
    let siblings := site.siblings ++ ran.result.toList
    match ran.ending with
    | .completed => walkLevel { site with siblings } rest elements ran.context
    | ending => return ⟨elements, siblings, ending, ran.context⟩

def settleElement (site : Site) (element : Element) (context : Context)
    (judge : ElementResult → ElementResult) (schema : Option Schema) : Program ElementRun := do
  let start ← Program.request .now
  let stop ← Program.request .now
  let result := (judge (.ofElement element schema start)).finish stop
  site.publish result
  return ⟨element, some result, .completed, context⟩

/-- Ends the visit of an element. A run that was interrupted leaves no open verdict, and one that
crashed leaves the result as it stands. -/
def closeElement (site : Site) (element : Element) (result : ElementResult) (ending : Ending)
    (context : Context) : Program ElementRun := do
  match ending with
  | .crashed => return ⟨element, some result, .crashed, context⟩
  | ending =>
    let stop ← Program.request .now
    let result :=
      if ending = .interrupted && result.verdict.isNone then result.fail "Execution interrupted"
      else result
    let result := result.finish stop
    site.publish result
    return ⟨element, some result, ending, context⟩

/-- Runs the scripts and the children of an element that is visited. -/
def runElement (setting : Setting) (site : Site) (element : Element) (schema : Schema)
    (children : List Visitor) (context : Context) : Program ElementRun := do
  let start ← Program.request .now
  let context :=
    if schema.propertyContainer then
      { context with properties := context.properties.merge element.properties }
    else context
  let result : ElementResult := .ofElement element (some schema) start
  site.publish result
  if element.isManualLeaf then
    let (result, ending) ← awaitManualResult setting site result
    closeElement site element result ending context
  else
    let ran ← runElementScripts setting site element schema result context
    if ran.ending ≠ .completed || ran.result.isSkipped then
      closeElement site element ran.result ran.ending ran.context
    else
      let level ← walkLevel (site.below ran.result) (inOrder Visitor.order children)
        element.children ran.context
      closeElement site { element with children := level.elements }
        { ran.result with results := level.results } level.ending level.context

def visitElement (setting : Setting) (element : Element) (children : List Visitor) (site : Site)
    (context : Context) : Program ElementRun := do
  if !(← Program.request .checkpoint) then return ⟨element, none, .interrupted, context⟩
  match element.schema with
  | none =>
    settleElement site element context
      (fun result => result.fail ("Element '" ++ element.name ++ "' has no schema element")) none
  | some schema =>
    if schema.skippable && element.skip then
      settleElement site element context
        (fun result => result.skip ("Element '" ++ element.name ++ "' is marked to be skipped"))
        (some schema)
    else
      match dependencyFailure element schema site.isTop site.siblings with
      | some reason =>
        settleElement site { element with skip := false } context
          (fun result => result.skip reason) (some schema)
      | none => runElement setting site element schema children context

mutual

def Element.visit (setting : Setting) : Element → Site → Context → Program ElementRun
  | ⟨id, name, order, mode, skip, children, scripts, dependencies, properties, schema⟩ =>
    visitElement setting
      ⟨id, name, order, mode, skip, children, scripts, dependencies, properties, schema⟩
      (Element.visitors setting 0 children)

/-- The visits of siblings, the first of which has a given place. -/
def Element.visitors (setting : Setting) (place : Nat) : List Element → List Visitor
  | [] => []
  | element :: rest =>
    ⟨place, element.order, element.visit setting⟩ :: Element.visitors setting (place + 1) rest

end

/-! ### Configurations -/

/-- What a run of a configuration left behind. -/
structure ConfigurationRun where
  configuration : Configuration
  results : List ElementResult
  ending : Ending
  context : Context

def Configuration.properties (configuration : Configuration) : List Property :=
  .ofString "configuration" configuration.name ::
    (configuration.environment.map (Property.ofString "environment")).toList ++
    (configuration.release.map (Property.ofString "release")).toList

def Configuration.run (setting : Setting) (configuration : Configuration) (context : Context) :
    Program ConfigurationRun := do
  if !(← Program.request .checkpoint) then return ⟨configuration, [], .interrupted, context⟩
  let context :=
    { context with properties := context.properties.merge configuration.properties }
  Program.request .noteStart
  let level ← walkLevel .top
    (inOrder Visitor.order (Element.visitors setting 0 configuration.elements))
    configuration.elements context
  return ⟨{ configuration with elements := level.elements }, level.results, level.ending,
    level.context⟩

/-- The program of a job: the walk of its configuration between the job's start and its end. A job
that cannot be started tells its status and does nothing. -/
def Configuration.runJob (setting : Setting) (configuration : Configuration) (context : Context) :
    Program JobStatus := do
  match ← Program.request .beginJob with
  | some status => return status
  | none =>
    let ran ← configuration.run setting context
    Program.request (.endJob ran.ending)

end TestEngine
