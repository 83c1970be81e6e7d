import TestEngine.Lock
import TestEngine.Run.Visit
import TestEngine.Script.PropertyAction

/-!
# Visiting single steps

What a step does by itself, given the visits of the steps inside it.
-/

namespace TestEngine

/-- The result of a run of a script, how the run ended, and the context that it left. Of a crashed
run there is no result to speak of. -/
structure ScriptRun where
  result : ScriptResult
  ending : Ending
  context : Context

/-- The number of iterations that a loop is bounded by if only its duration is given. -/
def durationLoopLimit : Nat := 1000

def LoopBounds.limit (bounds : LoopBounds) : Nat :=
  if 0 < bounds.maxIterations then bounds.maxIterations.toNat
  else if 0 < bounds.maxDuration then durationLoopLimit
  else 0

/-- Whether a guard holds of the properties of a run. A guard without a truth value does not. -/
def Guard.holds (guard : Guard) (store : Store) : Bool :=
  let literal := match guard.valueProperty with
    | some name => (store.get? name).bind Property.text?
    | none => guard.value
  match Condition.evaluate (store.get? guard.property) guard.operator literal with
  | .ok holds => holds
  | .error _ => false

/-- The text of a message, followed by that of its property if there is one. -/
def TextMessage.render (message : TextMessage) (store : Store) : String :=
  match (message.property.bind store.get?).bind Property.text? with
  | some value => if message.text = "" then value else message.text ++ " " ++ value
  | none => message.text

/-- The line that a logger writes: the texts of its text messages, as the author ordered them. -/
def loggerLine (children : List Step) (store : Store) : String :=
  let parts := children.filterMap fun child =>
    match child.kind with
    | .textMessage message => some (message.render store)
    | _ => none
  " ".intercalate (parts.filter fun part => part ≠ "")

namespace Visit

/-- Visits steps one after the other until one of them leaves the loop around them. -/
def sequence : List (Visit Flow) → Visit Flow
  | [] => return .next
  | step :: rest => do
    match ← step with
    | .next => sequence rest
    | .leave => return .leave

def siblings (steps : List (UInt32 × Visit Flow)) : Visit Flow :=
  sequence ((inOrder Prod.fst steps).map Prod.snd)

/-! ### Steps that hold steps -/

/-- Visits a body if a guard holds. -/
def condition (guard : Guard) (body : Visit Flow) : Visit Flow := do
  if guard.holds (← store) then body else return .next

/-- Leaves the loop around the step if one of some guards holds, or if there is none. -/
def breakLoop (guards : List Guard) : Visit Flow := do
  let properties ← store
  return if guards.isEmpty || guards.any fun guard => guard.holds properties then .leave else .next

/-- Waits before an iteration, unless it is the first. -/
def waitBefore (wait : UInt64) (iteration : Nat) : Visit Unit := do
  if 0 < iteration && wait ≠ 0 then
    ask (.sleep wait.toNat)
    checkpoint
  else return ()

def isOver : (deadline : Option Nat) → Visit Bool
  | none => return false
  | some deadline => return decide (deadline ≤ (← ask .elapsed))

/-- Stores the number of an iteration under the name that the loop gives, if it gives one. -/
def bindIndex (iteration : Nat) : (index : Option String) → Visit Unit
  | some index => put (.ofInteger index (UInt32.ofNat iteration).toInt32)
  | none => return ()

def iterate (bounds : LoopBounds) (deadline : Option Nat) (body : Visit Flow) :
    (remaining iteration : Nat) → Visit Flow
  | 0, _ => return .next
  | remaining + 1, iteration => do
    waitBefore bounds.wait iteration
    if ← isOver deadline then return .next
    bindIndex iteration bounds.index
    match ← body with
    | .next => iterate bounds deadline body remaining (iteration + 1)
    | .leave => return .next

/-- Sets the moment after which no iteration begins, if the loop has a duration. -/
def setDeadline (maxDuration : UInt64) : Visit (Option Nat) := do
  if 0 < maxDuration then return some ((← ask .elapsed) + maxDuration.toNat)
  else return none

def loop (bounds : LoopBounds) (body : Visit Flow) : Visit Flow := do
  let deadline ← setDeadline bounds.maxDuration
  iterate bounds deadline body bounds.limit 0

def eachItem (element : String) (body : Visit Flow) : List Property → Visit Flow
  | [] => return .next
  | item :: rest => do
    put (item.renamed element)
    match ← body with
    | .next => eachItem element body rest
    | .leave => return .next

/-- The items of a list property that a loop can go through. -/
def foreachItems (store : Store) (list element : String) : Except EngineError (List Property) := do
  let some property := store.get? list
    | .error (.property ("Foreach list '" ++ list ++ "' does not exist"))
  let some items := property.items?
    | .error (.property
        ("Foreach list '" ++ list ++ "' is " ++ property.kind.title ++ ", not LIST"))
  if store.contains element then
    .error (.property ("Foreach element name '" ++ element ++ "' is already bound"))
  else return items

/-- Unbinds the name of the items of a loop, unless the loop has crashed. -/
def unbind (element : String) : (outcome : Except Abort Flow) → Store → Store
  | .error .crashed, store => store
  | _, store => store.erase element

/-- Visits a body for each item of a list, and unbinds the name of the items on every way out but
a crash. -/
def foreach (list element : String) (body : Visit Flow) : Visit Flow := do
  let items ← ofExcept (foreachItems (← store) list element)
  let outcome ← attempt (eachItem element body items)
  modifyStore (unbind element outcome)
  conclude outcome

/-- Visits a body while a lock is held, and releases the lock on every way out. -/
def lock (name : String) (timeout : Nat) (body : Visit Flow) : Visit Flow := do
  match ← ask (.acquire name timeout) with
  | .granted =>
    let outcome ← attempt body
    ask (.release name)
    conclude outcome
  | .timedOut => fail (lockTimeoutError name timeout)
  | .cancelled =>
    checkpoint
    abort .interrupted

/-! ### Steps that call capabilities -/

/-- What a capability answered to a call, or the abort that the call ended with. -/
def takeReply {α : Type} : Reply (Except EngineError α) → Visit α
  | .returned (.ok answer) => pure answer
  | .returned (.error error) => fail error
  | .abandoned => abort .interrupted
  | .crashed => abort .crashed

/-- Waits as long as an action says, if it says so. -/
def waitAfter : (delay : Option UInt64) → Visit Unit
  | some delay => ask (.sleep delay.toNat)
  | none => return ()

/-- Enters the response of a backend, and stores the properties it returned if it passed. -/
def enterResponse (action : Action) (response : ActionResponse) : Visit Flow := do
  match response.status with
  | .failed =>
    record (.action response)
    fail (.testScript (response.message.getD ("Action '" ++ action.name ++ "' failed")))
  | .passed =>
    modifyStore fun store => store.mergeScoped action.name response.returned
    record (.action response)
    return .next

/-- Calls the backend of an action and stores the properties it returns. -/
def action (setting : Setting) (action : Action) : Visit Flow := do
  let (target, operation) ← ofExcept (setting.catalog.resolveAction action)
  let properties ← ofExcept ((← store).resolveAll action.properties)
  let context ← context
  let response ← takeReply (← ask (.perform
    { backend := target.engine, action := action.name, operation, actionType := target.actionType,
      metadata := action.metadata, properties, context }))
  waitAfter action.delay
  enterResponse action
    { response with
      delay := action.delay
      traces := if context.tracing then response.traces else [] }

def defaultAssertionMessage : String := "Assertion failed"

/-- What the answer of a check makes of an assertion with a message. -/
def takeVerification (message : String) : Option (Except EngineError Unit) → Visit Flow
  | some (.ok _) => return .next
  | some (.error (.assertion text)) => fail (.assertion text)
  | some (.error error) => fail (.assertion (message ++ ": " ++ error.message))
  | none => abort .crashed

def verify (setting : Setting) (message check name : String) : Visit Flow := do
  if check ∈ setting.catalog.checks then
    let store ← store
    let property ← ofExcept ((store.get? name).mapM store.resolve)
    takeVerification message (← ask (.verify check property))
  else fail (.assertion ("No assertion registered as '" ++ check ++ "'"))

def assertion (setting : Setting) (assertion : Assertion) : Visit Flow :=
  let message := assertion.message.getD defaultAssertionMessage
  if assertion.fail then fail (.assertion message)
  else match assertion.checkName, assertion.property with
    | some check, some name => verify setting message check name
    | _, _ => return .next

/-- The error of a function, as the script around it tells it. -/
def functionError (name : String) : EngineError → EngineError
  | .testScript text => .testScript text
  | error => .testScript ("Function '" ++ name ++ "': " ++ error.message)

/-- Keeps the lines that a function logged, unless it crashed, and takes its answer. -/
def takeFunctionReply (name : String) (lines : List String) :
    Reply (Except EngineError (List Property)) → Visit (List Property)
  | .returned answer => do
    log .info lines
    ofExcept (answer.mapError (functionError name))
  | .abandoned => do
    log .info lines
    abort .interrupted
  | .crashed => abort .crashed

/-- Executes a function, keeps the lines it logs and stores the properties it returns. -/
def function (setting : Setting) (function : Function) : Visit Flow := do
  if setting.catalog.scripting then
    let properties ← ofExcept ((← store).resolveAll function.properties)
    let (lines, reply) ← ask (.execute { function, properties })
    let returned ← takeFunctionReply function.name lines reply
    modifyStore fun store => store.mergeScoped function.name returned
    return .next
  else fail (.configuration "No scripting capability registered")

/-! ### Steps that change properties or write lines -/

def propertyAction (action : PropertyAction) : Visit Flow := do
  let (changed, error) := action.apply (← store)
  modifyStore fun _ => changed
  match error with
  | none => return .next
  | some error => fail error

def logger (level : LogLevel) (children : List Step) : Visit Flow := do
  log level [loggerLine children (← store)]
  return .next

def textMessage (message : TextMessage) : Visit Flow := do
  log .info [message.render (← store)]
  return .next

/-! ### Scripts -/

def completeScript (result : ScriptResult) (verdict : Verdict) (message : Option String)
    (ending : Ending) (context : Context) : Program ScriptRun := do
  let stop ← Program.request .now
  let duration := result.start.map stop.millisSince
  return ⟨{ result with verdict := some verdict, message, stop := some stop, duration }, ending,
    context⟩

/-- Ends a script as the visit of its steps has ended. Leaving a loop that is not there ends the
script and nothing else. -/
def concludeScript (result : ScriptResult) (outcome : Except Abort Flow) (context : Context) :
    Program ScriptRun :=
  match outcome with
  | .ok _ => completeScript result .passed none .completed context
  | .error (.failed error) =>
    completeScript result .failed (some error.message) .completed context
  | .error .interrupted =>
    completeScript result .aborted (some "Execution interrupted") .interrupted context
  | .error .crashed => return ⟨result, .crashed, context⟩

/-- Runs the visit of a script's steps into a result of its own. -/
def runScript (id name : String) (steps : Visit Flow) (context : Context) : Program ScriptRun := do
  let start ← Program.request .now
  let visit : Visit Flow := do
    moveTo fun context => context.enterScript name
    steps
  let (outcome, frame) ← visit.run.run ⟨context, [], []⟩
  concludeScript
    { scriptId := id, name, verdict := none, start := some start, stop := none, duration := none,
      message := none, log := frame.log, entries := frame.entries }
    outcome frame.context

/-- Runs a script inside another one and enters its result there. -/
def embed (name : String) (run : Context → Program ScriptRun) : Visit Flow := do
  let ran ← ExceptT.lift (StateT.lift (run (← context)))
  modify fun frame => { frame with context := ran.context }
  match ran.ending with
  | .crashed => abort .crashed
  | .interrupted =>
    record (.script ran.result)
    abort .interrupted
  | .completed =>
    record (.script ran.result)
    if ran.result.isFailed then
      fail (.testScript ("Script '" ++ name ++ "' failed: " ++ ran.result.message.getD ""))
    else return .next

end Visit

end TestEngine
