import TestEngine.Proofs.Script.Law

/-!
# Properties that visits pass on

Much that is true of visits is passed on from the parts of a visit to the whole of it. If it is, and
if it is true of what steps do to the store and of requests that are indifferent, then it is true of
what each kind of step does by itself that calls no capability; `Visit.InheritsCalls` has the
others too, and `Visit.InheritsCalls.visitLaw` makes a law of visits of it. What is asked about
locks, moves of the cursor and scripts inside others is left to each property. `Visit.Composes` is
the case of a property to which only locks matter.
-/

namespace TestEngine

/-- Whether a request is for a lock or gives one back. -/
def Request.isLocking : Request → Bool
  | .acquire .. | .release _ => true
  | _ => false

/-- Whether a request has to do neither with locks nor with capabilities nor with the place of the
run. -/
def Request.isIndifferent : Request → Bool
  | .acquire .. | .release _ | .moveTo _ | .perform _ | .execute _ | .verify .. => false
  | _ => true

/-- A property that visits have if their parts have it, whatever is asked that is indifferent, and
however a step changes the store. -/
structure Visit.Inherits (holds : (α : Type) → Visit α → Prop) : Prop where
  pure {α : Type} (value : α) : holds α (Pure.pure value)
  abort {α : Type} (reason : Abort) : holds α (Visit.abort reason)
  bind {α β : Type} {visit : Visit α} {next : α → Visit β} (first : holds α visit)
    (rest : ∀ value, holds β (next value)) : holds β (visit >>= next)
  attempt {α : Type} {visit : Visit α} (tried : holds α visit) :
    holds (Except Abort α) (Visit.attempt visit)
  frame : holds Frame Visit.frame
  report {change : Frame → Frame} (keeps : ∀ frame, (change frame).context = frame.context) :
    holds Unit (Visit.modify change)
  put (property : Property) : holds Unit (Visit.put property)
  erase (name : String) : holds Unit (Visit.modifyStore fun store => store.erase name)
  mergeScoped (scope : String) (properties : List Property) :
    holds Unit (Visit.modifyStore fun store => store.mergeScoped scope properties)
  propertyAction (action : PropertyAction) : holds Flow (Visit.propertyAction action)
  ask (request : Request) (indifferent : request.isIndifferent) :
    holds request.Answer (Visit.ask request)

namespace Visit.Inherits

variable {holds : (α : Type) → Visit α → Prop} (inherits : Inherits holds) {α : Type}

include inherits

theorem fail (error : EngineError) : holds α (Visit.fail error) := inherits.abort _

theorem context : holds Context Visit.context :=
  inherits.bind inherits.frame fun _ => inherits.pure _

theorem store : holds Store Visit.store := inherits.bind inherits.context fun _ => inherits.pure _

theorem ofExcept (outcome : Except EngineError α) : holds α (Visit.ofExcept outcome) := by
  cases outcome with
  | ok value => exact inherits.pure value
  | error error => exact inherits.fail error

theorem conclude (outcome : Except Abort α) : holds α (Visit.conclude outcome) := by
  cases outcome with
  | ok value => exact inherits.pure value
  | error reason => exact inherits.abort reason

theorem record (entry : ScriptEntry) : holds Unit (Visit.record entry) :=
  inherits.report fun _ => rfl

theorem log (level : LogLevel) (messages : List String) :
    holds Unit (Visit.log level messages) := by
  apply inherits.bind (inherits.ask _ rfl)
  intro timestamp
  exact inherits.bind inherits.context fun _ => inherits.report fun _ => rfl

theorem checkpoint : holds Unit Visit.checkpoint := by
  apply inherits.bind (inherits.ask _ rfl)
  intro goesOn
  cases goesOn with
  | true => exact inherits.pure ()
  | false => exact inherits.abort _

theorem sequence {steps : List (Visit Flow)} (stepsHold : ∀ step ∈ steps, holds Flow step) :
    holds Flow (Visit.sequence steps) := by
  induction steps with
  | nil => exact inherits.pure _
  | cons first rest ih =>
      apply inherits.bind (stepsHold first List.mem_cons_self)
      intro flow
      cases flow with
      | next => exact ih fun step stepMem => stepsHold step (List.mem_cons_of_mem _ stepMem)
      | leave => exact inherits.pure _

/-! ### Steps that hold steps -/

theorem condition (guard : Guard) {body : Visit Flow} (bodyHolds : holds Flow body) :
    holds Flow (Visit.condition guard body) := by
  apply inherits.bind inherits.store
  intro properties
  split
  · exact bodyHolds
  · exact inherits.pure _

theorem breakLoop (guards : List Guard) : holds Flow (Visit.breakLoop guards) :=
  inherits.bind inherits.store fun _ => inherits.pure _

theorem waitBefore (wait : UInt64) (iteration : Nat) :
    holds Unit (Visit.waitBefore wait iteration) := by
  unfold Visit.waitBefore
  split
  · exact inherits.bind (inherits.ask (.sleep _) rfl) fun _ => inherits.checkpoint
  · exact inherits.pure _

theorem isOver (deadline : Option Nat) : holds Bool (Visit.isOver deadline) := by
  cases deadline with
  | none => exact inherits.pure _
  | some deadline => exact inherits.bind (inherits.ask _ rfl) fun _ => inherits.pure _

theorem bindIndex (iteration : Nat) (index : Option String) :
    holds Unit (Visit.bindIndex iteration index) := by
  cases index with
  | none => exact inherits.pure _
  | some index => exact inherits.put _

theorem iterate (bounds : LoopBounds) (deadline : Option Nat) {body : Visit Flow}
    (bodyHolds : holds Flow body) (remaining iteration : Nat) :
    holds Flow (Visit.iterate bounds deadline body remaining iteration) := by
  induction remaining generalizing iteration with
  | zero => exact inherits.pure _
  | succ remaining ih =>
      apply inherits.bind (inherits.waitBefore bounds.wait iteration)
      intro _
      apply inherits.bind (inherits.isOver deadline)
      intro timeIsUp
      split
      · exact inherits.pure _
      · apply inherits.bind (inherits.bindIndex iteration bounds.index)
        intro _
        apply inherits.bind bodyHolds
        intro flow
        cases flow with
        | next => exact ih (iteration + 1)
        | leave => exact inherits.pure _

theorem loop (bounds : LoopBounds) {body : Visit Flow} (bodyHolds : holds Flow body) :
    holds Flow (Visit.loop bounds body) := by
  have setsDeadline : holds (Option Nat) (Visit.setDeadline bounds.maxDuration) := by
    unfold Visit.setDeadline
    split
    · exact inherits.bind (inherits.ask _ rfl) fun _ => inherits.pure _
    · exact inherits.pure _
  exact inherits.bind setsDeadline fun deadline => inherits.iterate bounds deadline bodyHolds _ _

theorem eachItem (element : String) {body : Visit Flow} (bodyHolds : holds Flow body)
    (items : List Property) : holds Flow (Visit.eachItem element body items) := by
  induction items with
  | nil => exact inherits.pure _
  | cons item rest ih =>
      apply inherits.bind (inherits.put _)
      intro _
      apply inherits.bind bodyHolds
      intro flow
      cases flow with
      | next => exact ih
      | leave => exact inherits.pure _

theorem unbind (element : String) (outcome : Except Abort Flow) :
    holds Unit (Visit.modifyStore (Visit.unbind element outcome)) := by
  rcases outcome with (_ | _ | error) | flow
  · exact inherits.erase element
  · exact inherits.report fun _ => rfl
  · exact inherits.erase element
  · exact inherits.erase element

theorem foreach (list element : String) {body : Visit Flow} (bodyHolds : holds Flow body) :
    holds Flow (Visit.foreach list element body) := by
  apply inherits.bind inherits.store
  intro properties
  apply inherits.bind (inherits.ofExcept _)
  intro items
  apply inherits.bind (inherits.attempt (inherits.eachItem element bodyHolds items))
  intro outcome
  exact inherits.bind (inherits.unbind element outcome) fun _ => inherits.conclude outcome

/-! ### Answers of capabilities -/

theorem takeReply (reply : Reply (Except EngineError α)) : holds α (Visit.takeReply reply) := by
  rcases reply with (error | answer) | _ | _
  · exact inherits.fail error
  · exact inherits.pure answer
  · exact inherits.abort _
  · exact inherits.abort _

theorem waitAfter (delay : Option UInt64) : holds Unit (Visit.waitAfter delay) := by
  cases delay with
  | none => exact inherits.pure _
  | some delay => exact inherits.ask (.sleep _) rfl

theorem enterResponse (action : Action) (response : ActionResponse) :
    holds Flow (Visit.enterResponse action response) := by
  unfold Visit.enterResponse
  cases response.status with
  | failed => exact inherits.bind (inherits.record _) fun _ => inherits.fail _
  | passed =>
      apply inherits.bind (inherits.mergeScoped _ _)
      intro _
      exact inherits.bind (inherits.record _) fun _ => inherits.pure _

theorem takeVerification (message : String) (answer : Option (Except EngineError Unit)) :
    holds Flow (Visit.takeVerification message answer) := by
  unfold Visit.takeVerification
  split
  · exact inherits.pure _
  · exact inherits.fail _
  · exact inherits.fail _
  · exact inherits.abort _

theorem takeFunctionReply (name : String) (lines : List String)
    (reply : Reply (Except EngineError (List Property))) :
    holds (List Property) (Visit.takeFunctionReply name lines reply) := by
  cases reply with
  | returned answer => exact inherits.bind (inherits.log _ lines) fun _ => inherits.ofExcept _
  | abandoned => exact inherits.bind (inherits.log _ lines) fun _ => inherits.abort _
  | crashed => exact inherits.abort _

/-! ### Steps that change properties or write lines -/

theorem logger (level : LogLevel) (children : List Step) :
    holds Flow (Visit.logger level children) := by
  apply inherits.bind inherits.store
  intro properties
  exact inherits.bind (inherits.log _ _) fun _ => inherits.pure _

theorem textMessage (message : TextMessage) : holds Flow (Visit.textMessage message) := by
  apply inherits.bind inherits.store
  intro properties
  exact inherits.bind (inherits.log _ _) fun _ => inherits.pure _

/-- A lock is asked for, and given back when the body is over. -/
theorem lock {name : String} {timeout : Nat}
    (acquire : holds LockAnswer (Visit.ask (.acquire name timeout)))
    (release : holds Unit (Visit.ask (.release name))) {body : Visit Flow}
    (bodyHolds : holds Flow body) : holds Flow (Visit.lock name timeout body) := by
  apply inherits.bind acquire
  intro answer
  cases answer with
  | granted =>
      apply inherits.bind (inherits.attempt bodyHolds)
      intro outcome
      exact inherits.bind release fun _ => inherits.conclude outcome
  | timedOut => exact inherits.fail _
  | cancelled => exact inherits.bind inherits.checkpoint fun _ => inherits.abort _

end Visit.Inherits

/-- The same, also whatever capabilities are called. -/
structure Visit.InheritsCalls (holds : (α : Type) → Visit α → Prop) : Prop
    extends Visit.Inherits holds where
  /-- A backend is called with the context as it is. -/
  perform {α : Type} {call : Context → ActionCall}
    (ofContext : ∀ context, (call context).context = context)
    {next : Context → Reply (Except EngineError ActionResponse) → Visit α}
    (rest : ∀ context reply, holds α (next context reply)) :
    holds α (do
      let context ← Visit.context
      let reply ← Visit.ask (.perform (call context))
      next context reply)
  execute (call : FunctionCall) :
    holds (Request.execute call).Answer (Visit.ask (.execute call))
  verify (check : String) (property : Option Property) :
    holds (Request.verify check property).Answer (Visit.ask (.verify check property))

namespace Visit.InheritsCalls

variable {holds : (α : Type) → Visit α → Prop} (inherits : InheritsCalls holds)

include inherits

theorem action (setting : Setting) (action : Action) :
    holds Flow (Visit.action setting action) := by
  apply inherits.bind (inherits.ofExcept _)
  rintro ⟨target, operation⟩
  apply inherits.bind inherits.store
  intro properties
  apply inherits.bind (inherits.ofExcept _)
  intro arguments
  apply inherits.perform fun _ => rfl
  intro caller reply
  apply inherits.bind (inherits.takeReply reply)
  intro response
  exact inherits.bind (inherits.waitAfter action.delay) fun _ => inherits.enterResponse action _

theorem assertion (setting : Setting) (assertion : Assertion) :
    holds Flow (Visit.assertion setting assertion) := by
  have verifies (message check property : String) :
      holds Flow (Visit.verify setting message check property) := by
    unfold Visit.verify
    split
    · apply inherits.bind inherits.store
      intro properties
      apply inherits.bind (inherits.ofExcept _)
      intro resolved
      exact inherits.bind (inherits.verify _ _) fun answer =>
        inherits.takeVerification message answer
    · exact inherits.fail _
  unfold Visit.assertion
  dsimp only
  split
  · exact inherits.fail _
  · split
    · exact verifies _ _ _
    · exact inherits.pure _

theorem function (setting : Setting) (function : Function) :
    holds Flow (Visit.function setting function) := by
  unfold Visit.function
  split
  · apply inherits.bind inherits.store
    intro properties
    apply inherits.bind (inherits.ofExcept _)
    intro arguments
    apply inherits.bind (inherits.execute _)
    rintro ⟨lines, reply⟩
    apply inherits.bind (inherits.takeFunctionReply _ lines reply)
    intro returned
    exact inherits.bind (inherits.mergeScoped _ _) fun _ => inherits.pure _
  · exact inherits.fail _

/-- A property that visits inherit is one of all visits if moving to a step has it, if locking and
scripts inside others pass it on, and if running a script does so by way of some property of
runs. -/
theorem visitLaw (setting : Setting) {ran : (Context → Program ScriptRun) → Prop}
    (move : ∀ label, holds Unit (Visit.moveTo fun context => context.enterStep label))
    (lock : ∀ (name : String) (timeout : Nat) {body : Visit Flow}, holds Flow body →
      holds Flow (Visit.lock name timeout body))
    (script : ∀ (id name : String) {body : Visit Flow}, holds Flow body →
      ran (Visit.runScript id name body))
    (embed : ∀ (name : String) {run : Context → Program ScriptRun}, ran run →
      holds Flow (Visit.embed name run)) :
    VisitLaw setting (fun _ => True) (holds Flow) (holds Flow) fun _ => ran where
  step label rest entered := by
    apply inherits.bind inherits.checkpoint
    intro _
    exact inherits.bind (move label) fun _ => entered
  sequence stepsHold := inherits.sequence stepsHold
  script inner _ bodyHolds := script inner.id inner.name bodyHolds
  execution bodyHolds := bodyHolds
  condition guard _ bodyHolds := inherits.condition guard bodyHolds
  loop _ _ bodyHolds := inherits.loop _ bodyHolds
  foreach list element _ bodyHolds := inherits.foreach list element bodyHolds
  lock name timeout _ bodyHolds := lock name timeout bodyHolds
  embed inner _ scriptRan := embed inner.name scriptRan
  breakLoop guards := inherits.breakLoop guards
  action action := inherits.action setting action
  assertion assertion := inherits.assertion setting assertion
  function function := inherits.function setting function
  propertyAction action := inherits.propertyAction action
  logger level children := inherits.logger level children
  textMessage message := inherits.textMessage message

end Visit.InheritsCalls

/-- A property that visits have if their parts have it, requests for locks aside. -/
structure Visit.Composes (holds : (α : Type) → Visit α → Prop) : Prop where
  pure {α : Type} (value : α) : holds α (Pure.pure value)
  abort {α : Type} (reason : Abort) : holds α (Visit.abort reason)
  bind {α β : Type} {visit : Visit α} {next : α → Visit β} (first : holds α visit)
    (rest : ∀ value, holds β (next value)) : holds β (visit >>= next)
  frame : holds Frame Visit.frame
  modify (change : Frame → Frame) : holds Unit (Visit.modify change)
  ask (request : Request) (aside : request.isLocking = false) :
    holds request.Answer (Visit.ask request)
  attempt {α : Type} {visit : Visit α} (tried : holds α visit) :
    holds (Except Abort α) (Visit.attempt visit)

namespace Visit.Composes

variable {holds : (α : Type) → Visit α → Prop} (composes : Composes holds) {α : Type}

include composes

theorem moveTo (change : Context → Context) : holds Unit (Visit.moveTo change) := by
  apply composes.bind (composes.bind composes.frame fun _ => composes.pure _)
  intro context
  exact composes.bind (composes.modify _) fun _ => composes.ask (.moveTo _) rfl

theorem inherits : InheritsCalls holds where
  pure := composes.pure
  abort := composes.abort
  bind := composes.bind
  attempt := composes.attempt
  frame := composes.frame
  report _ := composes.modify _
  put _ := composes.modify _
  erase _ := composes.modify _
  mergeScoped _ _ := composes.modify _
  propertyAction action := by
    apply composes.bind (composes.bind (composes.bind composes.frame fun _ => composes.pure _)
      fun _ => composes.pure _)
    intro properties
    apply composes.bind (composes.modify _)
    intro _
    split
    · exact composes.pure _
    · exact composes.abort _
  ask request indifferent := by
    refine composes.ask request ?_
    cases request <;> first | rfl | exact nomatch indifferent
  perform := by
    intro _ _ _ _ rest
    apply composes.bind (composes.bind composes.frame fun _ => composes.pure _)
    intro context
    exact composes.bind (composes.ask _ rfl) fun reply => rest context reply
  execute _ := composes.ask _ rfl
  verify _ _ := composes.ask _ rfl

/-- What a run inside a visit leaves is entered there without any further request. -/
theorem embed (name : String) {run : Context → Program ScriptRun}
    (runs : ∀ context, holds ScriptRun (ExceptT.lift (StateT.lift (run context)))) :
    holds Flow (Visit.embed name run) := by
  apply composes.bind composes.inherits.context
  intro context
  apply composes.bind (runs context)
  intro ran
  apply composes.bind (composes.modify _)
  intro _
  split
  · exact composes.abort _
  · exact composes.bind (composes.modify _) fun _ => composes.abort _
  · apply composes.bind (composes.modify _)
    intro _
    split
    · exact composes.abort _
    · exact composes.pure _

/-- A property that visits pass on is one of all visits if locking passes it on, and if running a
script does so by way of some property of runs. -/
theorem visitLaw (setting : Setting) {ran : (Context → Program ScriptRun) → Prop}
    (lock : ∀ (name : String) (timeout : Nat) {body : Visit Flow}, holds Flow body →
      holds Flow (Visit.lock name timeout body))
    (script : ∀ (id name : String) {body : Visit Flow}, holds Flow body →
      ran (Visit.runScript id name body))
    (runs : ∀ {run : Context → Program ScriptRun}, ran run →
      ∀ context, holds ScriptRun (ExceptT.lift (StateT.lift (run context)))) :
    VisitLaw setting (fun _ => True) (holds Flow) (holds Flow) fun _ => ran :=
  composes.inherits.visitLaw setting (fun _ => composes.moveTo _) lock script
    fun name _ scriptRan => composes.embed name (runs scriptRan)

end Visit.Composes

end TestEngine
