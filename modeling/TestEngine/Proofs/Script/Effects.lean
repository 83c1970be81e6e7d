import TestEngine.Proofs.Machine.Answer

/-!
# What calls leave behind

A step that calls a capability resolves its properties first, and fails without a trace if it
cannot. Otherwise it calls the capability once, and what the capability has answered decides alone
what is stored, entered and logged: properties are stored only if the step goes well, a response is
entered if there is one, and the lines that a function has logged are kept unless it crashes.
-/

namespace TestEngine

variable {ω α β : Type}

/-! ### What is resolved -/

/-- Whether a property refers to no other one, or to one that there is and that is of its kind. -/
def Store.Resolves (store : Store) (property : Property) : Prop :=
  ∀ target, property.reference = some target →
    ∃ source, store.get? target = some source ∧ source.kind = property.kind

/-- The link of its chain that an action is aimed at, if its backend is registered, and the
operation that the link names. -/
structure Action.Reaches (action : Action) (catalog : Catalog) (target : Metadata)
    (operation : String) : Prop where
  last : action.metadata.getLast? = some target
  registered : target.engine ∈ catalog.backends
  operation : target.operation = some operation

/-- Inserts a property under its name in a scope; the empty scope leaves the name as it is. -/
def Store.takeIn (scope : String) (store : Store) (property : Property) : Store :=
  let name := if scope = "" then property.name else scope ++ "." ++ property.name
  store.insert name (property.renamed name)

/-- The context with returned properties in its store, one after the other. -/
def Context.storing (context : Context) (scope : String) (returned : List Property) : Context :=
  { context with properties := returned.foldl (Store.takeIn scope) context.properties }

/-- The call that an action makes. -/
def Action.call (action : Action) (target : Metadata) (operation : String)
    (properties : List Property) (context : Context) : ActionCall where
  backend := target.engine
  action := action.name
  operation := operation
  actionType := target.actionType
  metadata := action.metadata
  properties := properties
  context := context

/-- A response as it is entered: with the delay of the action, and without traces if none are
kept. -/
def Action.entered (action : Action) (tracing : Bool) (response : ActionResponse) :
    ActionResponse :=
  { response with delay := action.delay, traces := if tracing then response.traces else [] }

/-- What an action comes to when its backend has answered, and the frame that it leaves. -/
def Action.Takes (action : Action) (frame : Frame) (outcome : Except Abort Flow) (after : Frame) :
    Reply (Except EngineError ActionResponse) → Prop
  | .returned (.ok response) =>
    after.log = frame.log ∧
      after.entries =
        frame.entries ++ [.action (action.entered frame.context.tracing response)] ∧
      match response.status with
      | .passed => outcome = .ok .next ∧
          after.context = frame.context.storing action.name response.returned
      | .failed => outcome = .error (.failed (.testScript
          (response.message.getD ("Action '" ++ action.name ++ "' failed")))) ∧
          after.context = frame.context
  | .returned (.error error) => outcome = .error (.failed error) ∧ after = frame
  | .abandoned => outcome = .error .interrupted ∧ after = frame
  | .crashed => outcome = .error .crashed ∧ after = frame

/-- The text of the error that the script is told of when a function has failed. -/
def Function.failure (function : Function) : EngineError → String
  | .testScript text => text
  | error => "Function '" ++ function.name ++ "': " ++ error.message

/-- What a function comes to when it has logged some lines and answered, and the frame that it
leaves. -/
def Function.Takes (function : Function) (frame : Frame) (outcome : Except Abort Flow)
    (after : Frame) (lines : List String) : Reply (Except EngineError (List Property)) → Prop
  | .returned answer =>
    (∃ timestamp, after.log =
      frame.log ++ lines.map (LogEntry.mk timestamp .info frame.context.user)) ∧
      after.entries = frame.entries ∧
      match answer with
      | .ok returned => outcome = .ok .next ∧
          after.context = frame.context.storing function.name returned
      | .error error => outcome = .error (.failed (.testScript (function.failure error))) ∧
          after.context = frame.context
  | .abandoned =>
    (∃ timestamp, after.log =
      frame.log ++ lines.map (LogEntry.mk timestamp .info frame.context.user)) ∧
      after.entries = frame.entries ∧ outcome = .error .interrupted ∧
      after.context = frame.context
  | .crashed => outcome = .error .crashed ∧ after = frame

section Effects

variable (registry : Registry ω) (catalog : Catalog) (frame : Frame) (last : Session)

/-- What the visit of an action has been: it has failed without a trace since its backend or one of
its properties cannot be resolved, or it has called the backend once. -/
inductive Action.Effect (action : Action) :
    List (Exchange (List Signal)) → Except Abort Flow → Frame → Prop
  | uncalled {error : EngineError}
      (unresolved : ¬((∃ target operation, action.Reaches catalog target operation) ∧
        ∀ property ∈ action.properties, frame.context.properties.Resolves property)) :
      Effect action [] (.error (.failed error)) frame
  | called {target : Metadata} {operation : String} {properties : List Property}
      {reply : Reply (Except EngineError ActionResponse)} {lines : List String}
      {signals : List Signal} {rest : List (Exchange (List Signal))}
      {outcome : Except Abort Flow} {after : Frame}
      (reaches : action.Reaches catalog target operation)
      (resolved : List.Forall₂
        (fun property result => frame.context.properties.resolve property = .ok result)
        action.properties properties)
      (ends : (registry.activity (action.call target operation properties frame.context)).Answers
        lines reply)
      (once : ∀ exchange ∈ rest, exchange.request.isCall = false)
      (abandoned : reply = .abandoned → last.abandons = true)
      (takes : action.Takes frame outcome after reply) :
      Effect action
        (⟨.perform (action.call target operation properties frame.context), reply, signals⟩ ::
          rest) outcome after

/-- What the visit of a function has been: it has failed without a trace since nothing can execute
it or one of its properties cannot be resolved, or it has been executed once. -/
inductive Function.Effect (function : Function) :
    List (Exchange (List Signal)) → Except Abort Flow → Frame → Prop
  | uncalled {error : EngineError}
      (unresolved : ¬(catalog.scripting = true ∧
        ∀ property ∈ function.properties, frame.context.properties.Resolves property)) :
      Effect function [] (.error (.failed error)) frame
  | called {properties : List Property} {lines : List String}
      {reply : Reply (Except EngineError (List Property))} {signals : List Signal}
      {rest : List (Exchange (List Signal))} {outcome : Except Abort Flow} {after : Frame}
      (scripting : catalog.scripting = true)
      (resolved : List.Forall₂
        (fun property result => frame.context.properties.resolve property = .ok result)
        function.properties properties)
      (ends : (registry.execution ⟨function, properties⟩).Answers lines reply)
      (once : ∀ exchange ∈ rest, exchange.request.isCall = false)
      (abandoned : reply = .abandoned → last.abandons = true)
      (takes : function.Takes frame outcome after lines reply) :
      Effect function (⟨.execute ⟨function, properties⟩, (lines, reply), signals⟩ :: rest) outcome
        after

end Effects

/-! ### Visits -/

namespace Visit

section Rules

variable {ν : Type} {frame after : Frame} {history : List (Exchange ν)}

end Rules

variable {registry : Registry ω} {setting : Setting} {session last : Session} {frame after : Frame}
  {history : List (Exchange (List Signal))} {outcome : Except Abort Flow}

end Visit

/-- A machine that visits a step for a job. -/
def Machine.visiting (registry : Registry Unit) (visit : Visit Flow) (frame : Frame) :
    Machine Unit (Except Abort Flow × Frame) :=
  ((initial registry (.initial 0 .empty ())).openSession
    { Session.unattended with attended := true }).1.spawn 0 (visit.run.run frame)

def Frame.blank : Frame := ⟨.ofProperties [], [], []⟩

end TestEngine
