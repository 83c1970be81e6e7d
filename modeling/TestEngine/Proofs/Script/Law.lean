import TestEngine.Run.Script

/-!
# Laws of visits

A property of all visits is proved along the syntax of scripts: it holds of what each kind of step
does if it holds of the bodies inside the step. `VisitLaw` collects these cases, with the
properties of three things: of a visit, be it of a step or of a body; of what a step does once it
has passed its checkpoint; and of the run of a script. `VisitLaw.run` is the induction. A property
may hold only of scripts whose loops have bounds of some kind, and `EveryLoop` says which ones have.
-/

namespace TestEngine

/-! ### Loops -/

section EveryLoop

variable (permits : LoopBounds → Prop)

mutual

/-- Every loop that is visited in a step is permitted. What a logger or a guard of a break holds is
never visited. -/
def Step.EveryLoop : Step → Prop
  | ⟨_, _, kind⟩ => kind.EveryLoop

def StepKind.EveryLoop : StepKind → Prop
  | .loop bounds children => permits bounds ∧ Step.AllEveryLoop children
  | .condition ⟨_, children⟩ => Step.AllEveryLoop children
  | .execution children => Step.AllEveryLoop children
  | .foreach _ _ children => Step.AllEveryLoop children
  | .lock _ _ children => Step.AllEveryLoop children
  | .script script => script.EveryLoop
  | .logger .. => True
  | .textMessage _ => True
  | .action _ => True
  | .assertion _ => True
  | .breakLoop _ => True
  | .propertyAction _ => True
  | .function _ => True

def Step.AllEveryLoop : List Step → Prop
  | [] => True
  | step :: rest => step.EveryLoop ∧ Step.AllEveryLoop rest

def Script.EveryLoop : Script → Prop
  | ⟨_, _, _, steps⟩ => Step.AllEveryLoop steps

end

variable {permits}

mutual

theorem Step.everyLoop_of_forall (all : ∀ bounds, permits bounds) :
    (step : Step) → step.EveryLoop permits
  | ⟨_, _, kind⟩ => kind.everyLoop_of_forall all

theorem StepKind.everyLoop_of_forall (all : ∀ bounds, permits bounds) :
    (kind : StepKind) → kind.EveryLoop permits
  | .loop bounds children => ⟨all bounds, Step.allEveryLoop_of_forall all children⟩
  | .condition ⟨_, children⟩ => Step.allEveryLoop_of_forall all children
  | .execution children => Step.allEveryLoop_of_forall all children
  | .foreach _ _ children => Step.allEveryLoop_of_forall all children
  | .lock _ _ children => Step.allEveryLoop_of_forall all children
  | .script script => script.everyLoop_of_forall all
  | .logger .. => trivial
  | .textMessage _ => trivial
  | .action _ => trivial
  | .assertion _ => trivial
  | .breakLoop _ => trivial
  | .propertyAction _ => trivial
  | .function _ => trivial

theorem Step.allEveryLoop_of_forall (all : ∀ bounds, permits bounds) :
    (steps : List Step) → Step.AllEveryLoop permits steps
  | [] => trivial
  | step :: rest => ⟨step.everyLoop_of_forall all, Step.allEveryLoop_of_forall all rest⟩

/-- If all bounds are permitted, every script will do. -/
theorem Script.everyLoop_of_forall (all : ∀ bounds, permits bounds) :
    (script : Script) → script.EveryLoop permits
  | ⟨_, _, _, steps⟩ => Step.allEveryLoop_of_forall all steps

end

end EveryLoop

/-! ### Visits -/

theorem Step.visits_eq_map (setting : Setting) (steps : List Step) :
    Step.visits setting steps = steps.map fun step => (step.order, step.visit setting) := by
  induction steps with
  | nil => rfl
  | cons step rest ih => rw [Step.visits, ih, List.map_cons]

/-- The cases of a proof that a property holds of all visits, as far as the bounds of loops are
permitted. -/
structure VisitLaw (setting : Setting) (permits : LoopBounds → Prop)
    (visited entered : Visit Flow → Prop) (ran : Script → (Context → Program ScriptRun) → Prop) :
    Prop where
  step (label : String) {rest : Visit Flow} (restEntered : entered rest) :
    visited (do Visit.checkpoint; Visit.moveTo fun context => context.enterStep label; rest)
  sequence {steps : List (Visit Flow)} (stepsVisited : ∀ step ∈ steps, visited step) :
    visited (Visit.sequence steps)
  script (script : Script) {body : Visit Flow} (bodyVisited : visited body) :
    ran script (Visit.runScript script.id script.name body)
  execution {body : Visit Flow} (bodyVisited : visited body) : entered body
  condition (guard : Guard) {body : Visit Flow} (bodyVisited : visited body) :
    entered (Visit.condition guard body)
  loop {bounds : LoopBounds} (permitted : permits bounds) {body : Visit Flow}
    (bodyVisited : visited body) :
    entered (Visit.loop bounds body)
  foreach (list element : String) {body : Visit Flow} (bodyVisited : visited body) :
    entered (Visit.foreach list element body)
  lock (name : String) (timeout : Nat) {body : Visit Flow} (bodyVisited : visited body) :
    entered (Visit.lock name timeout body)
  embed (script : Script) {run : Context → Program ScriptRun} (scriptRan : ran script run) :
    entered (Visit.embed script.name run)
  breakLoop (guards : List Guard) : entered (Visit.breakLoop guards)
  action (action : Action) : entered (Visit.action setting action)
  assertion (assertion : Assertion) : entered (Visit.assertion setting assertion)
  function (function : Function) : entered (Visit.function setting function)
  propertyAction (action : PropertyAction) : entered (Visit.propertyAction action)
  logger (level : LogLevel) (children : List Step) : entered (Visit.logger level children)
  textMessage (message : TextMessage) : entered (Visit.textMessage message)

namespace VisitLaw

variable {setting : Setting} {permits : LoopBounds → Prop} {visited entered : Visit Flow → Prop}
  {ran : Script → (Context → Program ScriptRun) → Prop}

/-- The order of siblings does not matter to a property of all visits. -/
theorem siblings (law : VisitLaw setting permits visited entered ran)
    {steps : List (UInt32 × Visit Flow)} (stepsVisited : ∀ step ∈ steps, visited step.2) :
    visited (Visit.siblings steps) := by
  apply law.sequence
  intro step stepMem
  rcases List.mem_map.mp stepMem with ⟨ordered, orderedMem, rfl⟩
  exact stepsVisited ordered ((inOrder_perm Prod.fst steps).mem_iff.mp orderedMem)

mutual

theorem visit (law : VisitLaw setting permits visited entered ran) :
    (step : Step) → step.EveryLoop permits → visited (step.visit setting)
  | ⟨_, _, kind⟩, everyLoop => by
      rw [Step.visit]
      exact law.step _ (law.visitKind kind everyLoop)

theorem visitKind (law : VisitLaw setting permits visited entered ran) :
    (kind : StepKind) → kind.EveryLoop permits → entered (kind.visit setting)
  | .logger level children, _ => by
      rw [StepKind.visit]
      exact law.logger level children
  | .textMessage message, _ => by
      rw [StepKind.visit]
      exact law.textMessage message
  | .condition ⟨guard, children⟩, everyLoop => by
      rw [StepKind.visit]
      exact law.condition guard (law.siblings (law.visits children everyLoop))
  | .execution children, everyLoop => by
      rw [StepKind.visit]
      exact law.execution (law.siblings (law.visits children everyLoop))
  | .action action, _ => by
      rw [StepKind.visit]
      exact law.action action
  | .assertion assertion, _ => by
      rw [StepKind.visit]
      exact law.assertion assertion
  | .loop bounds children, everyLoop => by
      rw [StepKind.visit]
      exact law.loop everyLoop.1 (law.siblings (law.visits children everyLoop.2))
  | .foreach list element children, everyLoop => by
      rw [StepKind.visit]
      exact law.foreach list element (law.siblings (law.visits children everyLoop))
  | .breakLoop conditions, _ => by
      rw [StepKind.visit]
      exact law.breakLoop _
  | .lock name timeout children, everyLoop => by
      rw [StepKind.visit]
      exact law.lock name _ (law.siblings (law.visits children everyLoop))
  | .propertyAction action, _ => by
      rw [StepKind.visit]
      exact law.propertyAction action
  | .script script, everyLoop => by
      rw [StepKind.visit]
      exact law.embed script (law.run script everyLoop)
  | .function function, _ => by
      rw [StepKind.visit]
      exact law.function function

theorem visits (law : VisitLaw setting permits visited entered ran) :
    (steps : List Step) → Step.AllEveryLoop permits steps →
      ∀ step ∈ Step.visits setting steps, visited step.2
  | [], _ => by simp [Step.visits]
  | step :: rest, everyLoop => by
      rw [Step.visits, List.forall_mem_cons]
      exact ⟨law.visit step everyLoop.1, law.visits rest everyLoop.2⟩

theorem run (law : VisitLaw setting permits visited entered ran) :
    (script : Script) → script.EveryLoop permits → ran script (script.run setting)
  | ⟨id, name, order, steps⟩, everyLoop => by
      have ranScript :=
        law.script ⟨id, name, order, steps⟩ (law.siblings (law.visits steps everyLoop))
      rw [Script.run]
      exact ranScript

end

end VisitLaw

end TestEngine
