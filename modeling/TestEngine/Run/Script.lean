import TestEngine.Run.Step

/-!
# Running scripts

The program of a script, by recursion over its steps. Every visit of a step begins with a
checkpoint, and the cursor is moved to the step before it does anything.
-/

namespace TestEngine

mutual

def Step.visit (setting : Setting) : Step → Visit Flow
  | ⟨id, _, kind⟩ => do
    Visit.checkpoint
    Visit.moveTo fun context => context.enterStep (kind.name ++ " " ++ id)
    kind.visit setting

def StepKind.visit (setting : Setting) : StepKind → Visit Flow
  | .logger level children => Visit.logger level children
  | .textMessage message => Visit.textMessage message
  | .condition ⟨guard, children⟩ =>
    Visit.condition guard (Visit.siblings (Step.visits setting children))
  | .execution children => Visit.siblings (Step.visits setting children)
  | .action action => Visit.action setting action
  | .assertion assertion => Visit.assertion setting assertion
  | .loop bounds children => Visit.loop bounds (Visit.siblings (Step.visits setting children))
  | .foreach list element children =>
    Visit.foreach list element (Visit.siblings (Step.visits setting children))
  | .breakLoop conditions => Visit.breakLoop (conditions.map Block.guard)
  | .lock name timeout children =>
    Visit.lock name ((timeout.map UInt64.toNat).getD setting.lockTimeout)
      (Visit.siblings (Step.visits setting children))
  | .propertyAction action => Visit.propertyAction action
  | .script script => Visit.embed script.name (script.run setting)
  | .function function => Visit.function setting function

/-- The visits of steps, each with the place it has in the order. -/
def Step.visits (setting : Setting) : List Step → List (UInt32 × Visit Flow)
  | [] => []
  | step :: rest => (step.order, step.visit setting) :: Step.visits setting rest

def Script.run (setting : Setting) : Script → Context → Program ScriptRun
  | ⟨id, name, _, steps⟩ => Visit.runScript id name (Visit.siblings (Step.visits setting steps))

end

end TestEngine
