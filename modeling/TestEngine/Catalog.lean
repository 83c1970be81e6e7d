import TestEngine.EngineError
import TestEngine.Script.Basic
import TestEngine.Text.Quoted

/-!
# The catalog of capabilities

What a run can call is registered by name before it begins: backends that perform actions, checks
of properties, and at most one capability that executes functions.
-/

namespace TestEngine

/-- The names of the registered capabilities. -/
structure Catalog where
  backends : List String
  checks : List String
  scripting : Bool
  tracing : Bool

namespace Catalog

/-- The link that selects the backend of an action, and the operation that it names. -/
def resolveAction (catalog : Catalog) (action : Action) : Except EngineError (Metadata × String) :=
  match action.metadata.getLast? with
  | none => .error (.configuration ("Action '" ++ action.name ++ "' has no metadata"))
  | some target =>
    if target.engine ∈ catalog.backends then
      match target.operation with
      | some operation => .ok (target, operation)
      | none => .error (.configuration
          ("Metadata '" ++ target.name ++ "' of action '" ++ action.name ++
            "' declares no operation"))
    else .error (.configuration
      ("No sub-engine registered for type '" ++ target.engine ++ "'"))

def described (catalog : Catalog) : String :=
  let sorted (names : List String) : String := Text.quotedList (names.mergeSort fun a b => a ≤ b)
  Text.described "EngineRegistry"
    [("sub_engines", sorted catalog.backends), ("assertions", sorted catalog.checks),
      ("script_runner", Text.boolWord catalog.scripting),
      ("trace_cache", Text.boolWord catalog.tracing)]

end Catalog

end TestEngine
