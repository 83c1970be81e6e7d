/-!
# Errors of the engine

What can go wrong with a single node, a submission or a query. Each cause has a text of its own and
a fixed phrase in front of it.
-/

namespace TestEngine

inductive EngineError where
  | rejected (text : String)
  | jobNotFound (text : String)
  | configuration (text : String)
  /-- A reference to an unknown property or to one of another kind. -/
  | property (text : String)
  | assertion (text : String)
  | synchronization (text : String)
  | propertyAction (text : String)
  | testScript (text : String)
  | internal (text : String)
  deriving DecidableEq, Inhabited

def EngineError.message : EngineError → String
  | rejected text => "Execution rejected: " ++ text
  | jobNotFound text => "Job not found: " ++ text
  | configuration text => "Configuration error: " ++ text
  | property text => "Property error: " ++ text
  | assertion text => "Assertion failed: " ++ text
  | synchronization text => "Synchronization error: " ++ text
  | propertyAction text => "Property action failed: " ++ text
  | testScript text => "Test script failed: " ++ text
  | internal text => "Internal error: " ++ text

end TestEngine
