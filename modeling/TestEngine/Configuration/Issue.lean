import TestEngine.Configuration.Basic

/-!
# Issues of a configuration

What can be told of a configuration before it is run: the elements that will fail for want of a
schema, or that have more scripts than their schema permits.
-/

namespace TestEngine

/-- What is wrong with an element. -/
inductive Issue where
  | noSchema (element : String)
  | scriptsNotPermitted (element : String) (count : Nat)
  | tooManyScripts (element : String) (count : Nat)
  deriving DecidableEq

def Issue.message : Issue → String
  | .noSchema element => "element '" ++ element ++ "' has no schema"
  | .scriptsNotPermitted element count =>
    "element '" ++ element ++ "' permits no scripts but has " ++ toString count
  | .tooManyScripts element count =>
    "element '" ++ element ++ "' permits one script but has " ++ toString count

def Issue.of? (name : String) (schema : Option Schema) (scripts : Nat) : Option Issue :=
  match schema with
  | none => some (.noSchema name)
  | some schema =>
    match schema.scripts with
    | .none => if 0 < scripts then some (.scriptsNotPermitted name scripts) else none
    | .one => if 1 < scripts then some (.tooManyScripts name scripts) else none
    | .many => none

mutual

def Element.issues : Element → List Issue
  | ⟨_, name, _, _, _, children, scripts, _, _, schema⟩ =>
    (Issue.of? name schema scripts.length).toList ++ Element.listIssues children

def Element.listIssues : List Element → List Issue
  | [] => []
  | element :: rest => element.issues ++ Element.listIssues rest

end

def Configuration.issues (configuration : Configuration) : List Issue :=
  Element.listIssues configuration.elements

end TestEngine
