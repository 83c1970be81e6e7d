import TestEngine.Script.Basic

/-!
# Test configurations

A configuration is a tree of elements. The schema of an element decides whether it may have
scripts, whether its author may skip it and how its dependencies are checked.
-/

namespace TestEngine

/-- Whether an element runs by itself or waits for a tester. -/
inductive ExecutionMode where
  | automatic | manual
  deriving DecidableEq, Inhabited

namespace ExecutionMode

def all : List ExecutionMode := [.automatic, .manual]

def name : ExecutionMode → String
  | automatic => "AUTOMATIC"
  | manual => "MANUAL"

def ofName? (name : String) : Option ExecutionMode := all.find? fun mode => mode.name = name

end ExecutionMode

/-- How many scripts an element may have. -/
inductive ScriptPolicy where
  | none | one | many
  deriving DecidableEq, Inhabited

namespace ScriptPolicy

def all : List ScriptPolicy := [.none, .one, .many]

def name : ScriptPolicy → String
  | none => "NONE"
  | one => "ONE"
  | many => "MANY"

def ofName? (name : String) : Option ScriptPolicy := all.find? fun policy => policy.name = name

end ScriptPolicy

/-- Which elements have to pass before an element is run. -/
inductive DependencyRule where
  | predecessor
  | listed
  deriving DecidableEq, Inhabited

namespace DependencyRule

def all : List DependencyRule := [.predecessor, .listed]

def name : DependencyRule → String
  | predecessor => "DEFAULT"
  | listed => "CUSTOM"

def ofName? (name : String) : Option DependencyRule := all.find? fun rule => rule.name = name

end DependencyRule

/-- The policies that govern an element. -/
structure Schema where
  id : String
  name : String
  level : UInt32
  scripts : ScriptPolicy
  skippable : Bool
  dependencyCheck : Bool
  dependencyRule : DependencyRule
  propertyContainer : Bool
  deriving DecidableEq

/-- A part of a configuration. -/
structure Element where
  id : String
  name : String
  order : UInt32
  mode : ExecutionMode
  skip : Bool
  children : List Element
  scripts : List Script
  /-- The ids of the siblings that have to pass, if the schema goes by a list. -/
  dependencies : List String
  properties : List Property
  schema : Option Schema

/-- Whether a tester has to deliver the result of an element. -/
def Element.isManualLeaf (element : Element) : Bool :=
  element.mode = .manual && element.children.isEmpty

/-- A tree of elements with a name and optional notes on what it is run against. -/
structure Configuration where
  id : String
  name : String
  environment : Option String
  release : Option String
  elements : List Element

mutual

/-- The skip flags of an element and of those below it, in the author's order. -/
def Element.skipFlags : Element → List (String × Bool)
  | ⟨id, _, _, _, skip, children, _, _, _, _⟩ => (id, skip) :: Element.listSkipFlags children

def Element.listSkipFlags : List Element → List (String × Bool)
  | [] => []
  | element :: rest => element.skipFlags ++ Element.listSkipFlags rest

end

/-- The skip flags of all elements of a configuration, in the author's order. -/
def Configuration.skipFlags (configuration : Configuration) : List (String × Bool) :=
  Element.listSkipFlags configuration.elements

end TestEngine
