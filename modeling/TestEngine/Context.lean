import TestEngine.EngineError
import TestEngine.Json.Basic
import TestEngine.NameMap
import TestEngine.Property.Literal

/-!
# The context of a run

A run owns a store of properties, each under its own name, and knows who acts, whether traces are
kept, what the backends are set to, and where in its scripts it is.
-/

namespace TestEngine

abbrev Store := NameMap Property

namespace Store

def put (store : Store) (property : Property) : Store := store.insert property.name property

def merge (store : Store) (properties : List Property) : Store := properties.foldl put store

/-- The name of a property within a scope; the empty scope adds nothing. -/
def qualify (scope name : String) : String := if scope = "" then name else scope ++ "." ++ name

def mergeScoped (store : Store) (scope : String) (properties : List Property) : Store :=
  store.merge (properties.map fun property => property.renamed (qualify scope property.name))

/-- The property itself if it refers to no other one, else the value of the one it refers to, which
has to be of the same kind. -/
def resolve (store : Store) (property : Property) : Except EngineError Property :=
  match property.reference with
  | none => .ok property
  | some target =>
    match store.get? target with
    | none => .error (.property
        ("Property '" ++ property.name ++ "' references unknown property '" ++ target ++ "'"))
    | some source =>
      if source.kind = property.kind then .ok (.of property.name source.value)
      else .error (.property
        ("Property '" ++ property.name ++ "' expects " ++ property.kind.title ++ " but '" ++
          target ++ "' is " ++ source.kind.title))

/-- Resolves properties in order, up to the first that cannot be. -/
def resolveAll (store : Store) (properties : List Property) : Except EngineError (List Property) :=
  properties.mapM store.resolve

def ofProperties (properties : List Property) : Store := merge .empty properties

end Store

/-- The script and the step that a run is at. -/
structure Cursor where
  script : Option String
  step : Option String
  deriving DecidableEq, Inhabited

structure Context where
  properties : Store
  tracing : Bool
  user : Option String
  settings : NameMap Json
  cursor : Cursor

namespace Context

def ofProperties (properties : List Property) : Context where
  properties := Store.ofProperties properties
  tracing := true
  user := none
  settings := .empty
  cursor := ⟨none, none⟩

instance : Inhabited Context := ⟨ofProperties []⟩

def enterScript (context : Context) (name : String) : Context :=
  { context with cursor := ⟨some name, none⟩ }

def enterStep (context : Context) (label : String) : Context :=
  { context with cursor := { context.cursor with step := some label } }

end Context

end TestEngine
