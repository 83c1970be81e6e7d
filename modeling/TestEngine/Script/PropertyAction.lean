import TestEngine.Context
import TestEngine.Script.Basic

/-!
# Property actions

What clearing, copying, deleting and setting do to a store. An action that fails says why; setting
creates a missing property before its literal is read.
-/

namespace TestEngine

namespace PropertyAction

def missing (name : String) : EngineError :=
  .propertyAction ("Property '" ++ name ++ "' does not exist")

/-- What a copied value leaves in a target of the same kind: lists are appended to. -/
def combine (target source : Value) : Value :=
  match target, source with
  | .list items, .list appended => .list (items ++ appended)
  | _, copied => copied

/-- Copies a property to another name, or its value into a property of the same kind. -/
def copyTo (store : Store) (target : String) (source : Option String) :
    Except EngineError Store := do
  let some sourceName := source
    | .error (.propertyAction ("Copy to '" ++ target ++ "' has no source"))
  let some property := store.get? sourceName
    | .error (missing sourceName)
  match store.get? target with
  | none => return store.put (property.renamed target)
  | some old =>
    if old.kind = property.kind then
      return store.insert target { old with value := combine old.value property.value }
    else .error (.propertyAction
      ("Cannot copy " ++ property.kind.title ++ " property '" ++ sourceName ++ "' into " ++
        old.kind.title ++ " property '" ++ target ++ "'"))

/-- Sets a property from a literal, and creates it if it is missing. -/
def setTo (store : Store) (target : String) (literal : Option String)
    (kind : Option PropertyKind) : Store × Option EngineError :=
  match literal with
  | none => (store, some (.propertyAction ("Set of '" ++ target ++ "' has no value")))
  | some literal =>
    let property := (store.get? target).getD (.of target (.null (kind.getD .string)))
    match property.setLiteral literal with
    | .ok property => (store.insert target property, none)
    | .error problem =>
      (store.insert target property,
        some (.propertyAction ("Cannot set '" ++ target ++ "': " ++ problem.message)))

/-- What an action does to a store, and the error it fails with, if it does. -/
def apply (action : PropertyAction) (store : Store) : Store × Option EngineError :=
  match action.verb with
  | .clear =>
    match store.get? action.target with
    | some property => (store.insert action.target property.cleared, none)
    | none => (store, some (missing action.target))
  | .delete => (store.erase action.target, none)
  | .copy =>
    match copyTo store action.target action.source with
    | .ok store => (store, none)
    | .error problem => (store, some problem)
  | .set => setTo store action.target action.value action.kind

end PropertyAction

end TestEngine
