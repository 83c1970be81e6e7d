import TestEngine.Double.Basic

/-!
# JSON values

A number is an integer if it is written as one and fits into 64 bits, signed or unsigned; any other
number is a double. The fields of an object keep their order, which no reader of them depends on.
-/

namespace TestEngine

inductive Json where
  | null
  | bool (value : Bool)
  | integer (value : Int)
  | double (value : Double)
  | string (value : String)
  | array (items : List Json)
  | object (fields : List (String × Json))

namespace Json

instance : Inhabited Json := ⟨null⟩

/-- The first value of a name among the fields of an object. -/
def lookup (name : String) : List (String × Json) → Option Json
  | [] => none
  | (key, value) :: rest => if key = name then some value else lookup name rest

/-- The value of a field; what is not an object has no fields. -/
def get? (json : Json) (name : String) : Option Json :=
  match json with
  | object fields => lookup name fields
  | _ => none

def ofString? : Option String → Json
  | some text => string text
  | none => null

def string? : Json → Option String
  | string text => some text
  | _ => none

def array? : Json → Option (List Json)
  | array items => some items
  | _ => none

mutual

/-- A value as its text holds it: what is not a finite number is null. -/
def finite : Json → Json
  | double value => if value.isFinite then double value else null
  | array items => array (finiteItems items)
  | object fields => object (finiteFields fields)
  | value => value

def finiteItems : List Json → List Json
  | [] => []
  | item :: rest => finite item :: finiteItems rest

def finiteFields : List (String × Json) → List (String × Json)
  | [] => []
  | (name, value) :: rest => (name, finite value) :: finiteFields rest

end

end Json

end TestEngine
