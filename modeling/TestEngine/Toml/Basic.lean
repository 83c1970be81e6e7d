import TestEngine.Json.Source

/-!
# TOML values

A TOML document is a table. Its dates and times are kept as texts in their usual form.
-/

namespace TestEngine

inductive Toml where
  | string (value : String)
  | integer (value : Int)
  | float (value : Double)
  | boolean (value : Bool)
  | moment (text : String)
  | array (items : List Toml)
  | table (fields : List (String × Toml))

namespace Toml

instance : Inhabited Toml := ⟨table []⟩

mutual

/-- A value as a document to read records from. A date or a time is nothing that a record holds: it
is shown as an object without known fields. -/
def toSource : Toml → Json.Source
  | string value => .string value
  | integer value => .integer value
  | float value => .double value
  | boolean value => .bool value
  | moment text => .object [(some "", .string text)] none
  | array items => .array (itemsToSource items) none
  | table fields => .object (fieldsToSource fields) none

def itemsToSource : List Toml → List Json.Source
  | [] => []
  | item :: rest => item.toSource :: itemsToSource rest

def fieldsToSource : List (String × Toml) → List (Option String × Json.Source)
  | [] => []
  | (name, value) :: rest => (some name, value.toSource) :: fieldsToSource rest

end

mutual

/-- A value as JSON; a date or a time becomes a string. -/
def toJson : Toml → Json
  | string value => .string value
  | integer value => .integer value
  | float value => .double value
  | boolean value => .bool value
  | moment text => .string text
  | array items => .array (itemsToJson items)
  | table fields => .object (fieldsToJson fields)

def itemsToJson : List Toml → List Json
  | [] => []
  | item :: rest => item.toJson :: itemsToJson rest

def fieldsToJson : List (String × Toml) → List (String × Json)
  | [] => []
  | (name, value) :: rest => (name, value.toJson) :: fieldsToJson rest

end

end Toml

end TestEngine
