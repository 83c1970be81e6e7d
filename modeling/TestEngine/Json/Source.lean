import TestEngine.Json.Basic

/-!
# JSON as it was found

A `Source` is a JSON document as a text gave it: fields in their order and with repeated names, and
the faults of the text at the places where they were met. A reader that goes through a source in
order reports the first problem of the document, be it one of form or one of content.
-/

namespace TestEngine.Json

/-- What is wrong with the form of a text. -/
inductive Fault where
  | malformed
  | truncated
  deriving DecidableEq

/-- A JSON document with its faults. -/
inductive Source where
  | null
  | bool (value : Bool)
  | integer (value : Int)
  | double (value : Double)
  | string (value : String)
  /-- A number or a string that has an end but no value. -/
  | unreadable
  | array (items : List Source) (ending : Option Fault)
  /-- An object; a name is `none` where it has an end but no value. -/
  | object (fields : List (Option String × Source)) (ending : Option Fault)
  | cut (fault : Fault)

namespace Source

instance : Inhabited Source := ⟨null⟩

mutual

def ofJson : Json → Source
  | .null => .null
  | .bool value => .bool value
  | .integer value => .integer value
  | .double value => .double value
  | .string value => .string value
  | .array items => .array (ofItems items) none
  | .object fields => .object (ofFields fields) none

def ofItems : List Json → List Source
  | [] => []
  | item :: rest => ofJson item :: ofItems rest

def ofFields : List (String × Json) → List (Option String × Source)
  | [] => []
  | (name, value) :: rest => (some name, ofJson value) :: ofFields rest

end

mutual

/-- How many arrays and objects lie in each other at most. -/
def depth : Source → Nat
  | .array items _ => depthOfItems items + 1
  | .object fields _ => depthOfFields fields + 1
  | _ => 0

def depthOfItems : List Source → Nat
  | [] => 0
  | item :: rest => max item.depth (depthOfItems rest)

def depthOfFields : List (Option String × Source) → Nat
  | [] => 0
  | (_, value) :: rest => max value.depth (depthOfFields rest)

end

mutual

/-- The fault that ends a document, if one passes over it without reading the values in it. -/
def faultOfForm : Source → Option Fault
  | .cut fault => some fault
  | .array items ending => formOfItems items <|> ending
  | .object fields ending => formOfFields fields <|> ending
  | _ => none

def formOfItems : List Source → Option Fault
  | [] => none
  | item :: rest => item.faultOfForm <|> formOfItems rest

def formOfFields : List (Option String × Source) → Option Fault
  | [] => none
  | (_, value) :: rest => value.faultOfForm <|> formOfFields rest

end

mutual

/-- The first fault of a document all of whose values are read, or that lies deeper than allowed. -/
def faultOfContent : (depth : Nat) → Source → Option Fault
  | _, .cut fault => some fault
  | _, .unreadable => some .malformed
  | 0, .array .. => some .malformed
  | depth + 1, .array items ending => contentOfItems depth items <|> ending
  | 0, .object .. => some .malformed
  | depth + 1, .object fields ending => contentOfFields depth fields <|> ending
  | _, _ => none

def contentOfItems : (depth : Nat) → List Source → Option Fault
  | _, [] => none
  | depth, item :: rest => item.faultOfContent depth <|> contentOfItems depth rest

def contentOfFields : (depth : Nat) → List (Option String × Source) → Option Fault
  | _, [] => none
  | _, (none, _) :: _ => some .malformed
  | depth, (some _, value) :: rest => value.faultOfContent depth <|> contentOfFields depth rest

end

/-- Puts a field in the place of an earlier one of its name, or at the end. -/
def putField (fields : List (String × Json)) (name : String) (value : Json) :
    List (String × Json) :=
  match fields with
  | [] => [(name, value)]
  | (key, old) :: rest =>
    if key = name then (key, value) :: rest else (key, old) :: putField rest name value

mutual

/-- The value of a document without faults; of a repeated name the last value counts. -/
def toJson : Source → Json
  | .null => .null
  | .bool value => .bool value
  | .integer value => .integer value
  | .double value => .double value
  | .string value => .string value
  | .array items _ => .array (itemsToJson items)
  | .object fields _ => .object (fieldsToJson fields [])
  | .unreadable => .null
  | .cut _ => .null

def itemsToJson : List Source → List Json
  | [] => []
  | item :: rest => item.toJson :: itemsToJson rest

def fieldsToJson : List (Option String × Source) → List (String × Json) → List (String × Json)
  | [], fields => fields
  | (none, _) :: rest, fields => fieldsToJson rest fields
  | (some name, value) :: rest, fields => fieldsToJson rest (putField fields name value.toJson)

end

end Source

end TestEngine.Json
