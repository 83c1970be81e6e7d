import TestEngine.Json.Decode
import TestEngine.Property.Basic

/-!
# Properties as documents

A property is one flat object: its name, the property it refers to if any, its kind under `type`
and its value under `value`. A missing value is null; a list has to be there.
-/

namespace TestEngine

open Calendar

mutual

def Value.toJson : Value → Json
  | .boolean value => match value with
    | some b => .bool b
    | none => .null
  | .string value | .xml value | .xpath value | .file value | .sql value => Json.ofString? value
  | .integer value => match value with
    | some n => .integer n.toInt
    | none => .null
  | .long value => match value with
    | some n => .integer n.toInt
    | none => .null
  | .double value => match value with
    | some d => .double d
    | none => .null
  | .date value => Json.ofString? (value.map Instant.timestamp)
  | .list items => .array (Property.listToJson items)

def Property.toJson : Property → Json
  | ⟨name, reference, value⟩ =>
    let typed := [("type", Json.string value.kind.name), ("value", value.toJson)]
    match reference with
    | some target => .object (("name", .string name) :: ("reference", .string target) :: typed)
    | none => .object (("name", .string name) :: typed)

def Property.listToJson : List Property → List Json
  | [] => []
  | property :: rest => property.toJson :: Property.listToJson rest

end

namespace Json.Decode

def timestamp : Decoder Instant
  | depth, source => do
    let text ← string depth source
    match readTimestamp? text with
    | some instant => .ok instant
    | none => .error .mismatched

def valueOfKind (property : Decoder Property) : PropertyKind → Decoder Value
  | .boolean, depth, source => (optional bool depth source).map .boolean
  | .string, depth, source => (optional string depth source).map .string
  | .integer, depth, source => (optional int32 depth source).map .integer
  | .long, depth, source => (optional int64 depth source).map .long
  | .double, depth, source => (optional double depth source).map .double
  | .date, depth, source => (optional timestamp depth source).map .date
  | .xml, depth, source => (optional string depth source).map .xml
  | .xpath, depth, source => (optional string depth source).map .xpath
  | .file, depth, source => (optional string depth source).map .file
  | .sql, depth, source => (optional string depth source).map .sql
  | .list, depth, source => (list property depth source).map .list

def typedValue (property : Decoder Property) (depth : Nat) (fields : Fields) : Decoded Value := do
  let tag ← uniqueField "type" fields
  let content ← uniqueField "value" fields
  let kind ← selectVariant (PropertyKind.all.map fun kind => (kind.name, kind)) tag
  valueOfKind property kind depth (content.getD .null)

/-- Reads a property in which lists may lie in each other up to a depth. -/
def nestedProperty : (lists : Nat) → Decoder Property
  | 0 => fun _ source => mismatch source
  | lists + 1 =>
    decodeWithRest
      ((Record.done fun name reference value => Property.mk name reference value)
        |>.required "name" string
        |>.optional "reference" string)
      (typedValue (nestedProperty lists))

def property : Decoder Property := fun depth => nestedProperty (depth + 1) depth

end Json.Decode

end TestEngine
