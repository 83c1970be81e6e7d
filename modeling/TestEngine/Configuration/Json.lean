import TestEngine.Configuration.Basic
import TestEngine.Script.Json

/-!
# Configurations as documents

Every field of an element or a schema has a value that it takes when a document leaves it out, apart
from ids and names. A document that is written names them all.
-/

namespace TestEngine

def Schema.toJson (schema : Schema) : Json :=
  .object [("id", .string schema.id), ("name", .string schema.name),
    ("level", .integer schema.level.toNat), ("scripts", .string schema.scripts.name),
    ("skippable", .bool schema.skippable), ("dependency_check", .bool schema.dependencyCheck),
    ("dependency_algorithm", .string schema.dependencyRule.name),
    ("property_container", .bool schema.propertyContainer)]

mutual

def Element.toJson : Element → Json
  | ⟨id, name, order, mode, skip, children, scripts, dependencies, properties, schema⟩ =>
    .object [("id", .string id), ("name", .string name), ("order", .integer order.toNat),
      ("execution_type", .string mode.name), ("skip", .bool skip),
      ("children", .array (Element.listToJson children)),
      ("scripts", .array (scripts.map Script.toJson)),
      ("dependencies", .array (dependencies.map Json.string)),
      ("properties", .array (Property.listToJson properties)),
      ("schema", (schema.map Schema.toJson).getD .null)]

def Element.listToJson : List Element → List Json
  | [] => []
  | element :: rest => element.toJson :: Element.listToJson rest

end

def Configuration.toJson (configuration : Configuration) : Json :=
  .object [("id", .string configuration.id), ("name", .string configuration.name),
    ("environment", Json.ofString? configuration.environment),
    ("release", Json.ofString? configuration.release),
    ("elements", .array (Element.listToJson configuration.elements))]

namespace Json.Decode

def schema : Decoder Schema :=
  Record.decode <| (Record.done Schema.mk)
    |>.required "id" string
    |>.defaulted "name" string ""
    |>.defaulted "level" uint32 0
    |>.defaulted "scripts" (word ScriptPolicy.ofName?) .many
    |>.defaulted "skippable" bool false
    |>.defaulted "dependency_check" bool false
    |>.defaulted "dependency_algorithm" (word DependencyRule.ofName?) .predecessor
    |>.defaulted "property_container" bool false

/-- Reads an element in which elements may lie in each other up to a depth. -/
def nestedElement : (elements : Nat) → Decoder Element
  | 0 => fun _ source => mismatch source
  | elements + 1 =>
    Record.decode <| (Record.done Element.mk)
      |>.required "id" string
      |>.required "name" string
      |>.defaulted "order" uint32 0
      |>.defaulted "execution_type" (word ExecutionMode.ofName?) .automatic
      |>.defaulted "skip" bool false
      |>.defaulted "children" (list (nestedElement elements)) []
      |>.defaulted "scripts" (list script) []
      |>.defaulted "dependencies" (list string) []
      |>.defaulted "properties" (list property) []
      |>.optional "schema" schema

def element : Decoder Element := fun depth => nestedElement (depth + 1) depth

def configuration : Decoder Configuration :=
  Record.decode <| (Record.done Configuration.mk)
    |>.required "id" string
    |>.required "name" string
    |>.optional "environment" string
    |>.optional "release" string
    |>.defaulted "elements" (list element) []

end Json.Decode

end TestEngine
