import TestEngine.Property.Json
import TestEngine.Script.Basic

/-!
# Scripts as documents

A step is one flat object: its `id` and `order`, the name of its kind under `type`, and the fields
of that kind beside them.
-/

namespace TestEngine

def Json.ofUInt64? : Option UInt64 → Json
  | some n => .integer n.toNat
  | none => .null

def Guard.fields (guard : Guard) : List (String × Json) :=
  [("property", .string guard.property), ("operator", .string guard.operator.name),
    ("value", Json.ofString? guard.value), ("value_property", Json.ofString? guard.valueProperty)]

def Metadata.toJson (metadata : Metadata) : Json :=
  .object [("name", .string metadata.name), ("engine", .string metadata.engine),
    ("operation", Json.ofString? metadata.operation),
    ("action_type", Json.ofString? metadata.actionType)]

mutual

def Script.toJson : Script → Json
  | ⟨id, name, order, steps⟩ =>
    .object [("id", .string id), ("name", .string name), ("order", .integer order.toNat),
      ("elements", .array (Step.listToJson steps))]

def Step.toJson : Step → Json
  | ⟨id, order, kind⟩ =>
    .object (("id", .string id) :: ("order", .integer order.toNat) ::
      ("type", .string kind.name) :: kind.fields)

def StepKind.fields : StepKind → List (String × Json)
  | .logger level children =>
    [("level", .string level.name), ("children", .array (Step.listToJson children))]
  | .textMessage message =>
    [("text", .string message.text), ("property", Json.ofString? message.property)]
  | .condition block => block.fields
  | .execution children => [("children", .array (Step.listToJson children))]
  | .action action =>
    [("name", .string action.name), ("metadata", .array (action.metadata.map Metadata.toJson)),
      ("properties", .array (Property.listToJson action.properties)),
      ("delay_ms", Json.ofUInt64? action.delay)]
  | .assertion assertion =>
    [("fail", .bool assertion.fail), ("message", Json.ofString? assertion.message),
      ("class_name", Json.ofString? assertion.checkName),
      ("property", Json.ofString? assertion.property)]
  | .loop bounds children =>
    [("max_iterations", .integer bounds.maxIterations.toNat),
      ("max_duration_ms", .integer bounds.maxDuration.toNat),
      ("index", Json.ofString? bounds.index), ("wait_ms", .integer bounds.wait.toNat),
      ("children", .array (Step.listToJson children))]
  | .foreach list element children =>
    [("list", .string list), ("element", .string element),
      ("children", .array (Step.listToJson children))]
  | .breakLoop conditions => [("conditions", .array (Block.listToJson conditions))]
  | .lock name timeout children =>
    [("name", .string name), ("timeout_ms", Json.ofUInt64? timeout),
      ("children", .array (Step.listToJson children))]
  | .propertyAction action =>
    [("action", .string action.verb.name), ("property", .string action.target),
      ("source", Json.ofString? action.source), ("value", Json.ofString? action.value),
      ("property_type", Json.ofString? (action.kind.map PropertyKind.name))]
  | .script script => [("script", script.toJson)]
  | .function function =>
    [("name", .string function.name), ("source", .string function.source),
      ("properties", .array (Property.listToJson function.properties))]

def Block.fields : Block → List (String × Json)
  | ⟨guard, children⟩ => guard.fields ++ [("children", .array (Step.listToJson children))]

def Step.listToJson : List Step → List Json
  | [] => []
  | step :: rest => step.toJson :: Step.listToJson rest

def Block.listToJson : List Block → List Json
  | [] => []
  | block :: rest => .object block.fields :: Block.listToJson rest

end

namespace Json.Decode

def metadata : Decoder Metadata :=
  Record.decode <| (Record.done Metadata.mk)
    |>.required "name" string
    |>.required "engine" string
    |>.optional "operation" string
    |>.optional "action_type" string

def block (step : Decoder Step) : Record Block :=
  (Record.done fun property operator value valueProperty children =>
      Block.mk ⟨property, operator, value, valueProperty⟩ children)
    |>.required "property" string
    |>.required "operator" (word Operator.ofName?)
    |>.optional "value" string
    |>.optional "value_property" string
    |>.defaulted "children" (list step) []

def scriptOf (step : Decoder Step) : Record Script :=
  (Record.done Script.mk)
    |>.required "id" string
    |>.required "name" string
    |>.defaulted "order" uint32 0
    |>.defaulted "elements" (list step) []

def action : Record Action :=
  (Record.done Action.mk)
    |>.required "name" string
    |>.defaulted "metadata" (list metadata) []
    |>.defaulted "properties" (list property) []
    |>.optional "delay_ms" uint64

def assertion : Record Assertion :=
  (Record.done Assertion.mk)
    |>.defaulted "fail" bool false
    |>.optional "message" string
    |>.optional "class_name" string
    |>.optional "property" string

def propertyAction : Record PropertyAction :=
  (Record.done PropertyAction.mk)
    |>.required "action" (word PropertyVerb.ofName?)
    |>.required "property" string
    |>.optional "source" string
    |>.optional "value" string
    |>.optional "property_type" (word PropertyKind.ofName?)

def function : Record Function :=
  (Record.done Function.mk)
    |>.required "name" string
    |>.required "source" string
    |>.defaulted "properties" (list property) []

def loop (step : Decoder Step) : Record StepKind :=
  (Record.done fun maxIterations maxDuration index wait children =>
      StepKind.loop ⟨maxIterations, maxDuration, index, wait⟩ children)
    |>.defaulted "max_iterations" uint32 0
    |>.defaulted "max_duration_ms" uint64 0
    |>.optional "index" string
    |>.defaulted "wait_ms" uint64 0
    |>.defaulted "children" (list step) []

def stepKinds (step : Decoder Step) : List (String × Record StepKind) :=
  [("logger", (Record.done StepKind.logger)
      |>.defaulted "level" (word LogLevel.ofName?) .info
      |>.defaulted "children" (list step) []),
    ("text_message", (Record.done fun text property => StepKind.textMessage ⟨text, property⟩)
      |>.defaulted "text" string ""
      |>.optional "property" string),
    ("condition", (block step).map StepKind.condition),
    ("execution", (Record.done StepKind.execution)
      |>.defaulted "children" (list step) []),
    ("action", action.map StepKind.action),
    ("assertion", assertion.map StepKind.assertion),
    ("loop", loop step),
    ("foreach", (Record.done StepKind.foreach)
      |>.required "list" string
      |>.required "element" string
      |>.defaulted "children" (list step) []),
    ("break_loop", (Record.done StepKind.breakLoop)
      |>.defaulted "conditions" (list (block step).decode) []),
    ("lock", (Record.done StepKind.lock)
      |>.required "name" string
      |>.optional "timeout_ms" uint64
      |>.defaulted "children" (list step) []),
    ("property_action", propertyAction.map StepKind.propertyAction),
    ("test_script", (Record.done StepKind.script)
      |>.required "script" (scriptOf step).decode),
    ("function", function.map StepKind.function)]

def stepKind (step : Decoder Step) (depth : Nat) (fields : Fields) : Decoded StepKind := do
  let tag ← uniqueField "type" fields
  let record ← selectVariant (stepKinds step) tag
  record.read (fun _ => none) depth (fields.filter fun field => field.1 ≠ some "type") none

/-- Reads a step in which steps may lie in each other up to a depth. -/
def nestedStep : (steps : Nat) → Decoder Step
  | 0 => fun _ source => mismatch source
  | steps + 1 =>
    decodeWithRest
      ((Record.done fun id order kind => Step.mk id order kind)
        |>.defaulted "id" string ""
        |>.defaulted "order" uint32 0)
      (stepKind (nestedStep steps))

def step : Decoder Step := fun depth => nestedStep (depth + 1) depth

def script : Decoder Script := fun depth => (scriptOf step).decode depth

end Json.Decode

end TestEngine
