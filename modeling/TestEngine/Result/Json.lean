import TestEngine.Configuration.Json
import TestEngine.Result.Basic

/-!
# Results as documents

A result is written with all its fields, those without a value as null, and moments as timestamps.
On reading, a field that may be null may also be missing.
-/

namespace TestEngine

open Calendar

def Json.ofInstant? (instant : Option Instant) : Json :=
  Json.ofString? (instant.map Instant.timestamp)

def Json.ofVerdict? (verdict : Option Verdict) : Json := Json.ofString? (verdict.map Verdict.name)

def Json.ofInt? : Option Int → Json
  | some n => .integer n
  | none => .null

def LogEntry.toJson (entry : LogEntry) : Json :=
  .object [("timestamp", .string entry.timestamp.timestamp), ("level", .string entry.level.name),
    ("user", Json.ofString? entry.user), ("message", .string entry.message)]

def Json.ofContent? : Option Content → Json
  | some bytes => .array (bytes.map fun byte => .integer byte.toNat)
  | none => .null

def Trace.toJson (trace : Trace) : Json :=
  .object [
    ("id", .string trace.id), ("kind", .string trace.kind.name), ("name", .string trace.name),
    ("deferred", .bool trace.deferred), ("content", Json.ofContent? trace.content)]

def ActionResponse.fields (response : ActionResponse) : List (String × Json) :=
  [("action", .string response.action), ("status", .string response.status.name),
    ("error_message", Json.ofString? response.message),
    ("return_properties", .array (Property.listToJson response.returned)),
    ("traces", .array (response.traces.map Trace.toJson)),
    ("delay_ms", Json.ofUInt64? response.delay)]

mutual

def ScriptResult.fields : ScriptResult → List (String × Json)
  | ⟨scriptId, name, verdict, start, stop, duration, message, log, entries⟩ =>
    [("script_id", .string scriptId), ("name", .string name), ("status", Json.ofVerdict? verdict),
      ("start", Json.ofInstant? start), ("end", Json.ofInstant? stop),
      ("duration_ms", Json.ofInt? duration), ("error_message", Json.ofString? message),
      ("log", .array (log.map LogEntry.toJson)),
      ("elements", .array (ScriptEntry.listToJson entries))]

def ScriptEntry.toJson : ScriptEntry → Json
  | .action response => .object (("type", .string "action") :: response.fields)
  | .script result => .object (("type", .string "script") :: result.fields)

def ScriptEntry.listToJson : List ScriptEntry → List Json
  | [] => []
  | entry :: rest => entry.toJson :: ScriptEntry.listToJson rest

end

def ManualResult.toJson (manual : ManualResult) : Json :=
  .object [("status", .string manual.status.name), ("verdict", Json.ofVerdict? manual.verdict),
    ("comment", Json.ofString? manual.comment), ("tester", Json.ofString? manual.tester)]

def Interaction.toJson (interaction : Interaction) : Json :=
  .object [("manual_result", (interaction.manualResult.map ManualResult.toJson).getD .null)]

mutual

def ElementResult.toJson : ElementResult → Json
  | ⟨elementId, name, level, schemaId, verdict, start, stop, duration, message, results, scripts,
      manual⟩ =>
    .object [("element_id", .string elementId), ("name", .string name),
      ("level", .integer level.toNat), ("schema_id", Json.ofString? schemaId),
      ("status", Json.ofVerdict? verdict), ("start", Json.ofInstant? start),
      ("end", Json.ofInstant? stop), ("duration_ms", Json.ofInt? duration),
      ("error_message", Json.ofString? message),
      ("results", .array (ElementResult.listToJson results)),
      ("script_results", .array (scripts.map fun script => .object script.fields)),
      ("manual", (manual.map ManualResult.toJson).getD .null)]

def ElementResult.listToJson : List ElementResult → List Json
  | [] => []
  | result :: rest => result.toJson :: ElementResult.listToJson rest

end

def ConfigurationResult.toJson (result : ConfigurationResult) : Json :=
  .object [("configuration_id", .string result.configurationId), ("name", .string result.name),
    ("run_status", .string result.runStatus.name), ("status", Json.ofVerdict? result.verdict),
    ("start", Json.ofInstant? result.start), ("end", Json.ofInstant? result.stop),
    ("duration_ms", Json.ofInt? result.duration),
    ("results", .array (ElementResult.listToJson result.results))]

namespace Json.Decode

/-- Reads a number of milliseconds. -/
def millis : Decoder Int := integer Int64.minValue.toInt Int64.maxValue.toInt id

def logEntry : Decoder LogEntry :=
  Record.decode <| (Record.done LogEntry.mk)
    |>.required "timestamp" timestamp
    |>.required "level" (word LogLevel.ofName?)
    |>.optional "user" string
    |>.required "message" string

def trace : Decoder Trace :=
  Record.decode <| (Record.done Trace.mk)
    |>.required "id" string
    |>.required "kind" (word TraceKind.ofName?)
    |>.required "name" string
    |>.required "deferred" bool
    |>.optional "content" (list byte)

def actionResponse : Record ActionResponse :=
  (Record.done ActionResponse.mk)
    |>.required "action" string
    |>.required "status" (word ActionStatus.ofName?)
    |>.optional "error_message" string
    |>.required "return_properties" (list property)
    |>.required "traces" (list trace)
    |>.optional "delay_ms" uint64

def scriptResultOf (entry : Decoder ScriptEntry) : Record ScriptResult :=
  (Record.done ScriptResult.mk)
    |>.required "script_id" string
    |>.required "name" string
    |>.optional "status" (word Verdict.ofName?)
    |>.optional "start" timestamp
    |>.optional "end" timestamp
    |>.optional "duration_ms" millis
    |>.optional "error_message" string
    |>.required "log" (list logEntry)
    |>.required "elements" (list entry)

/-- Reads an entry in which script results may lie in each other up to a depth. -/
def nestedEntry : (entries : Nat) → Decoder ScriptEntry
  | 0 => fun _ source => mismatch source
  | entries + 1 =>
    decodeWithRest (Record.done id) fun depth fields => do
      let tag ← uniqueField "type" fields
      let record ← selectVariant
        [("action", actionResponse.map ScriptEntry.action),
          ("script", (scriptResultOf (nestedEntry entries)).map ScriptEntry.script)] tag
      record.read (fun _ => none) depth (fields.filter fun field => field.1 ≠ some "type") none

def scriptResult : Decoder ScriptResult := fun depth =>
  (scriptResultOf (nestedEntry (depth + 1))).decode depth

def manualResult : Decoder ManualResult :=
  Record.decode <| (Record.done ManualResult.mk)
    |>.required "status" (word ManualStatus.ofName?)
    |>.optional "verdict" (word Verdict.ofName?)
    |>.optional "comment" string
    |>.optional "tester" string

def interaction : Decoder Interaction :=
  Record.decode <| (Record.done Interaction.mk)
    |>.optional "manual_result" manualResult

/-- Reads an element result in which element results may lie in each other up to a depth. -/
def nestedElementResult : (results : Nat) → Decoder ElementResult
  | 0 => fun _ source => mismatch source
  | results + 1 =>
    Record.decode <| (Record.done ElementResult.mk)
      |>.required "element_id" string
      |>.required "name" string
      |>.required "level" uint32
      |>.optional "schema_id" string
      |>.optional "status" (word Verdict.ofName?)
      |>.optional "start" timestamp
      |>.optional "end" timestamp
      |>.optional "duration_ms" millis
      |>.optional "error_message" string
      |>.required "results" (list (nestedElementResult results))
      |>.required "script_results" (list scriptResult)
      |>.optional "manual" manualResult

def elementResult : Decoder ElementResult := fun depth => nestedElementResult (depth + 1) depth

def configurationResult : Decoder ConfigurationResult :=
  Record.decode <| (Record.done ConfigurationResult.mk)
    |>.required "configuration_id" string
    |>.required "name" string
    |>.required "run_status" (word RunStatus.ofName?)
    |>.optional "status" (word Verdict.ofName?)
    |>.optional "start" timestamp
    |>.optional "end" timestamp
    |>.optional "duration_ms" millis
    |>.required "results" (list elementResult)

end Json.Decode

end TestEngine
