import TestEngine.Context
import TestEngine.Json.Decode

/-!
# Settings of an engine

The settings decide how many jobs can be under way, how long a run waits for a lock, and what a
new context starts with.
-/

namespace TestEngine

structure Settings where
  workerPoolSize : UInt64
  /-- Milliseconds to wait for a lock that names no time of its own. -/
  lockTimeout : UInt64
  tracing : Bool
  logLevel : String
  user : Option String
  engines : NameMap Json

namespace Settings

def standard : Settings where
  workerPoolSize := 1
  lockTimeout := 30000
  tracing := true
  logLevel := "info"
  user := none
  engines := .empty

instance : Inhabited Settings := ⟨standard⟩

/-- The document of settings; a user who is not set is left out. -/
def toJson (settings : Settings) : Json :=
  .object <|
    [("worker_pool_size", .integer settings.workerPoolSize.toNat),
      ("default_lock_timeout_ms", .integer settings.lockTimeout.toNat),
      ("tracing_enabled", .bool settings.tracing), ("log_level", .string settings.logLevel)] ++
      (settings.user.map fun user => ("user", Json.string user)).toList ++
      [("engine_settings", .object settings.engines.entries)]

def newContext (settings : Settings) : Context :=
  { Context.ofProperties [] with
    tracing := settings.tracing, user := settings.user, settings := settings.engines }

end Settings

namespace Json.Decode

def engineSettings : Decoder (NameMap Json)
  | depth, source => do
    match ← any depth source with
    | .object fields => return .ofList fields
    | _ => .error .mismatched

/-- Reads settings. What is missing is as in the standard settings. -/
def settings : Decoder Settings :=
  Record.decode <| (Record.done Settings.mk)
    |>.defaulted "worker_pool_size" uint64 Settings.standard.workerPoolSize
    |>.defaulted "default_lock_timeout_ms" uint64 Settings.standard.lockTimeout
    |>.defaulted "tracing_enabled" bool Settings.standard.tracing
    |>.defaulted "log_level" string Settings.standard.logLevel
    |>.optional "user" string
    |>.defaulted "engine_settings" engineSettings Settings.standard.engines

end Json.Decode

end TestEngine
