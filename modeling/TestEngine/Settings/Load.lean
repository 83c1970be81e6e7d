import TestEngine.Settings.File
import TestEngine.Settings.Value
import TestEngine.Settings.VariableFile

/-!
# Loading settings

The settings of an engine come, each source counting more than the ones before it, from the standard
settings, a settings file, environment variables and explicit overrides. Variables can be kept in a
file of their own, where they count less than those of the environment.
-/

namespace TestEngine.Settings

/-- Why settings cannot be loaded. -/
inductive LoadProblem where
  | unloadable
  | invalid
  | noWorkers
  deriving DecidableEq

def LoadProblem.message : LoadProblem → String
  | unloadable => "Failed to load configuration"
  | invalid => "Invalid configuration"
  | noWorkers => "worker_pool_size must be at least 1"

structure Sources where
  files : Files
  environment : Variables
  /-- The settings file; without one, a file of the standard name is taken if there is one. -/
  file : Option String
  workers : Option UInt64
  user : Option String

def standardFile : String := "conductor"

def variableFile : String := ".env"

def Sources.fileLayer (sources : Sources) : Except LoadProblem Layer :=
  let read (format : Format) (text : String) : Except LoadProblem Layer :=
    match readFile? format text with
    | some layer => .ok layer
    | none => .error .unloadable
  match sources.file with
  | some name =>
    match findFile? sources.files name with
    | some (format, text) => read format text
    | none => .error .unloadable
  | none =>
    match findFile? sources.files standardFile with
    | some (format, text) => read format text
    | none => .ok []

def Sources.variableLayer (sources : Sources) : Layer :=
  Layer.ofVariables <| match sources.files variableFile with
    | some text => sources.environment.withFile text
    | none => sources.environment

/-- The layer of the overrides. The number of workers is taken as a signed number of 64 bits. -/
def Sources.overrides (sources : Sources) : Layer :=
  (sources.workers.map fun workers =>
      ("worker_pool_size", Json.integer workers.toInt64.toInt)).toList ++
    (sources.user.map fun user => ("user", Json.string user)).toList

def Sources.table (sources : Sources) (file : Layer) : Json :=
  sources.overrides.over (sources.variableLayer.over (file.over standard.toJson))

def load (sources : Sources) : Except LoadProblem Settings := do
  let file ← sources.fileLayer
  match ofTable? (sources.table file) with
  | none => .error .invalid
  | some settings => if settings.workerPoolSize = 0 then .error .noWorkers else .ok settings

end TestEngine.Settings
