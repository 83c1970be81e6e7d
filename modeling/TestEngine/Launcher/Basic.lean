import TestEngine.Configuration.File
import TestEngine.Configuration.Issue
import TestEngine.Json.Printer
import TestEngine.Launcher.Invocation
import TestEngine.Launcher.Report
import TestEngine.Result.Json
import TestEngine.Service
import TestEngine.Settings.Load

/-!
# The launcher

The launcher loads the settings first, then the configuration file. It runs the configuration with
the capabilities that are always there, until its job is over, or tells what is wrong with it.

A job has an id of 32 hexadecimal digits in five groups, drawn at random. The thirteenth digit is
always 4, and the seventeenth is one of 8, 9, a and b.
-/

namespace TestEngine.Launcher

open Text

/-! ### Ids of jobs -/

/-- Some hexadecimal digits of a number, the lowest ones. -/
def hexDigits (count n : Nat) : List Char :=
  ((List.range count).map fun place => Nat.digitChar (n >>> (4 * place) % 16)).reverse

def jobId (n : Nat) : String :=
  let digits := hexDigits 32 n
  let variant := Nat.digitChar (8 + n >>> 60 % 4)
  String.ofList <|
    digits.take 8 ++ '-' :: (digits.drop 8).take 4 ++ '-' :: '4' :: (digits.drop 13).take 3 ++
      '-' :: variant :: (digits.drop 17).take 3 ++ '-' :: digits.drop 20

example : jobId 0 = "00000000-0000-4000-8000-000000000000" := by decide +kernel

/-! ### Runs -/

/-- What the launcher finds around itself. -/
structure Surroundings where
  files : Settings.Files
  environment : Settings.Variables
  time : Int
  id : String

/-- What the launcher leaves behind. -/
structure Outcome where
  code : UInt32
  output : List String
  complaints : List String
  elapsed : Nat
  deriving DecidableEq

def Outcome.failure (warnings : List String) (message : String) : Outcome :=
  ⟨1, [], warnings ++ ["Error: " ++ message], 0⟩

/-- The outcome of a use that the launcher does not understand. -/
def Outcome.misuse : Outcome := ⟨2, [], [], 0⟩

/-- The outcome of a use that takes the launcher down: more workers are asked for than there can
be. -/
def Outcome.crash : Outcome := ⟨101, [], [], 0⟩

def check (file : String) (configuration : Configuration) : Outcome :=
  match configuration.issues.map Issue.message with
  | [] => ⟨0, ["✓ " ++ file ++ " is valid"], [], 0⟩
  | issues =>
    .failure (issues.map fun issue => "  " ++ issue)
      (integerText issues.length ++ " issue(s) found in " ++ file)

def service? (surroundings : Surroundings) (settings : Settings) : Option (Service Unit) :=
  Service.initial? settings .builtin (.initial surroundings.time .empty ())

def conclude (warnings : List String) (id : String) (json : Bool) (elapsed : Nat)
    (status : JobStatus) (result : ConfigurationResult) : Outcome :=
  let failed := status = .interrupted ∨ result.verdict.any Verdict.isFailure
  ⟨if failed then 1 else 0, if json then [result.toJson.pretty] else report id status result,
    warnings, elapsed⟩

/-- The outcome of a run; there is none if the job does not come to an end. -/
def execute (fuel : Nat) (service : Service Unit) (id : String) (configuration : Configuration)
    (json : Bool) : Option Outcome :=
  let warnings := configuration.issues.map fun issue => "warning: " ++ issue.message
  match service.start id configuration service.settings.newContext with
  | (_, .error error) => some (.failure warnings error.message)
  | (service, .ok _) =>
    let ended := (service.settle fuel).awaitEnd fuel none id
    match ended with
    | .error error => some (.failure warnings error.message)
    | .ok (service, status) =>
      match status, service.result id with
      | some status, .ok result =>
        some (conclude warnings id json service.machine.world.clock status result)
      | some _, .error error => some (.failure warnings error.message)
      | none, _ => none

def perform (fuel : Nat) (surroundings : Surroundings) (service : Service Unit)
    (command : Command) : Option Outcome :=
  let read (file : String) : Except FileProblem Configuration :=
    Configuration.ofFile file (surroundings.files file)
  match command with
  | .run file json =>
    match read file with
    | .ok configuration => execute fuel service surroundings.id configuration json
    | .error problem => some (.failure [] problem.message)
  | .validate file =>
    match read file with
    | .ok configuration => some (check file configuration)
    | .error problem => some (.failure [] problem.message)

/-- The outcome of an invocation; there is none if the job does not come to an end. `fuel` bounds
the steps of the job. -/
def launch (fuel : Nat) (surroundings : Surroundings) (invocation : Invocation) : Option Outcome :=
  let loaded := Settings.load
    { files := surroundings.files, environment := surroundings.environment
      file := invocation.settings, workers := none, user := none }
  match loaded with
  | .error problem => some (.failure [] problem.message)
  | .ok settings =>
    match service? surroundings settings with
    | some service => perform fuel surroundings service invocation.command
    | none => some .crash

end TestEngine.Launcher
