import TestEngine.Result.Basic
import TestEngine.Text.Numeral

/-!
# Reports of results

A report begins with the job and the whole result. Below, every element stands on a line of its own,
indented by two blanks for each level above it.
-/

namespace TestEngine.Launcher

open Text

def verdictLabel : Option Verdict → String
  | some verdict => verdict.name
  | none => "-"

def indentation (depth : Nat) : String := String.ofList (List.replicate (2 * depth) ' ')

def elementLine (depth : Nat) (name : String) (verdict : Option Verdict) (message : Option String) :
    String :=
  let line := indentation depth ++ name ++ " [" ++ verdictLabel verdict ++ "]"
  match message with
  | some message => line ++ " " ++ message
  | none => line

mutual

def elementLines (depth : Nat) : ElementResult → List String
  | ⟨_, name, _, _, verdict, _, _, _, message, results, _, _⟩ =>
    elementLine depth name verdict message :: listLines (depth + 1) results

def listLines (depth : Nat) : List ElementResult → List String
  | [] => []
  | result :: rest => elementLines depth result ++ listLines depth rest

end

def report (id : String) (status : JobStatus) (result : ConfigurationResult) : List String :=
  ["Execution: " ++ id, "Configuration: " ++ result.name, "Status: " ++ status.title,
    "Result: " ++ verdictLabel result.verdict] ++
    (result.duration.map fun duration => "Duration: " ++ integerText duration ++ "ms").toList ++
    [""] ++ listLines 1 result.results

end TestEngine.Launcher
