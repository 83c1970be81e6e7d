import TestEngine.Double.Text
import TestEngine.Settings.Layer

/-!
# Settings from environment variables

A variable is a setting if its name begins with `CONDUCTOR_`, in letters of either case. Two
underscores in the rest of its name lead into a table. Its value is taken as a boolean, an integer
or a number if it reads as one.
-/

namespace TestEngine.Settings

open Text

abbrev Variables := List (String × String)

def variableStart : List Char := "conductor_".toList

def pointed : List Char → List Char
  | '_' :: '_' :: rest => '.' :: pointed rest
  | c :: rest => c :: pointed rest
  | [] => []

def settingName? (variableName : String) : Option String :=
  let name := (lowercase variableName).toList
  if variableStart.isPrefixOf name then
    some (String.ofList (pointed (name.drop variableStart.length)))
  else none

def valueOfText (text : String) : Json :=
  let word := lowercase text
  if word = "true" then .bool true
  else if word = "false" then .bool false
  else
    match readInt64? text.toList with
    | some n => .integer n.toInt
    | none =>
      match Double.read? text.toList with
      | some d => .double d
      | none => .string text

def Layer.ofVariables (environment : Variables) : Layer :=
  environment.filterMap fun (name, value) =>
    (settingName? name).map fun name => (name, valueOfText value)

end TestEngine.Settings
