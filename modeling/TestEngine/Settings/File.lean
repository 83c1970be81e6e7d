import TestEngine.FileName
import TestEngine.Json.Reader
import TestEngine.Settings.Layer
import TestEngine.Toml.Reader

/-!
# Settings files

Settings are kept in a file whose extension gives its format. A file can be named without its
extension; if a file of exactly that name exists, it is that one all the same.
-/

namespace TestEngine.Settings

/-- The texts of files by their names; there is none for a file that does not exist. -/
abbrev Files := String → Option String

/-- The formats of settings files. -/
inductive Format where
  | toml | json
  deriving DecidableEq

def formats : List (String × Format) := [("toml", .toml), ("json", .json)]

/-- The names that a settings file can have, given the name by which it is asked for. -/
def candidates (name : String) : List String :=
  name :: formats.map fun format => name ++ "." ++ format.1

def findFile? (files : Files) (name : String) : Option (Format × String) :=
  match files name with
  | some text => do
    let format ← formats.lookup (← FileName.extension? name)
    return (format, text)
  | none =>
    formats.findSome? fun (extension, format) =>
      (files (name ++ "." ++ extension)).map fun text => (format, text)

/-- The layer of a table; nothing else is one. -/
def Layer.ofJson? : Json → Option Layer
  | .object fields => some fields
  | _ => none

mutual

/-- The value of a JSON file: an integer beyond 63 bits is a number with a fraction. -/
def narrowed : Json → Json
  | .integer value =>
    if value ≤ Int64.maxValue.toInt then .integer value else .double (Double.ofInt value)
  | .array items => .array (narrowedItems items)
  | .object fields => .object (narrowedFields fields)
  | value => value

def narrowedItems : List Json → List Json
  | [] => []
  | item :: rest => narrowed item :: narrowedItems rest

def narrowedFields : List (String × Json) → List (String × Json)
  | [] => []
  | (name, value) :: rest => (name, narrowed value) :: narrowedFields rest

end

/-- Reads the layer of a settings file. A byte order mark in front does not count. -/
def readFile? (format : Format) (text : String) : Option Layer :=
  let text := match text.toList with
    | '\uFEFF' :: rest => String.ofList rest
    | _ => text
  match format with
  | .toml => (Toml.parse? text).bind fun document => Layer.ofJson? document.toJson
  | .json => (Json.parse? text).bind fun document => Layer.ofJson? (narrowed document)

end TestEngine.Settings
