import TestEngine.Configuration.Json
import TestEngine.FileName
import TestEngine.Json.Reader
import TestEngine.Toml.Reader

/-!
# Configuration files

A configuration is kept in a file, as TOML if the name of the file says so and as JSON otherwise.
-/

namespace TestEngine

/-- Why a file holds no configuration. -/
inductive FileProblem where
  | unreadable (file : String)
  | invalidJson (file : String)
  | invalidToml (file : String)
  deriving DecidableEq

def FileProblem.message : FileProblem → String
  | unreadable file => "Failed to read " ++ file
  | invalidJson file => "Invalid JSON in " ++ file
  | invalidToml file => "Invalid TOML in " ++ file

/-- Whether the extension of a file is `toml` in letters of either case. -/
def isTomlFile (file : String) : Bool :=
  (FileName.extension? file).any fun extension => extension.toLower = "toml"

namespace Configuration

def ofJsonText? (text : String) : Option Configuration :=
  (Json.decodeText Json.Decode.configuration text).toOption

def ofTomlText? (text : String) : Option Configuration := do
  let document ← Toml.parse? text
  (Json.decodeSource Json.Decode.configuration document.toSource).toOption

/-- Reads a configuration out of a file with a text; there is no text if there is no such file. -/
def ofFile (file : String) (text : Option String) : Except FileProblem Configuration :=
  match text with
  | none => .error (.unreadable file)
  | some text =>
    if isTomlFile file then
      match ofTomlText? text with
      | some configuration => .ok configuration
      | none => .error (.invalidToml file)
    else
      match ofJsonText? text with
      | some configuration => .ok configuration
      | none => .error (.invalidJson file)

end Configuration

end TestEngine
