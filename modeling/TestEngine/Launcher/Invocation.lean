/-!
# Invocations of the launcher

The launcher runs a configuration file or checks one. The option `--config` names a settings file
and can stand before the command or after it; the later one counts. After `--` everything is the
name of a file.
-/

namespace TestEngine.Launcher

/-- What the launcher is to do. -/
inductive Command where
  /-- Run a configuration, and show its result as JSON if asked to. -/
  | run (file : String) (json : Bool)
  | validate (file : String)
  deriving DecidableEq

structure Invocation where
  settings : Option String
  command : Command
  deriving DecidableEq

def isOption (argument : String) : Bool := argument.startsWith "-" && argument ≠ "-"

/-- Whether an argument can be the value of an option that stands before it. -/
def isValue (argument : String) : Bool := argument ≠ "" && !isOption argument

def settingsValue? (argument : String) : Option String :=
  let mark := "--config=".toList
  let cs := argument.toList
  if mark.isPrefixOf cs ∧ cs.length ≠ mark.length then some (String.ofList (cs.drop mark.length))
  else none

/-- The arguments of a command as far as they have been read. -/
structure Arguments where
  settings : Option String
  json : Bool
  file : Option String
  deriving DecidableEq

namespace Arguments

def withSettings (arguments : Arguments) (value : String) : Option Arguments :=
  if arguments.settings.isSome then none else some { arguments with settings := some value }

def withFile (arguments : Arguments) (value : String) : Option Arguments :=
  if arguments.file.isSome ∨ value = "" then none else some { arguments with file := some value }

def withJson (arguments : Arguments) : Option Arguments :=
  if arguments.json then none else some { arguments with json := true }

def read (permitsJson : Bool) : Arguments → List String → Option Arguments
  | arguments, [] => some arguments
  | arguments, "--" :: rest => rest.foldlM withFile arguments
  | arguments, "--config" :: value :: rest =>
    if isValue value then
      (arguments.withSettings value).bind fun changed => read permitsJson changed rest
    else none
  | arguments, argument :: rest =>
    if argument = "--json" ∧ permitsJson then
      arguments.withJson.bind fun changed => read permitsJson changed rest
    else
      match settingsValue? argument with
      | some value =>
        (arguments.withSettings value).bind fun changed => read permitsJson changed rest
      | none =>
        if isOption argument then none
        else (arguments.withFile argument).bind fun changed => read permitsJson changed rest

end Arguments

def readCommand? (settings : Option String) (arguments : List String) : Option Invocation :=
  match arguments with
  | "run" :: rest => do
    let arguments ← Arguments.read true ⟨none, false, none⟩ rest
    return ⟨arguments.settings <|> settings, .run (← arguments.file) arguments.json⟩
  | "validate" :: rest => do
    let arguments ← Arguments.read false ⟨none, false, none⟩ rest
    return ⟨arguments.settings <|> settings, .validate (← arguments.file)⟩
  | _ => none

def Invocation.ofArguments? (arguments : List String) : Option Invocation :=
  match arguments with
  | "--config" :: value :: rest => if isValue value then readCommand? (some value) rest else none
  | argument :: rest =>
    match settingsValue? argument with
    | some value => readCommand? (some value) rest
    | none => readCommand? none (argument :: rest)
  | [] => none

end TestEngine.Launcher
