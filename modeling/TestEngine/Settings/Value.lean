import TestEngine.Double.Text
import TestEngine.Settings.Basic

/-!
# Reading settings out of layered values

Each setting takes any scalar that can be understood as one of its kind: texts stand for numbers
and booleans and the other way round, a fraction is rounded to a whole number, and a number that is
too large for a setting is the largest one.
-/

namespace TestEngine.Settings

open Text

def readSwitch? (text : String) : Option Bool :=
  let word := text.toLower
  if word ∈ ["true", "on", "yes"] then some true
  else if word ∈ ["false", "off", "no"] then some false
  else none

/-- A value as a boolean: a number is true unless it is zero. -/
def toBool? : Json → Option Bool
  | .bool value => some value
  | .integer value => some (value ≠ 0)
  | .double value => some (value.rank? ≠ some 0)
  | .string "1" => some true
  | .string "0" => some false
  | .string text => readSwitch? text
  | _ => none

def wholeLimit : Nat := UInt64.size - 1

/-- A double as a whole number: the nearest one, a half going up. A NaN and what is negative are
zero. -/
def wholeOfDouble : Double → Nat
  | .finite false units _ => min wholeLimit ((2 * units + unitsPerOne) / (2 * unitsPerOne))
  | .infinite false => wholeLimit
  | _ => 0

def whole? (n : Int) : Option UInt64 :=
  if 0 ≤ n ∧ n ≤ wholeLimit then some (UInt64.ofNat n.toNat) else none

def readWhole? (text : String) : Option UInt64 :=
  match text.toList with
  | '-' :: _ => none
  | cs => (readInteger? cs).bind whole?

def toWhole? : Json → Option UInt64
  | .bool value => some (if value then 1 else 0)
  | .integer value => whole? value
  | .double value => some (UInt64.ofNat (wholeOfDouble value))
  | .string text =>
    match readSwitch? text with
    | some value => some (if value then 1 else 0)
    | none => readWhole? text
  | _ => none

def toText? : Json → Option String
  | .bool value => some (if value then "true" else "false")
  | .integer value => some (integerText value)
  | .double value => some value.display
  | .string text => some text
  | _ => none

def toEngines? : Json → Option (NameMap Json)
  | .object fields => some ⟨Json.finiteFields fields⟩
  | _ => none

/-- The setting of a name, or a value to take if there is none. -/
def setting? {α : Type} (table : Json) (name : String) (read? : Json → Option α) (missing : α) :
    Option α :=
  match table.get? name with
  | some value => read? value
  | none => some missing

def ofTable? (table : Json) : Option Settings := do
  let user? : Json → Option (Option String)
    | .null => some none
    | value => (toText? value).map some
  return {
    workerPoolSize := ← setting? table "worker_pool_size" toWhole? standard.workerPoolSize
    lockTimeout := ← setting? table "default_lock_timeout_ms" toWhole? standard.lockTimeout
    tracing := ← setting? table "tracing_enabled" toBool? standard.tracing
    logLevel := ← setting? table "log_level" toText? standard.logLevel
    user := ← setting? table "user" user? standard.user
    engines := ← setting? table "engine_settings" toEngines? standard.engines }

end TestEngine.Settings
