import TestEngine.Json.Source

/-!
# Reading values out of documents

A `Decoder` takes a document to a value or reports the first problem that a reader meets who goes
through the document in order. A `Record` reads the fields of an object: each known field at most
once, unknown ones passed over, missing ones replaced if they may be missing.
-/

namespace TestEngine.Json

/-- Why a document is not what was looked for. -/
inductive DecodeError where
  /-- The text is not JSON, or nests too deep, or holds a number out of range. -/
  | malformed
  | truncated
  | mismatched
  deriving DecidableEq

def Fault.toDecodeError : Fault → DecodeError
  | .malformed => .malformed
  | .truncated => .truncated

abbrev Decoded (α : Type) := Except DecodeError α

/-- Reads a value out of a document in which arrays and objects may lie in each other up to a
depth. -/
abbrev Decoder (α : Type) := (depth : Nat) → Source → Decoded α

def mismatch {α : Type} : Source → Decoded α
  | .cut fault => .error fault.toDecodeError
  | .unreadable => .error .malformed
  | _ => .error .mismatched

namespace Decode

def string : Decoder String
  | _, .string value => .ok value
  | _, source => mismatch source

def bool : Decoder Bool
  | _, .bool value => .ok value
  | _, source => mismatch source

def integer {α : Type} (low high : Int) (make : Int → α) : Decoder α
  | _, .integer value =>
    if low ≤ value ∧ value ≤ high then .ok (make value) else .error .mismatched
  | _, source => mismatch source

def int32 : Decoder Int32 := integer Int32.minValue.toInt Int32.maxValue.toInt Int32.ofInt

def int64 : Decoder Int64 := integer Int64.minValue.toInt Int64.maxValue.toInt Int64.ofInt

def uint32 : Decoder UInt32 := integer 0 (UInt32.size - 1) UInt32.ofInt

def uint64 : Decoder UInt64 := integer 0 (UInt64.size - 1) UInt64.ofInt

def byte : Decoder UInt8 := integer 0 255 UInt8.ofInt

def double : Decoder Double
  | _, .double value => .ok value
  | _, .integer value => .ok (Double.ofInt value)
  | _, source => mismatch source

def optional {α : Type} (decoder : Decoder α) : Decoder (Option α)
  | _, .null => .ok none
  | depth, source => (decoder depth source).map some

def items {α : Type} (decoder : Decoder α) (depth : Nat) (ending : Option Fault) :
    List Source → Decoded (List α)
  | [] => match ending with
    | some fault => .error fault.toDecodeError
    | none => .ok []
  | item :: rest => do
    let first ← decoder depth item
    let others ← items decoder depth ending rest
    return first :: others

def list {α : Type} (decoder : Decoder α) : Decoder (List α)
  | 0, .array .. => .error .malformed
  | depth + 1, .array sources ending => items decoder depth ending sources
  | _, source => mismatch source

/-- Reads one of several words, as a string or as the only field of an object. -/
def word {α : Type} (ofName? : String → Option α) : Decoder α
  | _, .string name => match ofName? name with
    | some value => .ok value
    | none => .error .mismatched
  | _ + 1, .object [(some name, .null)] none => match ofName? name with
    | some value => .ok value
    | none => .error .mismatched
  | _, source => mismatch source

def any : Decoder Json
  | depth, source => match source.faultOfContent depth with
    | some fault => .error fault.toDecodeError
    | none => .ok source.toJson

end Decode

/-! ### Records -/

abbrev Fields := List (Option String × Source)

def findField (name : String) : Fields → Option Source
  | [] => none
  | (key, value) :: rest => if key = some name then some value else findField name rest

/-- What reading a record gave: for every known field the problem with it, if any, and the record
itself if there is none. -/
structure Parts (α : Type) where
  known : List (String × Option DecodeError)
  value : Decoded α

def Record (α : Type) := (depth : Nat) → Fields → Parts α

namespace Record

def done {α : Type} (value : α) : Record α := fun _ _ => ⟨[], .ok value⟩

def andField {α β : Type} (record : Record (α → β)) (name : String) (decoder : Decoder α)
    (missing : Decoded α) : Record β := fun depth fields =>
  let parts := record depth fields
  match findField name fields with
  | none => ⟨parts.known ++ [(name, none)], parts.value.bind fun f => missing.map f⟩
  | some source =>
    match decoder depth source with
    | .ok value => ⟨parts.known ++ [(name, none)], parts.value.map fun f => f value⟩
    | .error problem => ⟨parts.known ++ [(name, some problem)], .error problem⟩

def required {α β : Type} (record : Record (α → β)) (name : String) (decoder : Decoder α) :
    Record β :=
  record.andField name decoder (.error .mismatched)

def defaulted {α β : Type} (record : Record (α → β)) (name : String) (decoder : Decoder α)
    (value : α) : Record β :=
  record.andField name decoder (.ok value)

def optional {α β : Type} (record : Record (Option α → β)) (name : String) (decoder : Decoder α) :
    Record β :=
  record.andField name (Decode.optional decoder) (.ok none)

def map {α β : Type} (record : Record α) (f : α → β) : Record β := fun depth fields =>
  let parts := record depth fields
  ⟨parts.known, parts.value.map f⟩

/-- The first problem on the way through the fields of an object, other than a missing field.
`other` looks at the value of an unknown field. -/
def firstProblem (other : Source → Option Fault) (known : List (String × Option DecodeError)) :
    (seen : List String) → Fields → Option DecodeError
  | _, [] => none
  | _, (none, _) :: _ => some .malformed
  | seen, (some name, source) :: rest =>
    match known.find? fun field => field.1 = name with
    | some (_, problem) =>
      if name ∈ seen then some .mismatched
      else problem <|> firstProblem other known (name :: seen) rest
    | none => (other source).map Fault.toDecodeError <|> firstProblem other known seen rest

/-- Reads a record out of the fields of an object and its ending. -/
def read {α : Type} (record : Record α) (other : Source → Option Fault) (depth : Nat)
    (fields : Fields) (ending : Option Fault) : Decoded α :=
  let parts := record depth fields
  match firstProblem other parts.known [] fields <|> ending.map Fault.toDecodeError with
  | some problem => .error problem
  | none => parts.value

/-- Reads a record out of an object, or out of an array that holds its fields in order. -/
def decode {α : Type} (record : Record α) : Decoder α
  | 0, .object .. => .error .malformed
  | depth + 1, .object fields ending => record.read Source.faultOfForm depth fields ending
  | 0, .array .. => .error .malformed
  | depth + 1, .array sources ending =>
    let names := (record depth []).known.map Prod.fst
    let fields : Fields := (names.map some).zip sources
    let rest := if sources.length ≤ names.length then none else some .malformed
    record.read Source.faultOfForm depth fields (ending <|> rest)
  | _, source => mismatch source

end Record

/-! ### Records with a tag

Some objects hold, beside fields of their own, the fields of one of several variants, and a tag
that says which. Such an object is read as a whole before its variant is looked at. -/

/-- The one value of a name among fields; `none` if there is none. -/
def uniqueField (name : String) (fields : Fields) : Decoded (Option Source) :=
  match fields.filter fun field => field.1 = some name with
  | [] => .ok none
  | [(_, source)] => .ok (some source)
  | _ => .error .mismatched

/-- The variant that a tag selects: by its name, or by its place among all variants. -/
def selectVariant {α : Type} (variants : List (String × α)) (tag : Option Source) : Decoded α :=
  match tag with
  | some (.string name) => match variants.find? fun variant => variant.1 = name with
    | some variant => .ok variant.2
    | none => .error .mismatched
  | some (.integer place) =>
    if place < 0 then .error .mismatched
    else match variants[place.toNat]? with
      | some variant => .ok variant.2
      | none => .error .mismatched
  | _ => .error .mismatched

/-- Reads an object with fields of its own and those of something else; `rest` is given the fields
that are not its own. -/
def decodeWithRest {α β : Type} (own : Record (α → β)) (rest : (depth : Nat) → Fields → Decoded α) :
    Decoder β
  | 0, .object .. => .error .malformed
  | depth + 1, .object fields ending => do
    let names := (own depth []).known.map Prod.fst
    let make ← own.read (Source.faultOfContent depth) depth fields ending
    let others := fields.filter fun field => !(field.1.any fun name => name ∈ names)
    return make (← rest depth others)
  | _, source => mismatch source

def Document.decode {α : Type} (decoder : Decoder α) (depth : Nat) (root : Source)
    (trailing : Option Fault) : Decoded α := do
  let value ← decoder depth root
  match trailing with
  | some fault => .error fault.toDecodeError
  | none => .ok value

/-- Reads a value out of a document without limit to its depth. -/
def decodeSource {α : Type} (decoder : Decoder α) (source : Source) : Decoded α :=
  decoder source.depth source

end TestEngine.Json
