import TestEngine.Toml.Basic

/-!
# Tables in the making

A table of a TOML document is put together from lines that lie apart: a header opens a table, a
header of a table within it implies it, a dotted key makes the tables on its way. How a table came
to be decides what may still be added to it, so that no line says again what another one said.
-/

namespace TestEngine.Toml

inductive Origin where
  | stated
  | implied
  | dotted
  deriving DecidableEq

/-- What stands under a key of a table in the making. -/
inductive Node where
  | value (value : Toml)
  | table (origin : Origin) (fields : List (String × Node))
  | series (tables : List (List (String × Node)))

abbrev Fields := List (String × Node)

namespace Fields

def replace (fields : Fields) (key : String) (node : Node) : Fields :=
  fields.map fun field => if field.1 = key then (key, node) else field

/-- Changes the table at the end of a path, given how the table that the path starts from came to
be. The path leads through the latest table of a series. On a dotted path no table with a header of
its own is entered, and tables that are missing are made by the path; on the path of a header they
are implied. -/
def alter (byKey : Bool) (change : Origin → Fields → Option Fields) :
    (path : List String) → Origin → Fields → Option Fields
  | [], origin, fields => change origin fields
  | key :: path, _, fields =>
    match fields.lookup key with
    | none => do
      let origin := if byKey then Origin.dotted else .implied
      let inner ← alter byKey change path origin []
      return fields ++ [(key, .table origin inner)]
    | some (.value _) => none
    | some (.table origin inner) =>
      if byKey ∧ origin = .stated then none
      else do
        let inner ← alter byKey change path origin inner
        return fields.replace key (.table origin inner)
    | some (.series []) => none
    | some (.series (latest :: earlier)) => do
      let latest ← alter byKey change path .stated latest
      return fields.replace key (.series (latest :: earlier))

/-- Gives a value to a key that has none, at the end of a dotted path. The table there has to be
one that dotted keys made. -/
def assign (path : List String) (key : String) (value : Toml) (fields : Fields) : Option Fields :=
  alter true
    (fun origin fields =>
      if (path ≠ [] ∧ origin ≠ .dotted) ∨ (fields.lookup key).isSome then none
      else some (fields ++ [(key, .value value)]))
    path .stated fields

def openTable (path : List String) (key : String) (fields : Fields) : Option Fields :=
  alter false
    (fun _ fields =>
      match fields.lookup key with
      | none => some (fields ++ [(key, .table .stated [])])
      | some (.table .implied inner) => some (fields.replace key (.table .stated inner))
      | some _ => none)
    path .stated fields

def openNext (path : List String) (key : String) (fields : Fields) : Option Fields :=
  alter false
    (fun _ fields =>
      match fields.lookup key with
      | none => some (fields ++ [(key, .series [[]])])
      | some (.series tables) => some (fields.replace key (.series ([] :: tables)))
      | some _ => none)
    path .stated fields

/-- Gives a value to a key in the table that the last header opened. -/
def assignIn (header path : List String) (key : String) (value : Toml) (fields : Fields) :
    Option Fields :=
  alter false (fun _ fields => fields.assign path key value) header .stated fields

end Fields

mutual

def Node.toToml : Node → Toml
  | .value value => value
  | .table _ fields => .table (Fields.toToml fields)
  | .series tables => .array (Fields.listToToml tables).reverse

def Fields.toToml : List (String × Node) → List (String × Toml)
  | [] => []
  | (key, node) :: rest => (key, node.toToml) :: Fields.toToml rest

def Fields.listToToml : List (List (String × Node)) → List Toml
  | [] => []
  | fields :: rest => .table (Fields.toToml fields) :: Fields.listToToml rest

end

end TestEngine.Toml
