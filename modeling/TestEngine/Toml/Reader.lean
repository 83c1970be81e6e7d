import TestEngine.Toml.Scalar
import TestEngine.Toml.Table

/-!
# Reading TOML

A document is a sequence of lines: headers, which open a table or one more table of a series, and
assignments to keys in the table opened last. `Toml.parse?` reads a document or finds that it is
none; neither arrays and tables within each other nor the parts of a key may go deeper than 79.
-/

namespace TestEngine.Toml

open Text

/-- How deep arrays and tables may lie in each other, and how many parts a key may have. -/
def nestingLimit : Nat := 79

/-! ### Keys -/

def skipSpace : Reader Unit := do
  let _ ← Reader.takeWhile isSpace
  return ()

def bareKey : Reader String := do
  let cs ← Reader.takeSome fun c => c.isAlphanum || c == '_' || c == '-'
  return String.ofList cs

def keyPart : Reader String := do
  skipSpace
  let part ← bareKey <|> lineText
  skipSpace
  return part

def moreKeyParts : (limit : Nat) → Reader (List String)
  | 0 => return []
  | limit + 1 => do
    match ← get with
    | '.' :: rest =>
      set rest
      let part ← keyPart
      return part :: (← moreKeyParts limit)
    | _ => return []

/-- A key: its last part, and the parts before it. -/
structure Key where
  path : List String
  name : String

def key : Reader Key := do
  let first ← keyPart
  let more ← moreKeyParts (nestingLimit - 1)
  let parts := first :: more
  return ⟨parts.dropLast, parts.getLast (List.cons_ne_nil first more)⟩

def assignment (value : Reader Toml) : Reader (Key × Toml) := do
  let key ← key
  Reader.char '='
  skipSpace
  return (key, ← value)

/-! ### Values -/

def comment : Reader Unit := do
  Reader.char '#'
  let _ ← Reader.takeWhile isPlain
  return ()

def skipLines : (fuel : Nat) → Reader Unit
  | 0 => return ()
  | fuel + 1 => do
    skipSpace
    match ← Reader.maybe (comment <|> lineBreak) with
    | some _ => skipLines fuel
    | none => return ()

/-- Takes the items of an array and its closing bracket; a comma may follow the last item. -/
def arrayRest (value : Reader Toml) : (fuel : Nat) → Reader (List Toml)
  | 0 => failure
  | fuel + 1 => do
    skipLines (← get).length
    if (← Reader.peek) = some ']' then
      Reader.char ']'
      return []
    let item ← value
    skipLines (← get).length
    match ← Reader.oneOf [',', ']'] with
    | ',' => return item :: (← arrayRest value fuel)
    | _ => return [item]

/-- Takes the assignments of a table on one line and its closing brace. -/
def inlineRest (value : Reader Toml) : (fuel : Nat) → Reader (List (Key × Toml))
  | 0 => failure
  | fuel + 1 => do
    let assigned ← assignment value
    skipSpace
    match ← Reader.oneOf [',', '}'] with
    | ',' => return assigned :: (← inlineRest value fuel)
    | _ => return [assigned]

def tableOfAssignments? (assignments : List (Key × Toml)) : Option Toml :=
  let start : Fields := []
  let table := assignments.foldlM
    (fun (fields : Fields) (assigned : Key × Toml) =>
      fields.assign assigned.1.path assigned.1.name assigned.2) start
  table.map fun fields => .table (Fields.toToml fields)

def inlineTable (value : Reader Toml) : Reader Toml := do
  Reader.char '{'
  skipSpace
  if (← Reader.peek) = some '}' then
    Reader.char '}'
    return .table []
  match tableOfAssignments? (← inlineRest value (← get).length) with
  | some made => return made
  | none => failure

/-- Takes a value in which arrays and tables lie in each other up to a limit. -/
def value : (limit : Nat) → Reader Toml
  | 0 => scalar
  | limit + 1 => do
    match ← Reader.peek with
    | some '[' =>
      Reader.char '['
      return .array (← arrayRest (value limit) (← get).length)
    | some '{' => inlineTable (value limit)
    | _ => scalar

/-! ### Lines -/

/-- What a line of a document says. -/
inductive Line where
  | empty
  | table (key : Key)
  | next (key : Key)
  | assign (key : Key) (value : Toml)

def lineContent : Reader Line := do
  match ← get with
  | '[' :: '[' :: rest =>
    set rest
    let key ← key
    Reader.word [']', ']']
    return .next key
  | '[' :: rest =>
    set rest
    let key ← key
    Reader.char ']'
    return .table key
  | c :: _ =>
    if c = '#' ∨ c = '\n' ∨ c = '\r' then return .empty
    else
      let (key, value) ← assignment (value nestingLimit)
      return .assign key value
  | [] => return .empty

def line : Reader Line := do
  skipSpace
  let content ← lineContent
  skipSpace
  let _ ← Reader.maybe comment
  lineBreak <|> Reader.atEnd
  return content

def lines : (fuel : Nat) → Reader (List Line)
  | 0 => Reader.atEnd *> return []
  | fuel + 1 => do
    if (← get) = [] then return []
    else return (← line) :: (← lines fuel)

/-! ### Documents -/

/-- A document in the making: its root, and the way to the table opened last. -/
structure Draft where
  header : List String
  root : Fields

def Draft.add (draft : Draft) : Line → Option Draft
  | .empty => some draft
  | .table key => do
    return ⟨key.path ++ [key.name], ← draft.root.openTable key.path key.name⟩
  | .next key => do
    return ⟨key.path ++ [key.name], ← draft.root.openNext key.path key.name⟩
  | .assign key value => do
    return { draft with root := ← draft.root.assignIn draft.header key.path key.name value }

/-- Reads a document. A byte order mark in front does not count. -/
def parse? (text : String) : Option Toml := do
  let cs := match text.toList with
    | '\uFEFF' :: rest => rest
    | cs => cs
  let lines ← (lines cs.length).readAll? cs
  let draft ← lines.foldlM Draft.add ⟨[], []⟩
  return .table (Fields.toToml draft.root)

end TestEngine.Toml
