import TestEngine.Json.Basic
import TestEngine.NameMap
import TestEngine.Text.Lowercase
import TestEngine.Text.Numeral
import TestEngine.Text.Reader

/-!
# Layers of settings

Settings come from several sources, each of which gives a `Layer`: values for some names. Layers are
laid over each other, the later one counting, but tables are merged. The name of an entry can be a
path into tables and arrays, such as `engine_settings.web.tabs[0]`; a name that is no path stands
for itself. Case does not matter in the names of tables, which are kept in lower case.
-/

namespace TestEngine.Settings

open Text

inductive Step where
  | field (name : String)
  /-- The item at a place, a negative one counted from the end. -/
  | item (place : Int)
  deriving DecidableEq

/-- A way from a table to a place below it. -/
structure Path where
  first : String
  rest : List Step
  deriving DecidableEq

abbrev Layer := List (String × Json)

/-! ### Paths -/

def isNameChar (c : Char) : Bool := c.isAlphanum || c == ' ' || c == '_' || c == '-'

def pathName : Reader String := return String.ofList (← Reader.takeSome isNameChar)

/-- Takes a step: a point and a name, or the place of an item in brackets. -/
def pathStep : Reader Step := do
  match ← Reader.oneOf ['.', '['] with
  | '.' => return .field (← pathName)
  | _ =>
    let _ ← Reader.takeWhile (· == ' ')
    let sign ← Reader.maybe (Reader.char '-')
    let digits ← Reader.takeSome isDigit
    let _ ← Reader.takeWhile (· == ' ')
    Reader.char ']'
    let place := valueOfDigits digits
    return .item (if sign.isSome then -(place : Int) else place)

def pathSteps : (fuel : Nat) → Reader (List Step)
  | 0 => return []
  | fuel + 1 => do
    if (← Reader.peek).isNone then return []
    else return (← pathStep) :: (← pathSteps fuel)

/-- The path that a name is; a name of another form is a path to itself. -/
def Path.ofName (name : String) : Path :=
  let path : Reader Path := return ⟨← pathName, ← pathSteps name.length⟩
  (path.readAll? name.toList).getD ⟨name, []⟩

/-! ### Laying values over each other -/

/-- The fields of a value; what is not a table has none. -/
def fieldsOf : Json → List (String × Json)
  | .object fields => fields
  | _ => []

/-- The items of a value; what is not an array has none. -/
def itemsOf : Json → List Json
  | .array items => items
  | _ => []

/-- The value with another one in a field; what is not a table becomes one. -/
def withField (value : Json) (name : String) (inner : Json) : Json :=
  .object (NameMap.replace name inner (fieldsOf value))

mutual

/-- What a place holds once a value is laid over what it held. -/
def overlay (below : Option Json) : Json → Json
  | .object fields => overlayFields (below.getD (.object [])) fields
  | value => value

def overlayFields (below : Json) : List (String × Json) → Json
  | [] => below
  | (name, value) :: rest =>
    let name := lowercase name
    overlayFields (withField below name (overlay (below.get? name) value)) rest

end

/-- The value with another one at a place of its items; there are nulls in between if it had fewer
items. -/
def withItem (value : Json) (place : Nat) (inner : Json) : Json :=
  let items := itemsOf value
  .array ((items ++ List.replicate (place + 1 - items.length) Json.null).set place inner)

/-- The place of an item counted from the front. -/
def placeIn (value : Json) (place : Int) : Nat :=
  if 0 ≤ place then place.toNat else (itemsOf value).length - place.natAbs

def putAt (value : Json) : (step : Step) → List Step → Json → Json
  | .field name, [], below =>
    let name := lowercase name
    withField below name (overlay (below.get? name) value)
  | .field name, next :: rest, below =>
    let name := lowercase name
    withField below name (putAt value next rest ((below.get? name).getD .null))
  | .item place, [], below => withItem below (placeIn below place) value
  | .item place, next :: rest, below =>
    let place := placeIn below place
    withItem below place (putAt value next rest ((itemsOf below)[place]?.getD .null))

def Layer.putEntry (below : Json) (entry : String × Json) : Json :=
  let path := Path.ofName entry.1
  putAt entry.2 (.field path.first) path.rest below

def Layer.over (layer : Layer) (below : Json) : Json := layer.foldl Layer.putEntry below

end TestEngine.Settings
