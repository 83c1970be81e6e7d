import TestEngine.Double.Text
import TestEngine.Property.Basic
import TestEngine.Text.Blank

/-!
# Properties and text

Every property that is not null has a text, and every property but a list can be set from a
literal. Blanks around a number, a boolean or a date do not count; the other kinds take their
literal as it stands.
-/

namespace TestEngine

open Text Calendar

mutual

/-- The text of a value, if it is not null. -/
def Value.text? : Value → Option String
  | .boolean value => value.map fun b => if b then "true" else "false"
  | .string value | .xml value | .xpath value | .file value | .sql value => value
  | .integer value => value.map fun n => integerText n.toInt
  | .long value => value.map fun n => integerText n.toInt
  | .double value => value.map Double.display
  | .date value => value.map Instant.dateLiteral
  | .list items => some ("[" ++ ", ".intercalate (Property.texts items) ++ "]")

/-- The text of a property, if it is not null. -/
def Property.text? : Property → Option String
  | ⟨_, _, value⟩ => value.text?

def Property.texts : List Property → List String
  | [] => []
  | item :: rest => item.text?.getD "null" :: Property.texts rest

end

def readBoolean? (cs : List Char) : Option Bool :=
  let word := cs.map Char.toLower
  if word = "true".toList then some true
  else if word = "false".toList then some false
  else none

/-- Why a literal cannot be assigned to a property. -/
inductive LiteralError where
  | unreadable (literal : String) (kind : PropertyKind)
  | listLiteral
  deriving DecidableEq

def LiteralError.message : LiteralError → String
  | .unreadable literal kind =>
    "'" ++ literal ++ "' " ++
      match kind with
      | .boolean => "is not a boolean"
      | .integer => "is not an integer"
      | .long => "is not a long"
      | .double => "is not a double"
      | .date => "does not match date format dd.MM.yyyy"
      | _ => "is not a text"
  | .listLiteral => "a LIST property cannot be set from a literal"

def Value.ofLiteral (kind : PropertyKind) (literal : String) : Except LiteralError Value :=
  let trimmed := trim literal.toList
  let orUnreadable {α : Type} (read : Option α) (wrap : Option α → Value) :
      Except LiteralError Value :=
    match read with
    | some value => .ok (wrap (some value))
    | none => .error (.unreadable literal kind)
  match kind with
  | .boolean => orUnreadable (readBoolean? trimmed) .boolean
  | .integer => orUnreadable (readInt32? trimmed) .integer
  | .long => orUnreadable (readInt64? trimmed) .long
  | .double => orUnreadable (Double.read? trimmed) .double
  | .date => orUnreadable (readDateLiteral? trimmed) .date
  | .string => .ok (.string (some literal))
  | .xml => .ok (.xml (some literal))
  | .xpath => .ok (.xpath (some literal))
  | .file => .ok (.file (some literal))
  | .sql => .ok (.sql (some literal))
  | .list => .error .listLiteral

/-- The property with the value that a literal denotes for its kind. -/
def Property.setLiteral (property : Property) (literal : String) : Except LiteralError Property :=
  (Value.ofLiteral property.kind literal).map fun value => { property with value }

end TestEngine
