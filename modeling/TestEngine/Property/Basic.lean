import TestEngine.Calendar.Instant
import TestEngine.Double.Basic

/-!
# Properties

A property is a named, typed cell of data. Its value is null or of the cell's kind, and it may
instead name another property that it takes its value from when it is used.
-/

namespace TestEngine

open Calendar

inductive PropertyKind where
  | boolean | string | integer | long | double | date | xml | xpath | file | sql | list
  deriving DecidableEq

namespace PropertyKind

def all : List PropertyKind :=
  [.boolean, .string, .integer, .long, .double, .date, .xml, .xpath, .file, .sql, .list]

def name : PropertyKind → String
  | boolean => "BOOLEAN"
  | string => "STRING"
  | integer => "INTEGER"
  | long => "LONG"
  | double => "DOUBLE"
  | date => "DATE"
  | xml => "XML"
  | xpath => "XPATH"
  | file => "FILE"
  | sql => "SQL"
  | list => "LIST"

def title : PropertyKind → String
  | boolean => "Boolean"
  | string => "String"
  | integer => "Integer"
  | long => "Long"
  | double => "Double"
  | date => "Date"
  | xml => "Xml"
  | xpath => "Xpath"
  | file => "File"
  | sql => "Sql"
  | list => "List"

def ofName? (name : String) : Option PropertyKind := all.find? fun kind => kind.name = name

theorem ofName?_name (kind : PropertyKind) : ofName? kind.name = some kind := by
  cases kind <;> rfl

end PropertyKind

mutual

/-- The value of a property, `none` where the cell is null. A list is never null. -/
inductive Value where
  | boolean (value : Option Bool)
  | string (value : Option String)
  | integer (value : Option Int32)
  | long (value : Option Int64)
  | double (value : Option Double)
  | date (value : Option Instant)
  | xml (value : Option String)
  | xpath (value : Option String)
  | file (value : Option String)
  | sql (value : Option String)
  | list (items : List Property)

structure Property where
  name : String
  /-- The property to take the value from at use, if it is another one. -/
  reference : Option String
  value : Value

end

namespace Value

def kind : Value → PropertyKind
  | boolean _ => .boolean
  | string _ => .string
  | integer _ => .integer
  | long _ => .long
  | double _ => .double
  | date _ => .date
  | xml _ => .xml
  | xpath _ => .xpath
  | file _ => .file
  | sql _ => .sql
  | list _ => .list

/-- The null value of a kind; for a list, the empty one. -/
def null : PropertyKind → Value
  | .boolean => .boolean none
  | .string => .string none
  | .integer => .integer none
  | .long => .long none
  | .double => .double none
  | .date => .date none
  | .xml => .xml none
  | .xpath => .xpath none
  | .file => .file none
  | .sql => .sql none
  | .list => .list []

def isNull : Value → Bool
  | boolean value => value.isNone
  | string value | xml value | xpath value | file value | sql value => value.isNone
  | integer value => value.isNone
  | long value => value.isNone
  | double value => value.isNone
  | date value => value.isNone
  | list _ => false

@[simp]
theorem kind_null (kind : PropertyKind) : (null kind).kind = kind := by
  cases kind <;> rfl

end Value

instance : Inhabited Value := ⟨.string none⟩

instance : Inhabited Property := ⟨⟨"", none, default⟩⟩

namespace Property

def of (name : String) (value : Value) : Property := ⟨name, none, value⟩

def ofString (name text : String) : Property := of name (.string (some text))

def ofInteger (name : String) (n : Int32) : Property := of name (.integer (some n))

def ofBool (name : String) (b : Bool) : Property := of name (.boolean (some b))

/-- A property of a kind that takes its value from another one. -/
def referring (name : String) (kind : PropertyKind) (target : String) : Property :=
  ⟨name, some target, .null kind⟩

def kind (property : Property) : PropertyKind := property.value.kind

def isNull (property : Property) : Bool := property.value.isNull

def renamed (property : Property) (name : String) : Property := { property with name }

def items? (property : Property) : Option (List Property) :=
  match property.value with
  | .list items => some items
  | _ => none

def cleared (property : Property) : Property := { property with value := .null property.kind }

@[simp]
theorem name_renamed (property : Property) (name : String) : (property.renamed name).name = name :=
  rfl

@[simp]
theorem kind_cleared (property : Property) : property.cleared.kind = property.kind := by
  simp [cleared, kind]

end Property

end TestEngine
