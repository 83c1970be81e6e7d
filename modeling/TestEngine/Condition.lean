import TestEngine.Property.Literal

/-!
# Conditions

A condition compares a property with a literal. A null property counts as an absent one. The four
ordering operators compare numbers; a date compares by its milliseconds and a list by its length.
-/

namespace TestEngine

open Text Calendar

/-- The operators of a condition. -/
inductive Operator where
  | equals | notEquals | gt | gte | lt | lte | isTrue | isFalse | isNull | notNull
  | isEmpty | notEmpty
  deriving DecidableEq

namespace Operator

def all : List Operator :=
  [.equals, .notEquals, .gt, .gte, .lt, .lte, .isTrue, .isFalse, .isNull, .notNull, .isEmpty,
    .notEmpty]

def name : Operator → String
  | equals => "EQUALS"
  | notEquals => "NOT_EQUALS"
  | gt => "GT"
  | gte => "GTE"
  | lt => "LT"
  | lte => "LTE"
  | isTrue => "TRUE"
  | isFalse => "FALSE"
  | isNull => "IS_NULL"
  | notNull => "NOT_NULL"
  | isEmpty => "IS_EMPTY"
  | notEmpty => "NOT_EMPTY"

def title : Operator → String
  | equals => "Equals"
  | notEquals => "NotEquals"
  | gt => "Gt"
  | gte => "Gte"
  | lt => "Lt"
  | lte => "Lte"
  | isTrue => "True"
  | isFalse => "False"
  | isNull => "IsNull"
  | notNull => "NotNull"
  | isEmpty => "IsEmpty"
  | notEmpty => "NotEmpty"

def ofName? (name : String) : Option Operator := all.find? fun operator => operator.name = name

theorem ofName?_name (operator : Operator) : ofName? operator.name = some operator := by
  cases operator <;> rfl

end Operator

/-- Why a condition has no truth value. -/
inductive ConditionError where
  | unsupported (operator : Operator) (kind : PropertyKind)
  /-- The literal denotes nothing that the property could be compared with. -/
  | unparsable (literal : String) (kind : PropertyKind)
  deriving DecidableEq

def ConditionError.message : ConditionError → String
  | .unsupported operator kind =>
    "Operator " ++ operator.title ++ " is not supported for " ++ kind.title ++ " properties"
  | .unparsable literal kind =>
    "'" ++ literal ++ "' cannot be compared with a " ++ kind.title ++ " property"

namespace Condition

/-- The number that a date is compared with: milliseconds, or else a date literal. -/
def readMillis? (cs : List Char) : Option Int :=
  match readInt64? cs with
  | some millis => some millis.toInt
  | none => (readDateLiteral? cs).map Instant.epochMillis

def compareWith (operator : Operator) (value : Value) (literal : String) :
    Except ConditionError Ordering :=
  let trimmed := trim literal.toList
  let against (left : Int) (right : Option Int) : Except ConditionError Ordering :=
    match right with
    | some right => .ok (compare left right)
    | none => .error (.unparsable literal value.kind)
  match value with
  | .integer (some n) => against n.toInt ((readInt64? trimmed).map Int64.toInt)
  | .long (some n) => against n.toInt ((readInt64? trimmed).map Int64.toInt)
  | .list items => against items.length ((readInt64? trimmed).map Int64.toInt)
  | .date (some instant) => against instant.epochMillis (readMillis? trimmed)
  | .double (some d) =>
    match (Double.read? trimmed).bind d.compare? with
    | some ordering => .ok ordering
    | none => .error (.unparsable literal value.kind)
  | _ => .error (.unsupported operator value.kind)

def equalsLiteral (value : Value) (literal : String) : Except ConditionError Bool :=
  match value with
  | .boolean (some b) =>
    match readBoolean? (trim literal.toList) with
    | some expected => .ok (b == expected)
    | none => .error (.unparsable literal value.kind)
  | .integer _ | .long _ | .double _ | .date _ | .list _ =>
    (compareWith .equals value literal).map fun ordering => ordering == .eq
  | _ => .ok (value.text? == some literal)

/-- Whether an operand equals a literal; two absent ones are equal. -/
def equals (operand : Option Value) (literal : Option String) : Except ConditionError Bool :=
  match operand, literal with
  | none, none => .ok true
  | some value, some literal => equalsLiteral value literal
  | _, _ => .ok false

/-- Whether an operand stands in an order to a literal; `bothAbsent` says so of two absent ones. -/
def ordered (operand : Option Value) (literal : Option String) (bothAbsent : Bool)
    (operator : Operator) (accept : Ordering → Bool) : Except ConditionError Bool :=
  match operand, literal with
  | none, none => .ok bothAbsent
  | some value, some literal => (compareWith operator value literal).map accept
  | _, _ => .ok false

def isBoolean (value : Option Value) (operator : Operator) (expected : Bool) :
    Except ConditionError Bool :=
  match value with
  | none => .ok false
  | some (.boolean b) => .ok (b == some expected)
  | some value => .error (.unsupported operator value.kind)

/-- Whether an operand is absent, a list without items or an empty text. -/
def isEmpty : Option Value → Bool
  | none => true
  | some (.list items) => items.isEmpty
  | some value => match value.text? with
    | some text => text == ""
    | none => true

def evaluate (property : Option Property) (operator : Operator) (literal : Option String) :
    Except ConditionError Bool :=
  let value := property.map Property.value
  let operand := value.filter fun value => !value.isNull
  match operator with
  | .equals => equals operand literal
  | .notEquals => (equals operand literal).map fun holds => !holds
  | .gt => ordered operand literal false operator Ordering.isGT
  | .gte => ordered operand literal true operator Ordering.isGE
  | .lt => ordered operand literal false operator Ordering.isLT
  | .lte => ordered operand literal true operator Ordering.isLE
  | .isTrue => isBoolean value operator true
  | .isFalse => isBoolean value operator false
  | .isNull => .ok operand.isNone
  | .notNull => .ok operand.isSome
  | .isEmpty => .ok (isEmpty operand)
  | .notEmpty => .ok (!isEmpty operand)

end Condition

end TestEngine
