import TestEngine.Double.Text
import TestEngine.Json.Basic

/-!
# Writing JSON texts

`Json.compact` writes a value on one line without blanks, `Json.pretty` with one field or item on a
line, indented by two blanks. A double is written so that it reads as a double again: with a point,
or with an exponent where the positional form would be long.
-/

namespace TestEngine.Json

open Text

/-- The four hexadecimal digits of a small number. -/
def fourHexDigits (n : Nat) : List Char :=
  let digits := Nat.toDigits 16 n
  List.replicate (4 - digits.length) '0' ++ digits

def stringChar (c : Char) : List Char :=
  if c = '"' then ['\\', '"']
  else if c = '\\' then ['\\', '\\']
  else if c = '\n' then ['\\', 'n']
  else if c = '\r' then ['\\', 'r']
  else if c = '\t' then ['\\', 't']
  else if c.toNat = 8 then ['\\', 'b']
  else if c.toNat = 12 then ['\\', 'f']
  else if c.toNat < 0x20 then '\\' :: 'u' :: fourHexDigits c.toNat
  else [c]

def stringText (text : String) : String :=
  String.ofList ('"' :: text.toList.flatMap stringChar ++ ['"'])

/-- The digits of a double with the place of its point: positional from `0.00001` to below
`10 ^ 16`, else with an exponent. -/
def doubleDigits (digits : List Char) (exponent : Int) : List Char :=
  let point := exponent + digits.length
  if 0 ≤ exponent ∧ point ≤ 16 then
    digits ++ List.replicate exponent.toNat '0' ++ ['.', '0']
  else if 0 < point ∧ point ≤ 16 then
    digits.take point.toNat ++ '.' :: digits.drop point.toNat
  else if -5 < point ∧ point ≤ 0 then
    ['0', '.'] ++ List.replicate (-point).toNat '0' ++ digits
  else
    let power := 'e' :: (integerText (point - 1)).toList
    if digits.length = 1 then digits ++ power
    else digits.take 1 ++ '.' :: digits.drop 1 ++ power

/-- The text of a double, with an even last digit where two texts are equally near; what is not
finite has none and becomes null. -/
def doubleText : Double → String
  | .finite negative units _ =>
    let digits :=
      if units = 0 then ['0', '.', '0']
      else
        let d := Double.shortest .even units
        doubleDigits (digitsOf d.digits) d.exponent
    String.ofList (if negative then '-' :: digits else digits)
  | _ => "null"

mutual

def compact : Json → String
  | null => "null"
  | bool value => if value then "true" else "false"
  | integer value => integerText value
  | double value => doubleText value
  | string value => stringText value
  | array items => "[" ++ ",".intercalate (compactItems items) ++ "]"
  | object fields => "\x7b" ++ ",".intercalate (compactFields fields) ++ "\x7d"

def compactItems : List Json → List String
  | [] => []
  | item :: rest => item.compact :: compactItems rest

def compactFields : List (String × Json) → List String
  | [] => []
  | (name, value) :: rest => (stringText name ++ ":" ++ value.compact) :: compactFields rest

end

def newline (indent : Nat) : String := "\n" ++ String.ofList (List.replicate (2 * indent) ' ')

mutual

/-- The text of a value with line breaks, at an indentation. -/
def prettyAt (indent : Nat) : Json → String
  | array [] => "[]"
  | object [] => "\x7b\x7d"
  | array (item :: items) =>
    "[" ++ newline (indent + 1) ++
      ("," ++ newline (indent + 1)).intercalate (prettyItems (indent + 1) (item :: items)) ++
      newline indent ++ "]"
  | object (field :: fields) =>
    "\x7b" ++ newline (indent + 1) ++
      ("," ++ newline (indent + 1)).intercalate (prettyFields (indent + 1) (field :: fields)) ++
      newline indent ++ "\x7d"
  | value => value.compact

def prettyItems (indent : Nat) : List Json → List String
  | [] => []
  | item :: rest => item.prettyAt indent :: prettyItems indent rest

def prettyFields (indent : Nat) : List (String × Json) → List String
  | [] => []
  | (name, value) :: rest =>
    (stringText name ++ ": " ++ value.prettyAt indent) :: prettyFields indent rest

end

def pretty (value : Json) : String := value.prettyAt 0

def insertField (name : String) (value : Json) : List (String × Json) → List (String × Json)
  | [] => [(name, value)]
  | (key, old) :: rest =>
    if name < key then (name, value) :: (key, old) :: rest
    else (key, old) :: insertField name value rest

mutual

/-- The value with the fields of all its objects sorted by name. -/
def sortFields : Json → Json
  | array items => array (sortItems items)
  | object fields => object (sortedFields fields)
  | value => value

/-- The items with the fields of all their objects sorted by name. -/
def sortItems : List Json → List Json
  | [] => []
  | item :: rest => item.sortFields :: sortItems rest

def sortedFields : List (String × Json) → List (String × Json)
  | [] => []
  | (name, value) :: rest => insertField name value.sortFields (sortedFields rest)

end

end TestEngine.Json
