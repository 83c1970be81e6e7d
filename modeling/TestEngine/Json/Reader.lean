import TestEngine.Json.Decode
import TestEngine.Text.Numeral

/-!
# Reading JSON texts

`Source.ofText` reads a whole text. A number with a fraction, an exponent or too many digits is
read in two roundings: its first digits, as many as fit into 64 bits, to a double, and then one
multiplication or division by a power of ten. For most numbers, though not for all, that is the
nearest double.
-/

namespace TestEngine.Json

open Text

/-- How many arrays and objects of a text may lie in each other. -/
def depthLimit : Nat := 127

def isSpace (c : Char) : Bool := c == ' ' || c == '\n' || c == '\t' || c == '\r'

def skipSpace (cs : List Char) : List Char := cs.dropWhile isSpace

/-! ### Numbers -/

/-- The first digits of a number with their scale: `value * 10 ^ exponent`. -/
structure Leading where
  value : Nat
  exponent : Int
  full : Bool

/-- The largest value that leading digits can have. -/
def leadingLimit : Nat := UInt64.size - 1

def Leading.addWhole (leading : Leading) (c : Char) : Leading :=
  let value := 10 * leading.value + digitValue c
  if leading.full ∨ leadingLimit < value then ⟨leading.value, leading.exponent + 1, true⟩
  else ⟨value, leading.exponent, false⟩

/-- Takes in the digits after the point, up to the first one that does not fit. -/
def Leading.addFraction (leading : Leading) : List Char → Leading
  | [] => leading
  | c :: rest =>
    let value := 10 * leading.value + digitValue c
    if leadingLimit < value then leading
    else Leading.addFraction ⟨value, leading.exponent - 1, leading.full⟩ rest

/-- The units of the double nearest to a power of ten. -/
def unitsOfPower (exponent : Nat) : Nat := Double.roundUnits (Nat.pow 10 exponent * unitsPerOne) 1

/-- Scales a number of units by a power of ten. Powers beyond those of a double are divided off in
steps; `none` if the result is too large. -/
def scaleUnits (units : Nat) (exponent : Int) : (steps : Nat) → Option Nat
  | 0 => some 0
  | steps + 1 =>
    if 308 < exponent then if units = 0 then some 0 else none
    else if 0 ≤ exponent then
      let scaled := Double.roundUnits (units * unitsOfPower exponent.toNat) unitsPerOne
      if scaled < unitsLimit then some scaled else none
    else if -308 ≤ exponent then
      some (Double.roundUnits (units * unitsPerOne) (unitsOfPower (-exponent).toNat))
    else
      scaleUnits (Double.roundUnits (units * unitsPerOne) (unitsOfPower 308)) (exponent + 308) steps

/-- The double of leading digits with an exponent. -/
def doubleOf (negative : Bool) (leading : Leading) (exponent : Int) : Source :=
  let units := Double.roundUnits (leading.value * unitsPerOne) 1
  match scaleUnits units (leading.exponent + exponent) 5 with
  | some units => .double (Double.ofUnits negative units)
  | none => .unreadable

/-- The number of leading digits without a fraction and an exponent. -/
def integerOf (negative : Bool) (leading : Leading) : Source :=
  if leading.full then doubleOf negative leading 0
  else if negative then
    let value := -(leading.value : Int)
    if value = 0 ∨ value < Int64.minValue.toInt then doubleOf negative leading 0
    else .integer value
  else .integer leading.value

/-- Cuts the text off at a place where something else was expected. -/
def cutAt : List Char → Source
  | [] => .cut .truncated
  | _ => .cut .malformed

def readExponent (negative : Bool) (leading : Leading) (cs : List Char) : Source × List Char :=
  let signed (sign : Int) (cs : List Char) : Source × List Char :=
    let digits := cs.takeWhile isDigit
    if digits = [] then (cutAt cs, [])
    else (doubleOf negative leading (sign * valueOfDigits digits), cs.dropWhile isDigit)
  match cs with
  | '+' :: rest => signed 1 rest
  | '-' :: rest => signed (-1) rest
  | _ => signed 1 cs

/-- Reads what follows the digits before the point. -/
def readFraction (negative : Bool) (leading : Leading) (cs : List Char) : Source × List Char :=
  match cs with
  | '.' :: rest =>
    let digits := rest.takeWhile isDigit
    if digits = [] then (cutAt rest, [])
    else
      let leading := leading.addFraction digits
      match rest.dropWhile isDigit with
      | 'e' :: rest | 'E' :: rest => readExponent negative leading rest
      | rest => (doubleOf negative leading 0, rest)
  | 'e' :: rest | 'E' :: rest => readExponent negative leading rest
  | rest => (integerOf negative leading, rest)

/-- Reads a number without its sign. A zero in front stands alone. -/
def readNumber (negative : Bool) (cs : List Char) : Source × List Char :=
  match cs with
  | '0' :: rest =>
    if (rest.head?.map isDigit).getD false then (.cut .malformed, [])
    else readFraction negative ⟨0, 0, false⟩ rest
  | _ =>
    let digits := cs.takeWhile isDigit
    if digits = [] then (cutAt cs, [])
    else
      readFraction negative (digits.foldl Leading.addWhole ⟨0, 0, false⟩) (cs.dropWhile isDigit)

/-! ### Strings -/

/-- Reads four hexadecimal digits. -/
def readHex (cs : List Char) : Except Fault (Nat × List Char) :=
  match cs with
  | a :: b :: c :: d :: rest =>
    match hexValue? a, hexValue? b, hexValue? c, hexValue? d with
    | some a, some b, some c, some d => .ok (((a * 16 + b) * 16 + c) * 16 + d, rest)
    | _, _, _, _ => .error .malformed
  | _ => .error .truncated

def escaped? : Char → Option Char
  | '"' => some '"'
  | '\\' => some '\\'
  | '/' => some '/'
  | 'b' => some '\x08'
  | 'f' => some '\x0c'
  | 'n' => some '\n'
  | 'r' => some '\r'
  | 't' => some '\t'
  | _ => none

/-- What a string was found to be: its characters in reverse, `none` once a part of it has no
value. -/
abbrev Collected := Option (List Char)

/-- Reads a string after its opening quote, up to and with the closing one. -/
def readString : (fuel : Nat) → List Char → Collected → Except Fault (Option String × List Char)
  | 0, _, _ => .error .truncated
  | fuel + 1, cs, found =>
    match cs with
    | [] => .error .truncated
    | '"' :: rest => .ok (found.map fun cs => String.ofList cs.reverse, rest)
    | '\\' :: 'u' :: rest =>
      match readHex rest with
      | .error fault => .error fault
      | .ok (code, rest) =>
        if 0xDC00 ≤ code ∧ code ≤ 0xDFFF then readString fuel rest none
        else if 0xD800 ≤ code ∧ code ≤ 0xDBFF then
          match rest with
          | '\\' :: 'u' :: low =>
            match readHex low with
            | .error fault => .error fault
            | .ok (lowCode, low) =>
              if 0xDC00 ≤ lowCode ∧ lowCode ≤ 0xDFFF then
                let c := Char.ofNat (0x10000 + (code - 0xD800) * 0x400 + (lowCode - 0xDC00))
                readString fuel low (found.map (c :: ·))
              else readString fuel rest none
          | _ => readString fuel rest none
        else readString fuel rest (found.map (Char.ofNat code :: ·))
    | '\\' :: c :: rest =>
      match escaped? c with
      | some c => readString fuel rest (found.map (c :: ·))
      | none => .error .malformed
    | ['\\'] => .error .truncated
    | c :: rest => if c.toNat < 0x20 then .error .malformed
      else readString fuel rest (found.map (c :: ·))

/-! ### Values -/

def readWord (word : List Char) (value : Source) (cs : List Char) : Source × List Char :=
  match word, cs with
  | [], cs => (value, cs)
  | _ :: _, [] => (.cut .truncated, [])
  | expected :: word, c :: rest =>
    if c = expected then readWord word value rest else (.cut .malformed, [])

mutual

/-- Reads a value. Every step takes at least one character, so the length of the text bounds their
number. -/
def readValue : (fuel : Nat) → List Char → Source × List Char
  | 0, _ => (.cut .truncated, [])
  | fuel + 1, cs =>
    match skipSpace cs with
    | [] => (.cut .truncated, [])
    | 'n' :: rest => readWord "ull".toList .null rest
    | 't' :: rest => readWord "rue".toList (.bool true) rest
    | 'f' :: rest => readWord "alse".toList (.bool false) rest
    | '"' :: rest =>
      match readString rest.length.succ rest (some []) with
      | .ok (some text, rest) => (.string text, rest)
      | .ok (none, rest) => (.unreadable, rest)
      | .error fault => (.cut fault, [])
    | '-' :: rest => readNumber true rest
    | '[' :: rest =>
      match skipSpace rest with
      | ']' :: rest => (.array [] none, rest)
      | [] => (.array [] (some .truncated), [])
      | rest =>
        let (items, ending, rest) := readItems fuel rest
        (.array items ending, rest)
    | '{' :: rest =>
      match skipSpace rest with
      | '}' :: rest => (.object [] none, rest)
      | [] => (.object [] (some .truncated), [])
      | rest =>
        let (fields, ending, rest) := readFields fuel rest
        (.object fields ending, rest)
    | c :: rest => if isDigit c then readNumber false (c :: rest) else (.cut .malformed, [])

/-- Reads the items of an array from the first one on, and its closing bracket. -/
def readItems : (fuel : Nat) → List Char → List Source × Option Fault × List Char
  | 0, _ => ([], some .truncated, [])
  | fuel + 1, cs =>
    let (item, rest) := readValue fuel cs
    if item.faultOfForm.isSome then ([item], none, [])
    else
      match skipSpace rest with
      | ']' :: rest => ([item], none, rest)
      | [] => ([item], some .truncated, [])
      | ',' :: rest =>
        match skipSpace rest with
        | ']' :: _ => ([item], some .malformed, [])
        | [] => ([item], some .truncated, [])
        | rest =>
          let (items, ending, rest) := readItems fuel rest
          (item :: items, ending, rest)
      | _ => ([item], some .malformed, [])

/-- Reads the fields of an object from the first name on, and its closing brace. -/
def readFields : (fuel : Nat) → List Char → List (Option String × Source) × Option Fault × List Char
  | 0, _ => ([], some .truncated, [])
  | fuel + 1, cs =>
    match cs with
    | '"' :: rest =>
      match readString rest.length.succ rest (some []) with
      | .error fault => ([], some fault, [])
      | .ok (name, rest) =>
        match skipSpace rest with
        | ':' :: rest =>
          let (value, rest) := readValue fuel rest
          if value.faultOfForm.isSome then ([(name, value)], none, [])
          else
            match skipSpace rest with
            | '}' :: rest => ([(name, value)], none, rest)
            | [] => ([(name, value)], some .truncated, [])
            | ',' :: rest =>
              match skipSpace rest with
              | [] => ([(name, value)], some .truncated, [])
              | rest =>
                let (fields, ending, rest) := readFields fuel rest
                ((name, value) :: fields, ending, rest)
            | _ => ([(name, value)], some .malformed, [])
        | [] => ([(name, .cut .truncated)], none, [])
        | _ => ([(name, .cut .malformed)], none, [])
    | _ => ([], some .malformed, [])

end

/-- A document and the fault, if any, that follows its end. -/
structure Document where
  root : Source
  trailing : Option Fault

/-- Reads a whole text; only white space may follow the value. -/
def Document.ofText (text : String) : Document :=
  let cs := text.toList
  let (root, rest) := readValue (2 * cs.length + 2) cs
  if root.faultOfForm.isSome then ⟨root, none⟩
  else if skipSpace rest = [] then ⟨root, none⟩
  else ⟨root, some .malformed⟩

def decodeText {α : Type} (decoder : Decoder α) (text : String) : Decoded α :=
  let document := Document.ofText text
  Document.decode decoder depthLimit document.root document.trailing

def parse? (text : String) : Option Json :=
  let document := Document.ofText text
  match document.root.faultOfContent depthLimit <|> document.trailing with
  | some _ => none
  | none => some document.root.toJson

end TestEngine.Json
