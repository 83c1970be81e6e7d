import TestEngine.Calendar.Instant
import TestEngine.Double.Text
import TestEngine.Text.Reader
import TestEngine.Toml.Basic

/-!
# Scalars of TOML

Texts in one or three quotes, with or without escapes; integers in four bases and floats, with an
underscore between two digits where the author wants one; dates and times. A float that is too
large is refused, unless it is negative.
-/

namespace TestEngine.Toml

open Text Calendar

def isSpace (c : Char) : Bool := c == ' ' || c == '\t'

/-- Characters that can stand in a text or a comment as they are: no control characters but the
tab. -/
def isPlain (c : Char) : Bool := c == '\t' || (0x20 ≤ c.toNat && c.toNat ≠ 0x7F)

def lineBreak : Reader Unit := Reader.word ['\n'] <|> Reader.word ['\r', '\n']

/-! ### Texts -/

/-- The character with a code, if the code is one of a character. -/
def charOfCode? (code : Nat) : Option Char :=
  if code < 0xD800 ∨ (0xDFFF < code ∧ code < 0x110000) then some (Char.ofNat code) else none

/-- Takes the code of a character with a number of hexadecimal digits. -/
def charCode (digits : Nat) : Reader Char := do
  let digits ← Reader.takeExactly (fun c => (hexValue? c).isSome) digits
  let code := digits.foldl (fun code c => 16 * code + (hexValue? c).getD 0) 0
  match charOfCode? code with
  | some c => return c
  | none => failure

def escape : Reader Char := do
  match ← Reader.next with
  | 'b' => return '\x08'
  | 't' => return '\t'
  | 'n' => return '\n'
  | 'f' => return '\x0c'
  | 'r' => return '\r'
  | '"' => return '"'
  | '\\' => return '\\'
  | 'u' => charCode 4
  | 'U' => charCode 8
  | _ => failure

def quotedRest : (fuel : Nat) → Reader (List Char)
  | 0 => failure
  | fuel + 1 => do
    match ← Reader.next with
    | '"' => return []
    | '\\' => return (← escape) :: (← quotedRest fuel)
    | c => if isPlain c then return c :: (← quotedRest fuel) else failure

/-- Takes the rest of a text in single quotes, which has no escapes. -/
def literalRest : Reader (List Char) := do
  let cs ← Reader.takeWhile fun c => isPlain c && c != '\''
  Reader.char '\''
  return cs

/-- Takes three quotes that end a text, and up to two before them that belong to it. -/
def closingQuotes (quote : Char) : Reader (List Char) := do
  Reader.word [quote, quote, quote]
  let extra := ((← get).takeWhile (· == quote)).take 2
  Reader.word extra
  return extra

/-- Takes a line break that a backslash takes out of a text, with the blanks around it. -/
def joint : Reader Unit := do
  let _ ← Reader.takeWhile isSpace
  lineBreak
  let _ ← Reader.takeWhile fun c => isSpace c || c == '\n'
  return ()

/-- Takes the rest of a text in three quotes. A line break of two characters counts as one. -/
def longRest (quote : Char) (escapes : Bool) : (fuel : Nat) → Reader (List Char)
  | 0 => failure
  | fuel + 1 => closingQuotes quote <|> do
    match ← Reader.maybe lineBreak with
    | some _ => return '\n' :: (← longRest quote escapes fuel)
    | none =>
      let c ← Reader.next
      if c = '\\' ∧ escapes then
        match ← Reader.maybe joint with
        | some _ => longRest quote escapes fuel
        | none => return (← escape) :: (← longRest quote escapes fuel)
      else if isPlain c then return c :: (← longRest quote escapes fuel)
      else failure

def lineText : Reader String := do
  let quote ← Reader.next
  let fuel := (← get).length
  match quote with
  | '"' => return String.ofList (← quotedRest fuel)
  | '\'' => return String.ofList (← literalRest)
  | _ => failure

/-- Takes a text over several lines. A line break right after its opening does not count. -/
def longText : Reader String := do
  let quote ← Reader.oneOf ['"', '\'']
  Reader.word [quote, quote]
  let _ ← Reader.maybe lineBreak
  return String.ofList (← longRest quote (quote = '"') ((← get).length + 1))

/-! ### Numbers -/

/-- The digits of a run in which an underscore may stand between two digits. -/
def digitsOfRun? (isDigit : Char → Bool) : List Char → Option (List Char)
  | [] => none
  | [c] => if isDigit c then some [c] else none
  | c :: '_' :: rest => if isDigit c then (digitsOfRun? isDigit rest).map (c :: ·) else none
  | c :: rest => if isDigit c then (digitsOfRun? isDigit rest).map (c :: ·) else none

/-- The digits before the point; a zero in front stands alone. -/
def wholeDigits? (cs : List Char) : Option (List Char) :=
  match digitsOfRun? isDigit cs with
  | some ('0' :: _ :: _) => none
  | digits => digits

def splitSign : List Char → Bool × List Char
  | '-' :: cs => (true, cs)
  | '+' :: cs => (false, cs)
  | cs => (false, cs)

def integer? (n : Int) : Option Toml :=
  if Int64.minValue.toInt ≤ n ∧ n ≤ Int64.maxValue.toInt then some (.integer n) else none

/-- Reads an integer in a base that its first two characters give. -/
def readBased? (base : Nat) (cs : List Char) : Option Toml := do
  let digits ← digitsOfRun? (fun c => (hexValue? c).any (· < base)) cs
  integer? (digits.foldl (fun value c => base * value + (hexValue? c).getD 0) 0 : Nat)

def readDecimal? (cs : List Char) : Option Toml := do
  let (negative, cs) := splitSign cs
  let n := valueOfDigits (← wholeDigits? cs)
  integer? (if negative then -(n : Int) else n)

def exponentDigits? (cs : List Char) : Option (List Char) := do
  let (negative, cs) := splitSign cs
  let digits ← digitsOfRun? isDigit cs
  return if negative then '-' :: digits else digits

/-- The decimal literal of a float without its sign: a point, an exponent or both follow the digits
before the point. -/
def floatLiteral? (cs : List Char) : Option (List Char) := do
  let isMark (c : Char) : Bool := c == 'e' || c == 'E'
  let significand := cs.takeWhile fun c => !isMark c
  let power := cs.dropWhile fun c => !isMark c
  let whole ← wholeDigits? (significand.takeWhile (· != '.'))
  let fraction ← match significand.dropWhile (· != '.') with
    | [] => some []
    | _ :: digits => (digitsOfRun? isDigit digits).map ('.' :: ·)
  let exponent ← match power with
    | [] => some []
    | _ :: digits => (exponentDigits? digits).map ('e' :: ·)
  if fraction = [] ∧ exponent = [] then none else some (whole ++ fraction ++ exponent)

def readFloat? (cs : List Char) : Option Toml :=
  let (negative, rest) := splitSign cs
  if rest = "inf".toList then some (.float (.infinite negative))
  else if rest = "nan".toList then some (.float .nan)
  else do
    let value ← Double.readMagnitude? negative (← floatLiteral? rest)
    if value = .infinite false then none else some (.float value)

def readNumber? (cs : List Char) : Option Toml :=
  match cs with
  | '0' :: 'x' :: rest => readBased? 16 rest
  | '0' :: 'o' :: rest => readBased? 8 rest
  | '0' :: 'b' :: rest => readBased? 2 rest
  | _ => readDecimal? cs <|> readFloat? cs

def isNumberChar (c : Char) : Bool := c.isAlphanum || c == '_' || c == '+' || c == '-' || c == '.'

def number : Reader Toml := do
  match readNumber? (← Reader.takeSome isNumberChar) with
  | some value => return value
  | none => failure

/-! ### Dates and times -/

/-- Takes two digits with a value up to a limit. -/
def twoDigits (limit : Nat) : Reader Nat := do
  let n := valueOfDigits (← Reader.takeExactly isDigit 2)
  if n ≤ limit then return n else failure

def day : Reader (List Char) := do
  let year := valueOfDigits (← Reader.takeExactly isDigit 4)
  Reader.char '-'
  let month ← twoDigits 12
  Reader.char '-'
  let day ← twoDigits 31
  if (Date.mk year month day).isValid then
    return padded 4 year ++ '-' :: padded 2 month ++ '-' :: padded 2 day
  else failure

/-- Takes a fraction of a second; digits after the ninth and zeros at the end are dropped. -/
def secondFraction : Reader (List Char) := do
  match ← get with
  | '.' :: rest =>
    set rest
    let digits ← Reader.takeSome isDigit
    let kept := ((digits.take 9).reverse.dropWhile (· == '0')).reverse
    return if kept = [] then [] else '.' :: kept
  | _ => return []

def timeOfDay : Reader (List Char) := do
  let hour ← twoDigits 23
  Reader.char ':'
  let minute ← twoDigits 59
  Reader.char ':'
  let second ← twoDigits 60
  let fraction ← secondFraction
  return padded 2 hour ++ ':' :: padded 2 minute ++ ':' :: padded 2 second ++ fraction

def utcOffset : Reader (List Char) := do
  match ← Reader.oneOf ['Z', 'z', '+', '-'] with
  | 'Z' | 'z' => return ['Z']
  | sign =>
    let hour ← twoDigits 23
    Reader.char ':'
    let minute ← twoDigits 59
    let sign := if hour = 0 ∧ minute = 0 then '+' else sign
    return sign :: padded 2 hour ++ ':' :: padded 2 minute

def timeAfterDay : Reader (List Char) := do
  let _ ← Reader.oneOf ['T', 't', ' ']
  let time ← timeOfDay
  let offset ← Reader.maybe utcOffset
  return 'T' :: time ++ offset.getD []

def dateOrTime : Reader Toml := do
  let dayAndTime : Reader (List Char) := do
    let day ← day
    let time ← Reader.maybe timeAfterDay
    return day ++ time.getD []
  return .moment (String.ofList (← dayAndTime <|> timeOfDay))

/-! ### Any scalar -/

def scalar : Reader Toml := do
  match ← Reader.peek with
  | some '"' | some '\'' => return .string (← longText <|> lineText)
  | some 't' =>
    Reader.word "true".toList
    return .boolean true
  | some 'f' =>
    Reader.word "false".toList
    return .boolean false
  | _ => dateOrTime <|> number

end TestEngine.Toml
