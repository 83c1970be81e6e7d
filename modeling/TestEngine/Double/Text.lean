import TestEngine.Double.Basic
import TestEngine.Text.Numeral

/-!
# Doubles as text

`Double.read?` reads a decimal with an optional sign, point and exponent, or one of the words
`inf`, `infinity` and `nan` in any case, to the nearest double. `Double.shortest` finds the shortest
decimal that reads back as the same double, of several the one nearest to it, and of two that are
equally near the one that a `Tie` says. `Double.display` writes it in positional form.
-/

namespace TestEngine

open Text

namespace Double

/-- A decimal `digits * 10 ^ exponent`. -/
structure Decimal where
  digits : Nat
  exponent : Int
  deriving DecidableEq

/-- The number of units nearest to a decimal. -/
def Decimal.units (d : Decimal) : Nat := unitsOfDecimal d.digits d.exponent

/-! ### Reading -/

def readExponent? (cs : List Char) : Option Int := readInteger? cs

/-- Reads digits with an optional point among them; there has to be a digit. -/
def readSignificand? (cs : List Char) : Option Decimal :=
  let whole := cs.takeWhile isDigit
  match cs.dropWhile isDigit with
  | [] => if whole = [] then none else some ⟨valueOfDigits whole, 0⟩
  | '.' :: fraction =>
    if (whole = [] ∧ fraction = []) ∨ !fraction.all isDigit then none
    else some ⟨valueOfDigits (whole ++ fraction), -fraction.length⟩
  | _ => none

def readDecimal? (cs : List Char) : Option Decimal :=
  let isExponentMark : Char → Bool := fun c => c == 'e' || c == 'E'
  let significand := cs.takeWhile fun c => !isExponentMark c
  match cs.dropWhile fun c => !isExponentMark c with
  | [] => readSignificand? significand
  | _ :: exponent => do
    let d ← readSignificand? significand
    let shift ← readExponent? exponent
    return ⟨d.digits, d.exponent + shift⟩

def readMagnitude? (negative : Bool) (cs : List Char) : Option Double :=
  let word := cs.map Char.toLower
  if word = "inf".toList ∨ word = "infinity".toList then some (.infinite negative)
  else if word = "nan".toList then some .nan
  else (readDecimal? cs).map fun d => ofUnits negative d.units

def read? : List Char → Option Double
  | '-' :: rest => readMagnitude? true rest
  | '+' :: rest => readMagnitude? false rest
  | cs => readMagnitude? false cs

/-! ### Writing -/

/-- Which of two neighbouring decimals is taken if both are equally near. -/
inductive Tie where
  | up
  | even
  deriving DecidableEq

/-- The decimal that is exactly a number of units. -/
def exactDecimal (units : Nat) : Decimal := ⟨units * Nat.pow 5 1074, -1074⟩

/-- Of the two decimals next to `exact` that have `exact.digits / scale` as their digits or one
more, the nearer one that reads back as `units`. -/
def neighbour? (tie : Tie) (units : Nat) (exact : Decimal) (places : Nat) : Option Decimal :=
  let scale := Nat.pow 10 places
  let exponent := exact.exponent + places
  let below : Decimal := ⟨exact.digits / scale, exponent⟩
  let above : Decimal := ⟨exact.digits / scale + 1, exponent⟩
  let twice := 2 * (exact.digits % scale)
  let tiesBelow : Prop := tie = .even ∧ below.digits % 2 = 0
  let candidates :=
    if twice < scale ∨ (twice = scale ∧ tiesBelow) then [below, above] else [above, below]
  candidates.find? fun d => d.units = units

/-- The first decimal that reads back as `units` when the digits of `exact` are cut to `count`
digits, to `count + 1` and so on; `exact` itself if none of the first `tries` does. -/
def shortestFrom (tie : Tie) (units : Nat) (exact : Decimal) (length : Nat) :
    (tries count : Nat) → Decimal
  | 0, _ => exact
  | tries + 1, count =>
    match neighbour? tie units exact (length - count) with
    | some d => d
    | none => shortestFrom tie units exact length tries (count + 1)

/-- The shortest decimal that reads back as a positive number of units. -/
def shortestDecimal (tie : Tie) (units : Nat) : Decimal :=
  let exact := exactDecimal units
  shortestFrom tie units exact (digitsOf exact.digits).length 17 1

/-- Removes the zeros at the end of a non-zero decimal's digits. -/
def Decimal.strip (d : Decimal) : (fuel : Nat) → Decimal
  | 0 => d
  | fuel + 1 =>
    if d.digits ≠ 0 ∧ d.digits % 10 = 0 then Decimal.strip ⟨d.digits / 10, d.exponent + 1⟩ fuel
    else d

def shortest (tie : Tie) (units : Nat) : Decimal :=
  let d := shortestDecimal tie units
  d.strip (digitsOf d.digits).length

def Decimal.positional (d : Decimal) : List Char :=
  let digits := digitsOf d.digits
  if 0 ≤ d.exponent then digits ++ List.replicate d.exponent.toNat '0'
  else
    let places := (-d.exponent).toNat
    if places < digits.length then
      digits.take (digits.length - places) ++ '.' :: digits.drop (digits.length - places)
    else "0.".toList ++ List.replicate (places - digits.length) '0' ++ digits

/-- The text of a number of units; of two decimals that are equally near it has the greater. -/
def displayUnits (units : Nat) : List Char :=
  if units = 0 then ['0'] else (shortest .up units).positional

def displayChars : Double → List Char
  | .nan => "NaN".toList
  | .infinite true => "-inf".toList
  | .infinite false => "inf".toList
  | .finite true units _ => '-' :: displayUnits units
  | .finite false units _ => displayUnits units

/-- The text of a double: never an exponent, and no point before nothing. -/
def display (d : Double) : String := String.ofList d.displayChars

end Double

end TestEngine
