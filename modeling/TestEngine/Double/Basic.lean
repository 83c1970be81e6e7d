/-!
# Doubles

A finite double of the 64-bit binary format is a whole number of *units*, one unit being
`2 ^ -1074`, with at most 53 significant bits and below `2 ^ 1024`. Keeping the number of units
makes every operation here exact natural-number arithmetic; the only inexact step is `roundUnits`,
which takes a quotient to the nearest representable number of units, ties to even.
-/

namespace TestEngine

def unitsPerOne : Nat := Nat.pow 2 1074

/-- The number of units in `2 ^ 1024`, the first power of two that is too large for a double. -/
def unitsLimit : Nat := Nat.pow 2 2098

theorem unitsLimit_pos : 0 < unitsLimit := by
  unfold unitsLimit
  apply Nat.two_pow_pos

/-- The numbers of units that a double can hold. -/
def Representable (units : Nat) : Prop :=
  units < unitsLimit ∧ units % Nat.pow 2 (units.log2 - 52) = 0

instance (units : Nat) : Decidable (Representable units) := by
  unfold Representable
  infer_instance

/-- A number of the 64-bit binary floating-point format; all its NaNs are one value. -/
inductive Double where
  | nan
  | infinite (negative : Bool)
  | finite (negative : Bool) (units : Nat) (representable : Representable units)
  deriving DecidableEq

namespace Double

def zero (negative : Bool) : Double := .finite negative 0 ⟨unitsLimit_pos, Nat.zero_mod _⟩

instance : Inhabited Double := ⟨zero false⟩

/-- The whole number nearest to a quotient, a half going to the even neighbour. -/
def roundQuotient (numerator denominator : Nat) : Nat :=
  let below := numerator / denominator
  let twice := 2 * (numerator % denominator)
  if twice < denominator ∨ (twice = denominator ∧ below % 2 = 0) then below else below + 1

/-- The number of units with at most 53 significant bits that is nearest to a quotient. -/
def roundUnits (numerator denominator : Nat) : Nat :=
  let step := Nat.pow 2 ((numerator / denominator).log2 - 52)
  roundQuotient numerator (denominator * step) * step

/-- The double with a number of units; a number too large for a double is infinite. -/
def ofUnits (negative : Bool) (units : Nat) : Double :=
  if representable : Representable units then .finite negative units representable
  else .infinite negative

/-- The double nearest to a quotient of units. -/
def ofQuotient (negative : Bool) (numerator denominator : Nat) : Double :=
  ofUnits negative (roundUnits numerator denominator)

def ofInt (n : Int) : Double := ofQuotient (n < 0) (n.natAbs * unitsPerOne) 1

/-- The number of units nearest to `digits * 10 ^ exponent`. Beyond `10 ^ 400` every such number is
infinite and below a quarter of a unit every one is zero, so that no power is ever larger than the
digits require. -/
def unitsOfDecimal (digits : Nat) (exponent : Int) : Nat :=
  if digits = 0 then 0
  else if 400 < exponent then unitsLimit
  else if 0 ≤ exponent then roundUnits (digits * Nat.pow 10 exponent.toNat * unitsPerOne) 1
  else if (digits.log2 : Int) + 1 + 3 * exponent < -1080 then 0
  else roundUnits (digits * unitsPerOne) (Nat.pow 10 (-exponent).toNat)

/-- The double nearest to `± digits * 10 ^ exponent`. -/
def ofDecimal (negative : Bool) (digits : Nat) (exponent : Int) : Double :=
  ofUnits negative (unitsOfDecimal digits exponent)

def negate : Double → Double
  | .nan => .nan
  | .infinite negative => .infinite (!negative)
  | .finite negative units representable => .finite (!negative) units representable

def isFinite : Double → Bool
  | .finite .. => true
  | _ => false

/-- The place of a number in the order: its signed number of units, with the infinities outside of
all others. A NaN has none. -/
def rank? : Double → Option Int
  | .nan => none
  | .infinite negative => some (if negative then -(unitsLimit : Int) else unitsLimit)
  | .finite negative units _ => some (if negative then -(units : Int) else units)

/-- How two numbers compare; a NaN compares with nothing. The two zeros are equal. -/
def compare? (a b : Double) : Option Ordering :=
  match a.rank?, b.rank? with
  | some left, some right => some (compare left right)
  | _, _ => none

end Double

end TestEngine
