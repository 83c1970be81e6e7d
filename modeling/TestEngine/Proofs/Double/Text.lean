import Mathlib.Algebra.Order.Ring.Nat
import Mathlib.Tactic.Ring
import TestEngine.Double.Text
import TestEngine.Proofs.Text.Numeral

/-!
# Doubles read back

What a quotient is rounded to depends on its value only, so that of all decimals of one value either
each reads as a given double or none does. A number of units that a double can hold is rounded to
itself. The shortcuts for very large and very small decimals change nothing: the one are too large
for a double, and the others are nearest to zero.

The text of a double is read back as the double, whichever of the decimals that read as it has been
written: the exact decimal is one of them, zeros at its end are of no account, and the positional
form of a decimal is read as a decimal of the same value.
-/

namespace TestEngine.Double

variable {dividend divisor factor units : Nat} {d other : Decimal}

/-! ### Powers -/

theorem unitsPerOne_eq {bits : Nat} (isBits : bits = 1074) : unitsPerOne = 2 ^ bits := by
  unfold unitsPerOne
  rw [← isBits]
  exact Nat.pow_eq

theorem unitsLimit_eq {bits : Nat} (isBits : bits = 2098) : unitsLimit = 2 ^ bits := by
  unfold unitsLimit
  rw [← isBits]
  exact Nat.pow_eq

theorem two_pow_le_ten_pow (n : Nat) : 2 ^ (3 * n) ≤ 10 ^ n := by
  rw [Nat.pow_mul]
  exact Nat.pow_le_pow_left (by decide) n

/-! ### Quotients -/

theorem roundQuotient_mul (pos : 0 < factor) (dividend divisor : Nat) :
    roundQuotient (factor * dividend) (factor * divisor) =
      roundQuotient dividend divisor := by
  have scaled : 2 * (factor * (dividend % divisor)) =
      factor * (2 * (dividend % divisor)) := Nat.mul_left_comm ..
  simp only [roundQuotient, Nat.mul_div_mul_left _ _ pos, Nat.mul_mod_mul_left, scaled,
    Nat.mul_lt_mul_left pos, Nat.mul_right_inj (Nat.ne_of_gt pos)]

/-- A quotient is rounded as its value says. -/
theorem roundUnits_mul (pos : 0 < factor) (dividend divisor : Nat) :
    roundUnits (factor * dividend) (factor * divisor) = roundUnits dividend divisor := by
  simp only [roundUnits, Nat.mul_div_mul_left _ _ pos, Nat.mul_assoc, roundQuotient_mul pos]

/-- Equal quotients are rounded alike. -/
theorem roundUnits_congr {dividend' divisor' : Nat} (pos : 0 < divisor)
    (pos' : 0 < divisor')
    (same : dividend * divisor' = dividend' * divisor) :
    roundUnits dividend divisor = roundUnits dividend' divisor' := by
  calc roundUnits dividend divisor
      = roundUnits (divisor' * dividend) (divisor' * divisor) :=
        (roundUnits_mul pos' ..).symm
    _ = roundUnits (divisor * dividend') (divisor * divisor') := by
        rw [Nat.mul_comm divisor' dividend, same, Nat.mul_comm dividend',
          Nat.mul_comm divisor']
    _ = roundUnits dividend' divisor' := roundUnits_mul pos ..

/-- What a double can hold is not rounded. -/
theorem roundUnits_of_representable (representable : Representable units) :
    roundUnits units 1 = units := by
  have whole : units % 2 ^ (units.log2 - 52) = 0 := representable.2
  have exact := Nat.div_mul_cancel (Nat.dvd_of_mod_eq_zero whole)
  simpa [roundUnits, roundQuotient, whole] using exact

/-- What is less than half a unit is rounded to none. -/
theorem roundUnits_eq_zero (small : 2 * dividend < divisor) :
    roundUnits dividend divisor = 0 := by
  have lt : dividend < divisor := by omega
  have noUnits : dividend / divisor = 0 := Nat.div_eq_of_lt lt
  simp [roundUnits, roundQuotient, noUnits, Nat.mod_eq_of_lt lt, small]

/-- Rounding does not go below a power of two of at least 53 bits. -/
theorem le_roundUnits_one {bits : Nat} (wide : 52 ≤ bits) (large : 2 ^ bits ≤ units) :
    2 ^ bits ≤ roundUnits units 1 := by
  have notZero : units ≠ 0 := fun isZero => by simp [isZero] at large
  have bitsLe : bits ≤ units.log2 := (Nat.le_log2 notZero).mpr large
  generalize isStep : 2 ^ (units.log2 - 52) = step
  have stepPos : 0 < step := isStep ▸ Nat.two_pow_pos _
  have leading : 2 ^ 52 * step = 2 ^ units.log2 := by
    rw [← isStep, ← Nat.pow_add]
    congr 1
    omega
  have quotient : 2 ^ 52 ≤ units / step := by
    rw [Nat.le_div_iff_mul_le stepPos, leading]
    exact Nat.log2_self_le notZero
  have rounded : units / step ≤ roundQuotient units step := by
    simp only [roundQuotient]
    split <;> omega
  have unfolded : roundUnits units 1 = roundQuotient units step * step := by
    simp only [roundUnits, Nat.div_one, Nat.one_mul, Nat.pow_eq, isStep]
  calc 2 ^ bits
      ≤ 2 ^ units.log2 := Nat.pow_le_pow_right (by decide) bitsLe
    _ = 2 ^ 52 * step := leading.symm
    _ ≤ roundQuotient units step * step := Nat.mul_le_mul_right step (quotient.trans rounded)
    _ = roundUnits units 1 := unfolded.symm

/-! ### Decimals -/

namespace Decimal

/-- A decimal in units, as a quotient: without a fraction the denominator is one. -/
def numerator (d : Decimal) : Nat := d.digits * 10 ^ d.exponent.toNat * unitsPerOne

def denominator (d : Decimal) : Nat := 10 ^ (-d.exponent).toNat

theorem denominator_pos (d : Decimal) : 0 < d.denominator := Nat.pow_pos (by decide)

/-- Beyond the shortcut for large decimals, there are none but those too large for a double. -/
theorem unitsLimit_le_numerator (notZero : d.digits ≠ 0) (large : 400 < d.exponent) :
    unitsLimit ≤ d.numerator := by
  have exponent : 400 ≤ d.exponent.toNat := by omega
  obtain ⟨bits, isBits⟩ : ∃ bits, bits = 1074 := ⟨_, rfl⟩
  calc unitsLimit
      = 2 ^ (1024 + bits) := unitsLimit_eq (by omega)
    _ ≤ 2 ^ (3 * d.exponent.toNat + bits) := Nat.pow_le_pow_right (by decide) (by omega)
    _ = 2 ^ (3 * d.exponent.toNat) * unitsPerOne := by rw [unitsPerOne_eq isBits, Nat.pow_add]
    _ ≤ 10 ^ d.exponent.toNat * unitsPerOne := Nat.mul_le_mul_right _ (two_pow_le_ten_pow _)
    _ ≤ d.digits * 10 ^ d.exponent.toNat * unitsPerOne :=
        Nat.mul_le_mul_right _ (Nat.le_mul_of_pos_left _ (Nat.pos_of_ne_zero notZero))

/-- Beyond the shortcut for small decimals, there are none but those less than half a unit. -/
theorem two_mul_numerator_lt (negative : d.exponent < 0)
    (small : (d.digits.log2 : Int) + 1 + 3 * d.exponent < -1080) :
    2 * d.numerator < d.denominator := by
  have noPower : d.exponent.toNat = 0 := Int.toNat_of_nonpos (Int.le_of_lt negative)
  obtain ⟨bits, isBits⟩ : ∃ bits, bits = 1074 := ⟨_, rfl⟩
  calc 2 * d.numerator
      = d.digits * 2 ^ (bits + 1) := by
        rw [numerator, noPower, unitsPerOne_eq isBits, Nat.pow_zero, Nat.mul_one,
          Nat.mul_left_comm, ← Nat.pow_succ']
    _ < 2 ^ (d.digits.log2 + 1) * 2 ^ (bits + 1) :=
        Nat.mul_lt_mul_of_pos_right Nat.lt_log2_self (Nat.two_pow_pos _)
    _ = 2 ^ (d.digits.log2 + 1 + (bits + 1)) := (Nat.pow_add ..).symm
    _ ≤ 2 ^ (3 * (-d.exponent).toNat) := Nat.pow_le_pow_right (by decide) (by omega)
    _ ≤ d.denominator := two_pow_le_ten_pow _

/-- A decimal reads as a number of units of a double exactly if it is rounded to it. -/
theorem units_eq_iff (lt : units < unitsLimit) :
    d.units = units ↔ roundUnits d.numerator d.denominator = units := by
  simp only [Decimal.units, unitsOfDecimal]
  split
  · rename_i isZero
    have rounded : roundUnits d.numerator d.denominator = 0 := by
      apply roundUnits_eq_zero
      simpa [numerator, isZero] using d.denominator_pos
    rw [rounded]
  · rename_i notZero
    split
    · rename_i large
      have whole : d.denominator = 1 := by
        rw [denominator, Int.toNat_of_nonpos (by omega), Nat.pow_zero]
      have tooLarge : unitsLimit ≤ roundUnits d.numerator d.denominator := by
        have atLeast := unitsLimit_le_numerator notZero large
        obtain ⟨bits, isBits⟩ : ∃ bits, bits = 2098 := ⟨_, rfl⟩
        rw [unitsLimit_eq isBits] at atLeast ⊢
        rw [whole]
        exact le_roundUnits_one (by omega) atLeast
      omega
    · split
      · rename_i nonneg
        have whole : d.denominator = 1 := by
          rw [denominator, Int.toNat_of_nonpos (by omega), Nat.pow_zero]
        rw [whole, numerator]
        exact Iff.rfl
      · rename_i negative
        split
        · rename_i small
          rw [roundUnits_eq_zero (two_mul_numerator_lt (Int.not_le.mp negative) small)]
        · have noPower : d.exponent.toNat = 0 := by omega
          rw [numerator, noPower, Nat.pow_zero, Nat.mul_one]
          exact Iff.rfl

/-- Whether two decimals have one value. -/
def SameValue (d other : Decimal) : Prop :=
  d.numerator * other.denominator = other.numerator * d.denominator

/-- Decimals of one value read as the same double. -/
theorem SameValue.units_eq (same : d.SameValue other) (reads : d.units = units)
    (lt : units < unitsLimit) : other.units = units := by
  rw [units_eq_iff lt] at reads ⊢
  rw [← roundUnits_congr d.denominator_pos other.denominator_pos same]
  exact reads

end Decimal

/-! ## Texts -/

open Text

variable {tie : Tie} {cs whole fraction : List Char} {negative : Bool}

/-! ### The decimal of a double -/

namespace Decimal

theorem sameValue_shift (digits : Nat) (exponent : Int) :
    SameValue ⟨10 * digits, exponent⟩ ⟨digits, exponent + 1⟩ := by
  simp only [SameValue, numerator, denominator]
  rcases Int.lt_or_le exponent 0 with isNegative | isWhole
  · have power : (-exponent).toNat = (-(exponent + 1)).toNat + 1 := by omega
    have noPower : exponent.toNat = 0 ∧ (exponent + 1).toNat = 0 := by omega
    rw [power, noPower.1, noPower.2]
    ring
  · have power : (exponent + 1).toNat = exponent.toNat + 1 := by omega
    have noPower : (-exponent).toNat = 0 ∧ (-(exponent + 1)).toNat = 0 := by omega
    rw [power, noPower.1, noPower.2]
    ring

/-- Zeros at the end of a decimal are of no account. -/
theorem units_strip (lt : units < unitsLimit) (fuel : Nat) (reads : d.units = units) :
    (d.strip fuel).units = units := by
  induction fuel generalizing d with
  | zero => exact reads
  | succ fuel ih =>
      rw [strip]
      split
      · rename_i endsWithZero
        apply ih
        have shifts := sameValue_shift (d.digits / 10) d.exponent
        rw [Nat.mul_div_cancel' (Nat.dvd_of_mod_eq_zero endsWithZero.2)] at shifts
        exact shifts.units_eq reads lt
      · exact reads

end Decimal

theorem units_exactDecimal (representable : Representable units) :
    (exactDecimal units).units = units := by
  obtain ⟨bits, isBits⟩ : ∃ bits, bits = 1074 := ⟨_, rfl⟩
  have noPower : (-1074 : Int).toNat = 0 := rfl
  have isNumerator : (exactDecimal units).numerator = 10 ^ bits * units := by
    calc (exactDecimal units).numerator
        = units * 5 ^ bits * 2 ^ bits := by
          rw [Decimal.numerator, exactDecimal, noPower, Nat.pow_zero, Nat.mul_one, ← isBits,
            unitsPerOne_eq isBits, Nat.pow_eq]
      _ = units * 10 ^ bits := by rw [Nat.mul_assoc, ← Nat.mul_pow]
      _ = 10 ^ bits * units := Nat.mul_comm ..
  have isDenominator : (exactDecimal units).denominator = 10 ^ bits * 1 := by
    rw [Decimal.denominator, exactDecimal, Nat.mul_one, isBits]
    congr 1
  rw [Decimal.units_eq_iff representable.1, isNumerator, isDenominator,
    roundUnits_mul (Nat.pow_pos (by decide)), roundUnits_of_representable representable]

theorem units_shortestFrom {exact : Decimal} {length : Nat} (reads : exact.units = units)
    (tries count : Nat) : (shortestFrom tie units exact length tries count).units = units := by
  induction tries generalizing count with
  | zero => exact reads
  | succ tries ih =>
      rw [shortestFrom]
      split
      · rename_i found
        simpa using List.find?_some found
      · exact ih (count + 1)

/-- The shortest decimal of a double reads as the double. -/
theorem units_shortest (representable : Representable units) :
    (shortest tie units).units = units :=
  Decimal.units_strip representable.1 _
    (units_shortestFrom (units_exactDecimal representable) 17 1)

/-! ### Positional form -/

/-- Digits, perhaps with a point behind the first of them, that spell a decimal. -/
inductive SpellsDecimal : Decimal → List Char → Prop where
  | whole {n : Nat} {digits : List Char} (spells : Spells n digits) : SpellsDecimal ⟨n, 0⟩ digits
  | point {n : Nat} {whole fraction : List Char} (spells : Spells n whole)
      (areDigits : ∀ c ∈ fraction, isDigit c) :
      SpellsDecimal ⟨valueOfDigits (whole ++ fraction), -fraction.length⟩ (whole ++ '.' :: fraction)

/-- The positional form of a decimal spells a decimal of its value. -/
theorem spellsDecimal_positional (d : Decimal) :
    ∃ other, SpellsDecimal other d.positional ∧ d.SameValue other := by
  have spells := spells_digitsOf d.digits
  unfold Decimal.positional
  split
  · rename_i isWhole
    refine ⟨_, .whole (spells.append_zeros d.exponent.toNat), ?_⟩
    have noPower : (-d.exponent).toNat = 0 := by omega
    simp [Decimal.SameValue, Decimal.numerator, Decimal.denominator, noPower]
  · rename_i isFraction
    dsimp only
    generalize isPlaces : (-d.exponent).toNat = places
    have isExponent : d.exponent = -(places : Int) := by omega
    split
    · rename_i hasWhole
      generalize isCount : (digitsOf d.digits).length - places = count
      have spellsWhole : Spells (valueOfDigits ((digitsOf d.digits).take count)) _ :=
        ⟨by simp [spells.notNil]; omega, fun c mem => spells.areDigits c (List.mem_of_mem_take mem),
          rfl⟩
      refine ⟨_, .point spellsWhole fun c mem => spells.areDigits c (List.mem_of_mem_drop mem), ?_⟩
      have length : ((digitsOf d.digits).drop count).length = places := by
        rw [List.length_drop]
        omega
      rw [List.take_append_drop, spells.value, length, ← isExponent]
      rfl
    · rename_i noWhole
      generalize isMissing : places - (digitsOf d.digits).length = missing
      have spellsFraction := spells.zeros_append missing
      have text : "0.".toList ++ List.replicate missing '0' ++ digitsOf d.digits =
          ['0'] ++ '.' :: (List.replicate missing '0' ++ digitsOf d.digits) := rfl
      rw [text]
      refine ⟨_, .point spells_zero spellsFraction.areDigits, ?_⟩
      have length : (List.replicate missing '0' ++ digitsOf d.digits).length = places := by
        rw [List.length_append, List.length_replicate]
        omega
      have value : valueOfDigits (['0'] ++ (List.replicate missing '0' ++ digitsOf d.digits)) =
          d.digits := (spells.zeros_append (missing + 1)).value
      rw [value, length, ← isExponent]
      rfl

/-- The text of a number of units spells a decimal that reads as them. -/
theorem spellsDecimal_displayUnits (representable : Representable units) :
    ∃ d, SpellsDecimal d (displayUnits units) ∧ d.units = units := by
  rw [displayUnits]
  split
  · rename_i isZero
    exact ⟨⟨0, 0⟩, .whole spells_zero, isZero.symm⟩
  · rcases spellsDecimal_positional (shortest .up units) with ⟨other, spells, sameValue⟩
    exact ⟨other, spells, sameValue.units_eq (units_shortest representable) representable.1⟩

namespace SpellsDecimal

theorem exists_cons (spells : SpellsDecimal d cs) : ∃ c rest, cs = c :: rest ∧ isDigit c := by
  cases spells with
  | whole spells => exact spells.exists_cons
  | point spells areDigits =>
      rcases spells.exists_cons with ⟨c, rest, rfl, isDigit⟩
      exact ⟨c, _, rfl, isDigit⟩

theorem digit_or_point (spells : SpellsDecimal d cs) {c : Char} (mem : c ∈ cs) :
    isDigit c ∨ c = '.' := by
  cases spells with
  | whole spells => exact .inl (spells.areDigits c mem)
  | point spells areDigits =>
      rcases List.mem_append.mp mem with mem | mem
      · exact .inl (spells.areDigits c mem)
      · rcases List.mem_cons.mp mem with isPoint | mem
        · exact .inr isPoint
        · exact .inl (areDigits c mem)

theorem readSignificand? (spells : SpellsDecimal d cs) : readSignificand? cs = some d := by
  cases spells with
  | whole spells =>
      have noneLeft : ∀ c ∈ ([] : List Char).head?, isDigit c = false := nofun
      have taken := spells.takeWhile_append noneLeft
      rw [List.append_nil] at taken
      simp only [Double.readSignificand?, taken, if_neg spells.notNil, spells.value]
  | @point n whole fraction spells areDigits =>
      have point : ∀ c ∈ ('.' :: fraction).head?, isDigit c = false := by
        rintro c ⟨⟩
        decide
      have taken := spells.takeWhile_append point
      have isFraction : ¬((whole = [] ∧ fraction = []) ∨ !fraction.all isDigit) := by
        simpa [spells.notNil] using areDigits
      simp only [Double.readSignificand?, taken, if_neg isFraction]

/-- A text without an exponent is read by its significand. -/
theorem readDecimal? (spells : SpellsDecimal d cs) : readDecimal? cs = some d := by
  have noMark : ∀ c ∈ cs, (!(c == 'e' || c == 'E')) = true := by
    intro c mem
    rcases spells.digit_or_point mem with isDigit | rfl
    · simp only [Bool.not_eq_true', Bool.or_eq_false_iff, beq_eq_false_iff_ne]
      constructor
      · rintro rfl
        exact absurd isDigit (by decide)
      · rintro rfl
        exact absurd isDigit (by decide)
    · decide
  have taken := List.takeWhile_eq_self_iff.mpr noMark
  have dropped := List.dropWhile_eq_nil_iff.mpr noMark
  simp only [Double.readDecimal?, taken, dropped]
  exact spells.readSignificand?

/-- A text that begins with a digit is none of the words that stand for a number. -/
theorem readMagnitude? (spells : SpellsDecimal d cs) (negative : Bool) :
    readMagnitude? negative cs = some (ofUnits negative d.units) := by
  rcases spells.exists_cons with ⟨c, rest, isCons, isDigit⟩
  have noWord {first : Char} {word : List Char} (notDigit : Text.isDigit first = false) :
      cs.map Char.toLower ≠ first :: word := by
    intro same
    rw [isCons, List.map_cons, toLower_of_isDigit isDigit] at same
    rw [(List.cons.inj same).1, notDigit] at isDigit
    cases isDigit
  have noInf : cs.map Char.toLower ≠ "inf".toList := noWord (by decide)
  have noInfinity : cs.map Char.toLower ≠ "infinity".toList := noWord (by decide)
  have noNan : cs.map Char.toLower ≠ "nan".toList := noWord (by decide)
  simp only [Double.readMagnitude?, noInf, noInfinity, noNan, or_self, if_false,
    spells.readDecimal?, Option.map_some]

end SpellsDecimal

/-! ### Doubles -/

theorem readMagnitude?_displayUnits (negative : Bool) (representable : Representable units) :
    readMagnitude? negative (displayUnits units) = some (.finite negative units representable) := by
  rcases spellsDecimal_displayUnits representable with ⟨d, spells, isUnits⟩
  rw [spells.readMagnitude?, isUnits, ofUnits, dif_pos representable]

/-- Every double is read back from its text. -/
theorem read?_displayChars : (d : Double) → read? d.displayChars = some d
  | .nan => rfl
  | .infinite true => rfl
  | .infinite false => rfl
  | .finite true units representable => readMagnitude?_displayUnits true representable
  | .finite false units representable => by
      rcases spellsDecimal_displayUnits representable with ⟨d, spells, -⟩
      rcases spells.exists_cons with ⟨c, rest, isCons, isDigit⟩
      have unsigned {sign : Char} (notDigit : Text.isDigit sign = false) (tail : List Char) :
          displayUnits units ≠ sign :: tail := by
        intro same
        rw [(List.cons.inj (isCons.symm.trans same)).1, notDigit] at isDigit
        cases isDigit
      rw [displayChars, read?]
      · exact readMagnitude?_displayUnits false representable
      · exact unsigned (by decide)
      · exact unsigned (by decide)

/-- The text of a double has no blanks. -/
theorem trim_displayChars (d : Double) : trim d.displayChars = d.displayChars := by
  apply trim_of_forall
  have units {units : Nat} (representable : Representable units) :
      ∀ c ∈ displayUnits units, isBlank c = false := by
    intro c mem
    rcases spellsDecimal_displayUnits representable with ⟨d, spells, -⟩
    rcases spells.digit_or_point mem with isDigit | rfl
    · exact isBlank_of_isDigit isDigit
    · decide
  have word {cs : List Char} (noBlanks : (cs.all fun c => !isBlank c) = true) :
      ∀ c ∈ cs, isBlank c = false := by
    simpa using noBlanks
  cases d with
  | nan => exact word (by decide)
  | infinite negative => cases negative <;> exact word (by decide)
  | finite negative n representable =>
      cases negative with
      | false => exact units representable
      | true =>
          rintro c (_ | ⟨_, mem⟩)
          · decide
          · exact units representable c mem

theorem compare?_self {d : Double} (notNan : d ≠ .nan) : d.compare? d = some .eq := by
  cases d with
  | nan => exact absurd rfl notNan
  | infinite negative => exact congrArg some (Int.compare_eq_eq.mpr rfl)
  | finite negative units representable => exact congrArg some (Int.compare_eq_eq.mpr rfl)

/-- The text of a double is read back as the double, also by those who first take blanks away. -/
theorem read?_display (d : Double) : read? (trim d.display.toList) = some d := by
  rw [display, String.toList_ofList, trim_displayChars, read?_displayChars]

end TestEngine.Double
