import Mathlib.Algebra.Group.Int.Defs
import Mathlib.Algebra.Group.Nat.Defs
import Mathlib.Data.List.Induction
import Mathlib.Data.List.TakeWhile
import TestEngine.Text.Blank
import TestEngine.Text.Numeral

/-!
# Numerals read back

The digits of a number are read back as the number, also behind leading zeros, and a number that is
padded to a width has that width as long as it has no more digits. The text of an integer is read
back as the integer, of a fixed width if it is in its range.
-/

namespace TestEngine.Text

/-! ### Digits -/

theorem digitValue_digitChar {n : Nat} (lt : n < 10) : digitValue (digitChar n) = n := by
  have all : ∀ n < 10, digitValue (digitChar n) = n := by decide
  exact all n lt

theorem isDigit_digitChar {n : Nat} (lt : n < 10) : isDigit (digitChar n) := by
  have all : ∀ n < 10, isDigit (digitChar n) = true := by decide
  exact all n lt

theorem isDigit_iff {c : Char} : isDigit c ↔ 48 ≤ c.toNat ∧ c.toNat ≤ 57 := by
  simp only [isDigit, Bool.and_eq_true, decide_eq_true_eq, Char.le_def, UInt32.le_iff_toNat_le]
  exact Iff.rfl

theorem isBlank_of_isDigit {c : Char} (isDigit : isDigit c) : isBlank c = false := by
  rw [isDigit_iff] at isDigit
  simp only [isBlank, Bool.or_eq_false_iff, Bool.and_eq_false_iff, decide_eq_false_iff_not,
    beq_eq_false_iff_ne]
  omega

/-- Digits have no case. -/
theorem toLower_of_isDigit {c : Char} (isDigit : isDigit c) : c.toLower = c := by
  have bounds : 48 ≤ c.val.toNat ∧ c.val.toNat ≤ 57 := isDigit_iff.mp isDigit
  have first : 'A'.val.toNat = 65 := rfl
  refine dif_neg ?_
  simp only [ge_iff_le, UInt32.le_iff_toNat_le]
  omega

theorem trimLeft_cons {c : Char} (notBlank : isBlank c = false) (rest : List Char) :
    trimLeft (c :: rest) = c :: rest := by
  simp [trimLeft, notBlank]

theorem trimLeft_append {blanks : List Char} (areBlank : ∀ c ∈ blanks, isBlank c)
    (cs : List Char) : trimLeft (blanks ++ cs) = trimLeft cs :=
  List.dropWhile_append_of_pos areBlank

/-! ### Values -/

theorem valueOfDigits_concat (digits : List Char) (c : Char) :
    valueOfDigits (digits ++ [c]) = 10 * valueOfDigits digits + digitValue c := by
  simp [valueOfDigits]

@[simp]
theorem valueOfDigits_zeros (count : Nat) (digits : List Char) :
    valueOfDigits (List.replicate count '0' ++ digits) = valueOfDigits digits := by
  induction count with
  | zero => rfl
  | succ count ih => exact ih

theorem valueOfDigits_lt {digits : List Char} (areDigits : ∀ c ∈ digits, isDigit c) :
    valueOfDigits digits < 10 ^ digits.length := by
  induction digits using List.reverseRecOn with
  | nil => decide
  | append_singleton digits c ih =>
      have digitLt : digitValue c ≤ 9 := by
        have bounds := isDigit_iff.mp (areDigits c (by simp))
        simp only [digitValue]
        omega
      have restLt := ih fun c cMem => areDigits c (by simp [cMem])
      rw [valueOfDigits_concat, List.length_append, List.length_singleton, Nat.pow_succ]
      omega

@[simp]
theorem valueOfDigits_digitsOf (n : Nat) : valueOfDigits (digitsOf n) = n := by
  induction n using digitsOf.induct with
  | case1 n lt =>
      rw [digitsOf, if_pos lt]
      simp [valueOfDigits, digitValue_digitChar lt]
  | case2 n ge ih =>
      rw [digitsOf, if_neg ge, valueOfDigits_concat, ih, digitValue_digitChar (by omega)]
      omega

theorem isDigit_of_mem_digitsOf {n : Nat} {c : Char} (mem : c ∈ digitsOf n) : isDigit c := by
  induction n using digitsOf.induct with
  | case1 n lt =>
      rw [digitsOf, if_pos lt, List.mem_singleton] at mem
      rw [mem]
      exact isDigit_digitChar lt
  | case2 n ge ih =>
      rw [digitsOf, if_neg ge, List.mem_append, List.mem_singleton] at mem
      rcases mem with mem | rfl
      · exact ih mem
      · exact isDigit_digitChar (by omega)

theorem length_digitsOf_pos (n : Nat) : 0 < (digitsOf n).length := by
  rw [digitsOf]
  split <;> simp

theorem length_digitsOf_le {n width : Nat} (lt : n < 10 ^ (width + 1)) :
    (digitsOf n).length ≤ width + 1 := by
  induction width generalizing n with
  | zero =>
      rw [digitsOf, if_pos (by simpa using lt)]
      simp
  | succ width ih =>
      rw [digitsOf]
      split
      · simp
      · have shorter : n / 10 < 10 ^ (width + 1) := by
          rw [Nat.div_lt_iff_lt_mul (by omega), ← Nat.pow_succ]
          exact lt
        simpa using ih shorter

/-! ### Padded numbers -/

@[simp]
theorem valueOfDigits_padded (width n : Nat) : valueOfDigits (padded width n) = n := by
  simp [padded]

theorem isDigit_of_mem_padded {width n : Nat} {c : Char} (mem : c ∈ padded width n) :
    isDigit c := by
  simp only [padded, List.mem_append, List.mem_replicate] at mem
  rcases mem with ⟨-, rfl⟩ | mem
  · decide
  · exact isDigit_of_mem_digitsOf mem

theorem length_padded {width n : Nat} (lt : n < 10 ^ (width + 1)) :
    (padded (width + 1) n).length = width + 1 := by
  have fits := length_digitsOf_le lt
  simp only [padded, List.length_append, List.length_replicate]
  omega

theorem padded_ne_nil (width n : Nat) : padded width n ≠ [] := by
  have digits := length_digitsOf_pos n
  intro isNil
  have length := congrArg List.length isNil
  simp only [padded, List.length_append, List.length_nil] at length
  omega

/-! ### Spelling -/

/-- Digits that spell a number. -/
structure Spells (n : Nat) (digits : List Char) : Prop where
  notNil : digits ≠ []
  areDigits : ∀ c ∈ digits, isDigit c
  value : valueOfDigits digits = n

theorem spells_digitsOf (n : Nat) : Spells n (digitsOf n) :=
  ⟨List.ne_nil_of_length_pos (length_digitsOf_pos n), fun _ mem => isDigit_of_mem_digitsOf mem,
    valueOfDigits_digitsOf n⟩

theorem spells_padded (width n : Nat) : Spells n (padded width n) :=
  ⟨padded_ne_nil width n, fun _ mem => isDigit_of_mem_padded mem, valueOfDigits_padded width n⟩

theorem spells_zero : Spells 0 ['0'] where
  notNil := nofun
  areDigits c mem := by
    rw [List.mem_singleton.mp mem]
    decide
  value := rfl

theorem spells_takeWhile {cs : List Char} (notNil : cs.takeWhile isDigit ≠ []) :
    Spells (valueOfDigits (cs.takeWhile isDigit)) (cs.takeWhile isDigit) :=
  ⟨notNil, fun _ mem => List.mem_takeWhile_imp mem, rfl⟩

namespace Spells

variable {n : Nat} {digits rest : List Char}

theorem exists_cons (spells : Spells n digits) : ∃ c tail, digits = c :: tail ∧ isDigit c := by
  cases digits with
  | nil => exact absurd rfl spells.notNil
  | cons c tail => exact ⟨c, tail, rfl, spells.areDigits c List.mem_cons_self⟩

theorem exists_concat (spells : Spells n digits) :
    ∃ front c, digits = front ++ [c] ∧ isDigit c :=
  ⟨digits.dropLast, digits.getLast spells.notNil, (List.dropLast_concat_getLast _).symm,
    spells.areDigits _ (List.getLast_mem spells.notNil)⟩

theorem trimLeft_append (spells : Spells n digits) (rest : List Char) :
    trimLeft (digits ++ rest) = digits ++ rest := by
  rcases spells.exists_cons with ⟨c, tail, rfl, isDigit⟩
  exact trimLeft_cons (isBlank_of_isDigit isDigit) (tail ++ rest)

/-- Digits in front of something that is no digit are the digits that are found there. -/
theorem takeWhile_append (spells : Spells n digits)
    (ends : ∀ c ∈ rest.head?, isDigit c = false) :
    (digits ++ rest).takeWhile isDigit = digits ∧ (digits ++ rest).dropWhile isDigit = rest := by
  rw [List.takeWhile_append_of_pos spells.areDigits, List.dropWhile_append_of_pos spells.areDigits]
  cases rest with
  | nil => simp
  | cons c tail => simp [ends c rfl]

theorem readNatural? (spells : Spells n digits) : readNatural? digits = some n := by
  rw [Text.readNatural?, if_pos ⟨spells.notNil, List.all_eq_true.mpr spells.areDigits⟩,
    spells.value]

/-- Zeros in front of a number are of no account. -/
theorem zeros_append (spells : Spells n digits) (count : Nat) :
    Spells n (List.replicate count '0' ++ digits) where
  notNil := List.append_ne_nil_of_right_ne_nil _ spells.notNil
  areDigits c mem := by
    rcases List.mem_append.mp mem with mem | mem
    · rw [List.eq_of_mem_replicate mem]
      decide
    · exact spells.areDigits c mem
  value := (valueOfDigits_zeros count digits).trans spells.value

/-- Zeros behind a number multiply it by powers of ten. -/
theorem append_zeros (spells : Spells n digits) (count : Nat) :
    Spells (n * 10 ^ count) (digits ++ List.replicate count '0') where
  notNil := List.append_ne_nil_of_left_ne_nil spells.notNil _
  areDigits c mem := by
    rcases List.mem_append.mp mem with mem | mem
    · exact spells.areDigits c mem
    · rw [List.eq_of_mem_replicate mem]
      decide
  value := by
    induction count with
    | zero => simpa using spells.value
    | succ count ih =>
        have isZero : digitValue '0' = 0 := rfl
        rw [List.replicate_succ', ← List.append_assoc, valueOfDigits_concat, ih, isZero,
          Nat.pow_succ', Nat.mul_left_comm, Nat.add_zero]

end Spells

/-! ### Integers -/

/-- Blanks in front of a text that has none at its ends are all that trimming takes away. -/
theorem trim_append {blanks cs : List Char} (areBlank : ∀ c ∈ blanks, isBlank c)
    (first : ∀ c ∈ cs.head?, isBlank c = false) (last : ∀ c ∈ cs.getLast?, isBlank c = false) :
    trim (blanks ++ cs) = cs := by
  rw [trim, trimLeft_append areBlank]
  exact trim_eq_self first last

/-- A text without blanks is its own trimmed form. -/
theorem trim_of_forall {cs : List Char} (notBlank : ∀ c ∈ cs, isBlank c = false) : trim cs = cs :=
  trim_eq_self (fun c isFirst => notBlank c (List.mem_of_head? isFirst))
    fun c isLast => notBlank c (List.mem_of_getLast? isLast)

/-- Trimming takes away blanks only. -/
theorem mem_trim {cs : List Char} {c : Char} (mem : c ∈ cs) (notBlank : isBlank c = false) :
    c ∈ trim cs := by
  have kept {ds : List Char} (mem : c ∈ ds) : c ∈ trimLeft ds := by
    rw [← List.takeWhile_append_dropWhile (p := isBlank) (l := ds)] at mem
    rcases List.mem_append.mp mem with dropped | kept
    · rw [List.mem_takeWhile_imp dropped] at notBlank
      cases notBlank
    · exact kept
  rw [trim, List.mem_reverse]
  exact kept (List.mem_reverse.mpr (kept mem))

theorem toList_integerText (n : Int) :
    (integerText n).toList = if n < 0 then '-' :: digitsOf n.natAbs else digitsOf n.natAbs :=
  String.toList_ofList

@[simp]
theorem trim_integerText (n : Int) : trim (integerText n).toList = (integerText n).toList := by
  have digits : ∀ c ∈ digitsOf n.natAbs, isBlank c = false := fun c mem =>
    isBlank_of_isDigit (isDigit_of_mem_digitsOf mem)
  apply trim_of_forall
  rw [toList_integerText]
  split
  · rintro c (_ | ⟨_, mem⟩)
    · decide
    · exact digits c mem
  · exact digits

theorem readNatural?_eq_none {cs : List Char} {c : Char} (mem : c ∈ cs)
    (notDigit : isDigit c = false) : readNatural? cs = none := by
  apply if_neg
  rintro ⟨-, areDigits⟩
  rw [List.all_eq_true.mp areDigits c mem] at notDigit
  cases notDigit

/-- A text with a character that is neither a digit nor a sign is no integer. -/
theorem readInteger?_eq_none {cs : List Char} {c : Char} (mem : c ∈ cs)
    (notDigit : isDigit c = false) (notMinus : c ≠ '-') (notPlus : c ≠ '+') :
    readInteger? cs = none := by
  unfold readInteger?
  split
  · rcases List.mem_cons.mp mem with isMinus | mem
    · exact absurd isMinus notMinus
    · rw [readNatural?_eq_none mem notDigit]
      rfl
  · rcases List.mem_cons.mp mem with isPlus | mem
    · exact absurd isPlus notPlus
    · rw [readNatural?_eq_none mem notDigit]
      rfl
  · rw [readNatural?_eq_none mem notDigit]
    rfl

/-- Digits without a sign are read as the number that they spell. -/
theorem Spells.readInteger? {n : Nat} {digits : List Char} (spells : Spells n digits) :
    readInteger? digits = some (n : Int) := by
  have unsigned {c : Char} (notDigit : isDigit c = false) (rest : List Char) :
      digits ≠ c :: rest := by
    rintro rfl
    rw [spells.areDigits c List.mem_cons_self] at notDigit
    cases notDigit
  rw [Text.readInteger?, spells.readNatural?]
  · rfl
  · exact unsigned (by decide)
  · exact unsigned (by decide)

@[simp]
theorem readInteger?_integerText (n : Int) : readInteger? (integerText n).toList = some n := by
  have spells := spells_digitsOf n.natAbs
  rw [toList_integerText]
  split
  · rename_i isNegative
    rw [readInteger?, spells.readNatural?]
    exact congrArg some (Int.eq_neg_natAbs_of_nonpos (Int.le_of_lt isNegative)).symm
  · rename_i notNegative
    rw [spells.readInteger?, Int.natAbs_of_nonneg (Int.not_lt.mp notNegative)]

@[simp]
theorem readInt32?_integerText (n : Int32) :
    readInt32? (integerText n.toInt).toList = some n := by
  rw [readInt32?, readInteger?_integerText, Option.bind_some,
    if_pos ⟨n.minValue_le_toInt, n.toInt_le⟩, Int32.ofInt_toInt]

@[simp]
theorem readInt64?_integerText (n : Int64) :
    readInt64? (integerText n.toInt).toList = some n := by
  rw [readInt64?, readInteger?_integerText, Option.bind_some,
    if_pos ⟨n.minValue_le_toInt, n.toInt_le⟩, Int64.ofInt_toInt]

/-- An integer in the range of 64 bits is read back from its text. -/
theorem readInt64?_integerText_of_le {n : Int} (ge : -2 ^ 63 ≤ n) (lt : n < 2 ^ 63) :
    (readInt64? (integerText n).toList).map Int64.toInt = some n := by
  rw [← Int64.toInt_ofInt_of_le ge lt, readInt64?_integerText, Option.map_some]

end TestEngine.Text
