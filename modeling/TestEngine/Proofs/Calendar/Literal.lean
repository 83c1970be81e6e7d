import TestEngine.Proofs.Calendar.Day
import TestEngine.Proofs.Text.Numeral

/-!
# Date literals

A date literal spells a day, a month and a year with points between them: the first two by one or
two digits, the year by up to four digits or by a sign and any number of digits, and each of them
after any blanks. The texts that spell a valid date are exactly those that are read, and the text of
an instant is one of them.
-/

namespace TestEngine.Calendar

open Text

/-! ### Spelling -/

/-- Blanks, and then one or two digits that spell a number. -/
inductive SpellsPart (n : Nat) : List Char → Prop where
  | mk {blanks digits : List Char} (areBlank : ∀ c ∈ blanks, isBlank c) (spells : Spells n digits)
      (short : digits.length ≤ 2) : SpellsPart n (blanks ++ digits)

/-- Blanks, and then up to four digits, or a sign and any number of digits, that spell a year. -/
inductive SpellsYear : Int → List Char → Prop where
  | plain {n : Nat} {blanks digits : List Char} (areBlank : ∀ c ∈ blanks, isBlank c)
      (spells : Spells n digits) (short : digits.length ≤ 4) : SpellsYear n (blanks ++ digits)
  | minus {n : Nat} {blanks digits : List Char} (areBlank : ∀ c ∈ blanks, isBlank c)
      (spells : Spells n digits) : SpellsYear (-n) (blanks ++ '-' :: digits)
  | plus {n : Nat} {blanks digits : List Char} (areBlank : ∀ c ∈ blanks, isBlank c)
      (spells : Spells n digits) : SpellsYear n (blanks ++ '+' :: digits)

/-- The texts that spell a date. -/
inductive SpellsDate (date : Date) : List Char → Prop where
  | mk {day month year : List Char} (spellsDay : SpellsPart date.day day)
      (spellsMonth : SpellsPart date.month month) (spellsYear : SpellsYear date.year year) :
      SpellsDate date (day ++ '.' :: (month ++ '.' :: year))

variable {n width : Nat} {year : Int} {cs digits rest : List Char} {date : Date}

theorem spellsPart_of_spells (spells : Spells n digits) (short : digits.length ≤ 2) :
    SpellsPart n digits := by
  have noBlanks : ∀ c ∈ ([] : List Char), isBlank c := nofun
  exact .mk noBlanks spells short

/-! ### Numbers -/

theorem takeNumber?_spells (taken : takeNumber? width cs = some (n, rest)) :
    ∃ digits, Spells n digits ∧ digits.length ≤ width ∧ cs = digits ++ rest := by
  simp only [takeNumber?] at taken
  split at taken
  · exact nomatch taken
  · rename_i notNil
    obtain ⟨rfl, rfl⟩ := Prod.mk.inj (Option.some.inj taken)
    refine ⟨_, spells_takeWhile notNil, ?_, ?_⟩
    · exact Nat.le_trans (List.takeWhile_prefix isDigit).length_le (List.length_take_le ..)
    · have isPrefix := (List.takeWhile_prefix isDigit).trans (List.take_prefix width cs)
      exact (List.prefix_iff_eq_append.mp isPrefix).symm

/-- The end of a number shows if it has all the digits that it may have, or else by what follows. -/
theorem takeNumber?_append (spells : Spells n digits) (short : digits.length ≤ width)
    (ends : digits.length < width → ∀ c ∈ rest.head?, isDigit c = false) :
    takeNumber? width (digits ++ rest) = some (n, rest) := by
  have taken : ((digits ++ rest).take width).takeWhile isDigit = digits := by
    rw [List.take_append, List.take_of_length_le short]
    refine (spells.takeWhile_append ?_).1
    intro c isFirst
    rw [List.head?_take] at isFirst
    split at isFirst
    · exact nomatch isFirst
    · exact ends (by omega) c isFirst
  simp only [takeNumber?, taken, if_neg spells.notNil, spells.value, List.drop_left]

theorem takeDigits?_spells (taken : takeDigits? cs = some (n, rest)) :
    ∃ digits, Spells n digits ∧ cs = digits ++ rest := by
  simp only [takeDigits?] at taken
  split at taken
  · exact nomatch taken
  · rename_i notNil
    obtain ⟨rfl, rfl⟩ := Prod.mk.inj (Option.some.inj taken)
    exact ⟨_, spells_takeWhile notNil, List.takeWhile_append_dropWhile.symm⟩

theorem takeDigits?_append (spells : Spells n digits)
    (ends : ∀ c ∈ rest.head?, isDigit c = false) :
    takeDigits? (digits ++ rest) = some (n, rest) := by
  rcases spells.takeWhile_append ends with ⟨taken, dropped⟩
  simp only [takeDigits?, taken, dropped, if_neg spells.notNil, spells.value]

/-! ### Parts of a date -/

theorem exists_blanks (cs : List Char) :
    ∃ blanks, (∀ c ∈ blanks, isBlank c) ∧ cs = blanks ++ trimLeft cs :=
  ⟨cs.takeWhile isBlank, fun _ mem => List.mem_takeWhile_imp mem,
    List.takeWhile_append_dropWhile.symm⟩

theorem takeTwoDigits?_spells (taken : takeTwoDigits? cs = some (n, rest)) :
    ∃ part, SpellsPart n part ∧ cs = part ++ rest := by
  rcases exists_blanks cs with ⟨blanks, areBlank, isText⟩
  rcases takeNumber?_spells taken with ⟨digits, spells, short, isRest⟩
  refine ⟨blanks ++ digits, .mk areBlank spells short, ?_⟩
  rw [List.append_assoc, ← isRest]
  exact isText

theorem takeTwoDigits?_append {part : List Char} (spells : SpellsPart n part)
    (ends : ∀ c ∈ rest.head?, isDigit c = false) :
    takeTwoDigits? (part ++ rest) = some (n, rest) := by
  rcases spells with ⟨areBlank, spells, short⟩
  rw [takeTwoDigits?, List.append_assoc, trimLeft_append areBlank, spells.trimLeft_append]
  exact takeNumber?_append spells short fun _ => ends

theorem takeYear?_spells (taken : takeYear? cs = some (year, rest)) :
    ∃ part, SpellsYear year part ∧ cs = part ++ rest := by
  rcases exists_blanks cs with ⟨blanks, areBlank, isText⟩
  unfold takeYear? at taken
  split at taken
  · rename_i signed
    rcases Option.map_eq_some_iff.mp taken with ⟨⟨n, tail⟩, takes, same⟩
    obtain ⟨rfl, rfl⟩ := Prod.mk.inj same
    rcases takeDigits?_spells takes with ⟨digits, spells, rfl⟩
    refine ⟨_, .minus areBlank spells, ?_⟩
    rw [isText, signed, List.append_assoc, List.cons_append]
  · rename_i signed
    rcases Option.map_eq_some_iff.mp taken with ⟨⟨n, tail⟩, takes, same⟩
    obtain ⟨rfl, rfl⟩ := Prod.mk.inj same
    rcases takeDigits?_spells takes with ⟨digits, spells, rfl⟩
    refine ⟨_, .plus areBlank spells, ?_⟩
    rw [isText, signed, List.append_assoc, List.cons_append]
  · rcases Option.map_eq_some_iff.mp taken with ⟨⟨n, tail⟩, takes, same⟩
    obtain ⟨rfl, rfl⟩ := Prod.mk.inj same
    rcases takeNumber?_spells takes with ⟨digits, spells, short, isRest⟩
    refine ⟨_, .plain areBlank spells short, ?_⟩
    rw [List.append_assoc, ← isRest]
    exact isText

theorem takeYear?_append {part : List Char} (spells : SpellsYear year part)
    (ends : ∀ c ∈ rest.head?, isDigit c = false) :
    takeYear? (part ++ rest) = some (year, rest) := by
  cases spells with
  | plain areBlank spells short =>
      rw [List.append_assoc, takeYear?, trimLeft_append areBlank, spells.trimLeft_append]
      have taken := takeNumber?_append spells short fun _ => ends
      rcases spells.exists_cons with ⟨c, tail, rfl, isDigit⟩
      split
      · rename_i same
        rw [(List.cons.inj same).1] at isDigit
        exact absurd isDigit (by decide)
      · rename_i same
        rw [(List.cons.inj same).1] at isDigit
        exact absurd isDigit (by decide)
      · rw [taken]
        rfl
  | minus areBlank spells =>
      rw [List.append_assoc, takeYear?, trimLeft_append areBlank, List.cons_append,
        trimLeft_cons (by decide)]
      exact congrArg (Option.map _) (takeDigits?_append spells ends)
  | plus areBlank spells =>
      rw [List.append_assoc, takeYear?, trimLeft_append areBlank, List.cons_append,
        trimLeft_cons (by decide)]
      exact congrArg (Option.map _) (takeDigits?_append spells ends)

theorem takeChar?_eq_some_iff {c : Char} : takeChar? c cs = some rest ↔ cs = c :: rest := by
  cases cs with
  | nil => simp [takeChar?]
  | cons d tail => simp [takeChar?, ite_eq_iff]

/-! ### Dates -/

/-- A text that spells a date is read as that date if it is valid, and else not at all. -/
theorem SpellsDate.readDate? (spells : SpellsDate date cs) :
    readDate? cs = if date.isValid then some date else none := by
  rcases spells with ⟨spellsDay, spellsMonth, spellsYear⟩
  have point (rest : List Char) : ∀ c ∈ ('.' :: rest).head?, isDigit c = false := by
    rintro c ⟨⟩
    decide
  have noneLeft : ∀ c ∈ ([] : List Char).head?, isDigit c = false := nofun
  have year := takeYear?_append spellsYear noneLeft
  rw [List.append_nil] at year
  simp [Calendar.readDate?, takeTwoDigits?_append spellsDay (point _), takeChar?,
    takeTwoDigits?_append spellsMonth (point _), year]

/-- Exactly the texts that spell a valid date are read, and as that date. -/
theorem readDate?_eq_some_iff :
    readDate? cs = some date ↔ date.isValid ∧ SpellsDate date cs := by
  constructor
  · intro reads
    simp only [readDate?, Option.bind_eq_bind, Option.bind_eq_some_iff, Prod.exists,
      takeChar?_eq_some_iff] at reads
    rcases reads with ⟨day, _, isDay, _, rfl, month, _, isMonth, _, rfl, year, rest, isYear, ends⟩
    split at ends
    · rename_i whole
      obtain rfl := Option.some.inj ends
      rcases whole with ⟨rfl, isValid⟩
      rcases takeTwoDigits?_spells isDay with ⟨dayPart, spellsDay, rfl⟩
      rcases takeTwoDigits?_spells isMonth with ⟨monthPart, spellsMonth, rfl⟩
      rcases takeYear?_spells isYear with ⟨yearPart, spellsYear, rfl⟩
      rw [List.append_nil]
      exact ⟨isValid, .mk spellsDay spellsMonth spellsYear⟩
    · exact nomatch ends
  · rintro ⟨isValid, spells⟩
    rw [spells.readDate?, if_pos isValid]

/-- A text that is read spells one date only. -/
theorem spellsDate_iff_of_readDate? {other : Date} (reads : readDate? cs = some date) :
    SpellsDate other cs ↔ other = date := by
  constructor
  · intro spells
    rw [spells.readDate?] at reads
    split at reads
    · exact Option.some.inj reads
    · exact nomatch reads
  · rintro rfl
    exact (readDate?_eq_some_iff.mp reads).2

theorem isValid_of_readDate? (reads : readDate? cs = some date) : date.isValid :=
  (readDate?_eq_some_iff.mp reads).1

/-- The spelling of a year ends with a digit. -/
theorem SpellsYear.exists_concat {part : List Char} (spells : SpellsYear year part) :
    ∃ front c, part = front ++ [c] ∧ isDigit c := by
  cases spells with
  | plain areBlank spells short =>
      rcases spells.exists_concat with ⟨front, c, rfl, isDigit⟩
      exact ⟨_, c, (List.append_assoc ..).symm, isDigit⟩
  | minus areBlank spells =>
      rcases spells.exists_concat with ⟨front, c, rfl, isDigit⟩
      exact ⟨_, c, (List.append_assoc _ ('-' :: front) [c]).symm, isDigit⟩
  | plus areBlank spells =>
      rcases spells.exists_concat with ⟨front, c, rfl, isDigit⟩
      exact ⟨_, c, (List.append_assoc _ ('+' :: front) [c]).symm, isDigit⟩

/-- Blanks around a date literal do not count. -/
theorem readDate?_trim (reads : readDate? cs = some date) : readDate? (trim cs) = some date := by
  rw [readDate?_eq_some_iff] at reads ⊢
  rcases reads with ⟨isValid, ⟨⟨areBlank, spells, short⟩, spellsMonth, spellsYear⟩⟩
  refine ⟨isValid, ?_⟩
  rw [List.append_assoc, trim_append areBlank]
  · exact .mk (spellsPart_of_spells spells short) spellsMonth spellsYear
  · rcases spells.exists_cons with ⟨c, tail, rfl, isDigit⟩
    rintro _ ⟨⟩
    exact isBlank_of_isDigit isDigit
  · rcases spellsYear.exists_concat with ⟨front, c, rfl, isDigit⟩
    intro d isLast
    simp only [← List.cons_append, ← List.append_assoc, List.getLast?_concat] at isLast
    obtain rfl := Option.some.inj isLast
    exact isBlank_of_isDigit isDigit

theorem spellsYear_yearText (year : Int) : SpellsYear year (yearText year) := by
  have spells := spells_padded 4 year.natAbs
  have noBlanks : ∀ c ∈ ([] : List Char), isBlank c := nofun
  rw [yearText]
  split
  · rename_i isPlain
    have short : (padded 4 year.natAbs).length ≤ 4 := Nat.le_of_eq (length_padded (by omega))
    have plain := SpellsYear.plain noBlanks spells short
    rwa [Int.natAbs_of_nonneg isPlain.1] at plain
  · split
    · rename_i isNegative
      have minus := SpellsYear.minus noBlanks spells
      rwa [← Int.eq_neg_natAbs_of_nonpos (Int.le_of_lt isNegative)] at minus
    · rename_i notNegative
      have plus := SpellsYear.plus noBlanks spells
      rwa [Int.natAbs_of_nonneg (Int.not_lt.mp notNegative)] at plus

/-- The text of an instant of a year that there is spells its date. -/
theorem readDate?_dateLiteral {instant : Instant} (inRange : instant.isInRange) :
    readDate? instant.dateLiteral.toList = some instant.date := by
  have years := Instant.isInRange_iff.mp inRange
  have isValid : instant.date.isValid := Date.isValid_ofDayNumber years.1 years.2
  rcases (Date.isValid_iff _).mp isValid with ⟨-, ⟨-, monthLe⟩, -, dayLe⟩
  have lastDay := daysInMonth_le instant.date.year instant.date.month
  have part {n : Nat} (lt : n < 100) : SpellsPart n (padded 2 n) :=
    spellsPart_of_spells (spells_padded 2 n) (Nat.le_of_eq (length_padded lt))
  rw [readDate?_eq_some_iff]
  refine ⟨isValid, ?_⟩
  have spellsDay : SpellsPart instant.date.day _ := part (by omega)
  have spellsMonth : SpellsPart instant.date.month _ := part (by omega)
  have spells := SpellsDate.mk spellsDay spellsMonth (spellsYear_yearText instant.date.year)
  simpa [Instant.dateLiteral] using spells

/-- A text that spells a date is no integer. -/
theorem readInteger?_of_readDate? (reads : readDate? cs = some date) : readInteger? cs = none := by
  rcases (readDate?_eq_some_iff.mp reads).2 with ⟨-, -, -⟩
  exact readInteger?_eq_none (c := '.') (by simp) (by decide) (by decide) (by decide)

end TestEngine.Calendar
