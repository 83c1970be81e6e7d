import TestEngine.Proofs.Calendar.Literal
import TestEngine.Proofs.Condition.Order

/-!
# Dates follow the calendar

A date is compared by its milliseconds, with a literal that is read as milliseconds or else as a
date. No text is both, and midnights follow each other as their dates do; so a property that has
been set from one date stands to another date as the calendar says, whichever way that one is
written.
-/

namespace TestEngine

open Text Calendar

namespace Condition

variable {operator : Operator} {property : Option Property} {literal : Option String}
  {ordering : Ordering} {date : Date} {cs : List Char}

/-! ### What a date is compared with -/

theorem readInt64?_eq_none (notInteger : readInteger? cs = none) : readInt64? cs = none := by
  rw [readInt64?, notInteger, Option.bind_none]

/-- A literal that spells a date is compared as the midnight that begins it. -/
theorem readMillis?_of_readDate? (reads : readDate? cs = some date) :
    readMillis? (trim cs) = some (Instant.ofDate date).epochMillis := by
  have trimmed := readDate?_trim reads
  simp only [readMillis?, readInt64?_eq_none (readInteger?_of_readDate? trimmed),
    readDateLiteral?, trimmed, Option.map_some]

/-- A literal that is a number is compared as that many milliseconds. -/
theorem readMillis?_integerText {millis : Int} (ge : -2 ^ 63 ≤ millis) (lt : millis < 2 ^ 63) :
    readMillis? (trim (integerText millis).toList) = some millis := by
  have reads := readInt64?_integerText_of_le ge lt
  rcases Option.map_eq_some_iff.mp reads with ⟨number, isNumber, isMillis⟩
  simp only [readMillis?, trim_integerText, isNumber, isMillis]

/-! ### Comparisons -/

/-- What the comparison operators say of a property that stands to a literal as given, and what the
guards say that ask them. -/
structure Compares (property : Option Property) (literal : Option String) (ordering : Ordering) :
    Prop where
  less : evaluate property .lt literal = .ok (ordering == .lt)
  equal : evaluate property .equals literal = .ok (ordering == .eq)
  greater : evaluate property .gt literal = .ok (ordering == .gt)
  guards (store : Store) (guard : Guard) : guard.Asks store property literal →
    (guard.operator = .lt → guard.holds store = (ordering == .lt)) ∧
      (guard.operator = .equals → guard.holds store = (ordering == .eq)) ∧
        (guard.operator = .gt → guard.holds store = (ordering == .gt))

theorem compares_of_stand
    (stands : stand operator (operand property) literal = .ok (some ordering)) :
    Compares property literal ordering := by
  have less : evaluate property .lt literal = .ok (ordering == .lt) := by
    rw [evaluate_ordering rfl, stand_congr .lt stands]
    cases ordering <;> rfl
  have equal : evaluate property .equals literal = .ok (ordering == .eq) := by
    rw [evaluate_equals stands]
    cases ordering <;> rfl
  have greater : evaluate property .gt literal = .ok (ordering == .gt) := by
    rw [evaluate_ordering rfl, stand_congr .gt stands]
    cases ordering <;> rfl
  refine ⟨less, equal, greater, fun store guard asks => ?_⟩
  rw [Guard.holds_eq asks]
  refine ⟨fun isOperator => ?_, fun isOperator => ?_, fun isOperator => ?_⟩
  · rw [isOperator, less]
  · rw [isOperator, equal]
  · rw [isOperator, greater]

/-- A date stands to a literal as its milliseconds do to those that the literal denotes. -/
theorem stand_date (operator : Operator) {instant : Instant} {text : String} {millis : Int}
    (reads : readMillis? (trim text.toList) = some millis) :
    stand operator (some (.date (some instant))) (some text) =
      .ok (some (compare instant.epochMillis millis)) := by
  apply stand_eq_ok_iff.mpr
  refine ⟨_, ?_, rfl⟩
  simp only [compareWith, reads]

end Condition

/-- A date property is set from the texts of a date, whatever blanks there are around them. -/
theorem Property.setLiteral_date_iff {property : Property} {literal : String} {date : Date}
    (isDate : property.kind = .date) (isValid : date.isValid) :
    property.setLiteral literal = .ok { property with value := .date (some (.ofDate date)) } ↔
      SpellsDate date (trim literal.toList) := by
  have spells : SpellsDate date (trim literal.toList) ↔
      readDate? (trim literal.toList) = some date := by
    rw [readDate?_eq_some_iff, and_iff_right isValid]
  rw [spells]
  simp only [setLiteral, isDate, Value.ofLiteral, readDateLiteral?]
  cases reads : readDate? (trim literal.toList) with
  | none => simp [Except.map]
  | some other =>
      have injective : Instant.ofDate other = .ofDate date ↔ other = date := by
        refine ⟨fun same => ?_, congrArg _⟩
        rw [← Instant.date_ofDate (isValid_of_readDate? reads), same, Instant.date_ofDate isValid]
      simp [Except.map, injective]

theorem Property.setLiteral_date {property : Property} {literal : String} {date : Date}
    (isDate : property.kind = .date) (reads : readDate? literal.toList = some date) :
    property.setLiteral literal =
      .ok { property with value := .date (some (.ofDate date)) } := by
  rcases readDate?_eq_some_iff.mp (readDate?_trim reads) with ⟨isValid, spells⟩
  exact (setLiteral_date_iff isDate isValid).mpr spells

/-- Guards on dates follow the calendar. Two texts that are read as dates spell one date each, and a
date property that has been set from the first is less than the second, equal to it or greater as
the first date comes before the second, is the same or comes after it; and it compares in the same
way with the milliseconds of the second, written as a number. -/
theorem Condition.dates_follow_calendar {property : Property} {first second : String}
    {start finish : Instant} (isDate : property.kind = .date)
    (reads : readDateLiteral? first.toList = some start)
    (readsSecond : readDateLiteral? second.toList = some finish) :
    ∃ earlier later : Date, (∀ date, SpellsDate date first.toList ↔ date = earlier) ∧
      (∀ date, SpellsDate date second.toList ↔ date = later) ∧
        ∃ written, property.setLiteral first = .ok written ∧
          Condition.Compares (some written) (some second) (earlier.order later) ∧
            Condition.Compares (some written) (some (integerText finish.epochMillis))
              (earlier.order later) := by
  rcases Option.map_eq_some_iff.mp reads with ⟨earlier, isEarlier, rfl⟩
  rcases Option.map_eq_some_iff.mp readsSecond with ⟨later, isLater, rfl⟩
  have isValid := isValid_of_readDate? isEarlier
  have isValidSecond := isValid_of_readDate? isLater
  have bounds := Date.epochMillis_bounds isValidSecond
  have compares {text : String} (denotes : Condition.readMillis? (trim text.toList) =
      some (Instant.ofDate later).epochMillis) :
      Condition.Compares (some { property with value := .date (some (.ofDate earlier)) })
        (some text) (earlier.order later) := by
    rw [← Date.compare_epochMillis isValid isValidSecond]
    exact Condition.compares_of_stand (Condition.stand_date .lt denotes)
  exact ⟨earlier, later, fun _ => spellsDate_iff_of_readDate? isEarlier,
    fun _ => spellsDate_iff_of_readDate? isLater, _, Property.setLiteral_date isDate isEarlier,
    compares (Condition.readMillis?_of_readDate? isLater),
    compares (Condition.readMillis?_integerText bounds.1 bounds.2)⟩

/-- The leap day of a year before zero, and the day after it. -/
theorem Condition.leap_day_before_march :
    let due : Property := .of "due" (.date none)
    readDateLiteral? "29.2.-4".toList = some (.ofDate ⟨-4, 2, 29⟩) ∧
      readDateLiteral? " 1.03.-0004".toList = some (.ofDate ⟨-4, 3, 1⟩) ∧
        ∃ written, due.setLiteral "29.2.-4" = .ok written ∧
          Condition.Compares (some written) (some " 1.03.-0004") .lt := by
  have leapDay : readDate? "29.2.-4".toList = some ⟨-4, 2, 29⟩ := by decide
  have nextDay : readDate? " 1.03.-0004".toList = some ⟨-4, 3, 1⟩ := by decide
  have reads := congrArg (Option.map Instant.ofDate) leapDay
  have readsSecond := congrArg (Option.map Instant.ofDate) nextDay
  have isDate : (Property.of "due" (.date none)).kind = .date := rfl
  rcases Condition.dates_follow_calendar isDate reads readsSecond with
    ⟨earlier, later, spells, spellsSecond, written, sets, compares, -⟩
  obtain rfl := (spells _).mp (readDate?_eq_some_iff.mp leapDay).2
  obtain rfl := (spellsSecond _).mp (readDate?_eq_some_iff.mp nextDay).2
  exact ⟨reads, readsSecond, written, sets, compares⟩

end TestEngine
