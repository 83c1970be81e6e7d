import TestEngine.Proofs.Calendar.Literal

/-!
# Timestamps read back

The timestamp of an instant is read back as the instant, for all years that there are and with any
number of nanoseconds. A leap second needs to be the last second of a minute, since that is where a
text can say that it is one. Nothing else is ever read from a text.
-/

namespace TestEngine.Calendar

open Text

/-- An instant of a year that there is, in a leap second only at the end of a minute. -/
structure Instant.IsRegular (instant : Instant) : Prop where
  inRange : instant.isInRange
  leaps : instant.nano < nanosPerSecond ∨
    instant.second % 60 = 59 ∧ instant.nano < 2 * nanosPerSecond

/-! ### Parts of a text -/

theorem takeTwoDigits?_padded {n : Nat} (lt : n < 100) (rest : List Char) :
    takeTwoDigits? (padded 2 n ++ rest) = some (n, rest) := by
  have spells := spells_padded 2 n
  have length : (padded 2 n).length = 2 := length_padded lt
  rw [takeTwoDigits?, spells.trimLeft_append]
  exact takeNumber?_append spells (Nat.le_of_eq length) fun short => by omega

theorem takeChar?_trimLeft {c : Char} (notBlank : isBlank c = false) (rest : List Char) :
    takeChar? c (trimLeft (c :: rest)) = some rest :=
  takeChar?_eq_some_iff.mpr (trimLeft_cons notBlank rest)

/-! ### Days -/

theorem takeDay?_text {date : Date} (isValid : date.isValid) (rest : List Char) :
    takeDay? (yearText date.year ++ '-' :: (padded 2 date.month ++
      '-' :: (padded 2 date.day ++ rest))) = some (date, rest) := by
  rcases (Date.isValid_iff date).mp isValid with ⟨-, ⟨-, monthLe⟩, -, dayLe⟩
  have lastDay := daysInMonth_le date.year date.month
  have year (rest : List Char) : takeYear? (yearText date.year ++ '-' :: rest) =
      some (date.year, '-' :: rest) := by
    apply takeYear?_append (spellsYear_yearText date.year)
    rintro c ⟨⟩
    decide
  have month (rest : List Char) : takeTwoDigits? (padded 2 date.month ++ rest) =
      some (date.month, rest) := takeTwoDigits?_padded (by omega) rest
  have day : takeTwoDigits? (padded 2 date.day ++ rest) = some (date.day, rest) :=
    takeTwoDigits?_padded (by omega) rest
  have separator (rest : List Char) : takeChar? '-' (trimLeft ('-' :: rest)) = some rest :=
    takeChar?_trimLeft (by decide) rest
  simp only [takeDay?, year, separator, month, day, Option.bind_eq_bind, Option.bind_some,
    if_pos isValid]

/-! ### Times -/

theorem takeFraction?_padded {width n : Nat} (le : width ≤ 8) (lt : n < 10 ^ (width + 1))
    {c : Char} (notDigit : isDigit c = false) (rest : List Char) :
    takeFraction? ('.' :: (padded (width + 1) n ++ c :: rest)) =
      some (n * 10 ^ (8 - width), c :: rest) := by
  have ends : ∀ d ∈ (c :: rest).head?, isDigit d = false := by
    rintro d ⟨⟩
    exact notDigit
  rcases (spells_padded (width + 1) n).takeWhile_append ends with ⟨taken, dropped⟩
  have length := length_padded lt
  have kept : (padded (width + 1) n).take 9 = padded (width + 1) n := by
    apply List.take_of_length_le
    omega
  have missing : 9 - (width + 1) = 8 - width := by omega
  simp only [takeFraction?, taken, dropped, if_neg (padded_ne_nil _ n), kept, valueOfDigits_padded,
    length, missing]
  rfl

theorem takeFraction?_fractionText {nano : Nat} (lt : nano < nanosPerSecond) {c : Char}
    (notDigit : isDigit c = false) (notPoint : c ≠ '.') (rest : List Char) :
    takeFraction? (fractionText nano ++ c :: rest) = some (nano, c :: rest) := by
  simp only [nanosPerSecond] at lt
  rw [fractionText]
  split
  · rename_i isZero
    simp only [List.nil_append]
    rw [takeFraction?]
    · rw [isZero]
    · rintro cs same
      exact notPoint (List.cons.inj same).1
  · split
    · rename_i millis
      rw [List.cons_append, takeFraction?_padded (by omega) (by omega) notDigit]
      simp only [Option.some.injEq, Prod.mk.injEq, and_true]
      omega
    · split
      · rename_i micros
        rw [List.cons_append, takeFraction?_padded (by omega) (by omega) notDigit]
        simp only [Option.some.injEq, Prod.mk.injEq, and_true]
        omega
      · rw [List.cons_append, takeFraction?_padded (by omega) (by omega) notDigit]
        simp only [Option.some.injEq, Prod.mk.injEq, and_true]
        omega

/-- A time of a day is read back from its text; only the last second of a minute may be followed by
a leap second. -/
theorem takeTime?_text {second nano leap : Nat} (inDay : second < secondsPerDay)
    (nanoLt : nano < nanosPerSecond) (leapLe : leap ≤ 1) (atEnd : leap = 1 → second % 60 = 59)
    {c : Char} (notDigit : isDigit c = false) (notPoint : c ≠ '.') (rest : List Char) :
    takeTime? (padded 2 (second / 3600) ++ ':' :: (padded 2 (second / 60 % 60) ++
      ':' :: (padded 2 (second % 60 + leap) ++ (fractionText nano ++ c :: rest)))) =
        some (⟨second, nano + leap * nanosPerSecond⟩, c :: rest) := by
  simp only [secondsPerDay] at inDay
  have hours (rest : List Char) : takeTwoDigits? (padded 2 (second / 3600) ++ rest) =
      some (second / 3600, rest) := takeTwoDigits?_padded (by omega) rest
  have minutes (rest : List Char) : takeTwoDigits? (padded 2 (second / 60 % 60) ++ rest) =
      some (second / 60 % 60, rest) := takeTwoDigits?_padded (by omega) rest
  have seconds (rest : List Char) : takeTwoDigits? (padded 2 (second % 60 + leap) ++ rest) =
      some (second % 60 + leap, rest) := takeTwoDigits?_padded (by omega) rest
  have separator (rest : List Char) : takeChar? ':' (trimLeft (':' :: rest)) = some rest :=
    takeChar?_trimLeft (by decide) rest
  have isTime : second / 3600 ≤ 23 ∧ second / 60 % 60 ≤ 59 ∧ second % 60 + leap ≤ 60 := by omega
  simp only [takeTime?, hours, separator, minutes, seconds,
    takeFraction?_fractionText nanoLt notDigit notPoint, Option.bind_eq_bind, Option.bind_some,
    if_pos isTime]
  split
  · rename_i isLeap
    obtain rfl : leap = 1 := by omega
    simp only [Option.some.injEq, Prod.mk.injEq, TimeOfDay.mk.injEq, and_true]
    omega
  · rename_i notLeap
    obtain rfl : leap = 0 := by omega
    simp only [Option.some.injEq, Prod.mk.injEq, TimeOfDay.mk.injEq, and_true]
    omega

/-! ### Instants -/

namespace Instant

theorem secondOfDay_lt (instant : Instant) : instant.secondOfDay < secondsPerDay := by
  simp only [secondOfDay, secondsPerDay]
  omega

theorem secondOfDay_mod (instant : Instant) :
    (instant.secondOfDay % 60 : Nat) = instant.second % 60 := by
  simp only [secondOfDay, secondsPerDay]
  omega

/-- The nanoseconds of a regular instant, apart from those of a whole leap second. -/
theorem IsRegular.exists_leap {instant : Instant} (regular : instant.IsRegular) :
    ∃ nano leap, nano < nanosPerSecond ∧ leap ≤ 1 ∧
      (leap = 1 → instant.secondOfDay % 60 = 59) ∧
        instant.nano = nano + leap * nanosPerSecond := by
  rcases regular.leaps with lt | ⟨atEnd, lt⟩
  · exact ⟨instant.nano, 0, lt, Nat.zero_le 1, by omega, by omega⟩
  · by_cases isLeap : instant.nano < nanosPerSecond
    · exact ⟨instant.nano, 0, isLeap, Nat.zero_le 1, by omega, by omega⟩
    · have minute := instant.secondOfDay_mod
      exact ⟨instant.nano - nanosPerSecond, 1, by omega, Nat.le_refl 1, by omega, by omega⟩

theorem toList_timestamp {instant : Instant} {nano leap : Nat} (nanoLt : nano < nanosPerSecond)
    (leapLe : leap ≤ 1) (isNano : instant.nano = nano + leap * nanosPerSecond) :
    instant.timestamp.toList = yearText instant.date.year ++ '-' ::
      (padded 2 instant.date.month ++ '-' :: (padded 2 instant.date.day ++ 'T' ::
        (padded 2 (instant.secondOfDay / 3600) ++ ':' ::
          (padded 2 (instant.secondOfDay / 60 % 60) ++ ':' ::
            (padded 2 (instant.secondOfDay % 60 + leap) ++ (fractionText nano ++ ['Z'])))))) := by
  have isLeap : (if nanosPerSecond ≤ instant.nano then 1 else 0) = leap := by
    split <;> simp only [nanosPerSecond] at * <;> omega
  have rest : instant.nano - leap * nanosPerSecond = nano := by omega
  simp only [timestamp, isLeap, rest, String.toList_ofList, List.append_assoc, List.cons_append]

end Instant

/-- A regular instant is read back from its timestamp. -/
theorem readTimestamp?_timestamp {instant : Instant} (regular : instant.IsRegular) :
    readTimestamp? instant.timestamp = some instant := by
  have inRange := Instant.isInRange_iff.mp regular.inRange
  have isValid : instant.date.isValid := Date.isValid_ofDayNumber inRange.1 inRange.2
  rcases regular.exists_leap with ⟨nano, leap, nanoLt, leapLe, atEnd, isNano⟩
  have notDigit : isDigit 'Z' = false := by decide
  have notPoint : 'Z' ≠ '.' := by decide
  have time := takeTime?_text instant.secondOfDay_lt nanoLt leapLe atEnd notDigit notPoint []
  have isInstant : (⟨(Instant.ofDate instant.date).second + instant.secondOfDay - 0,
      nano + leap * nanosPerSecond⟩ : Instant) = instant := by
    rw [← isNano, Instant.ofDate, Int.sub_zero, Instant.dateTime_eq]
  have offset : takeOffset? (trimLeft ['Z']) = some (0, []) := by decide
  have isEnd : trimLeft [] = [] := rfl
  simp only [readTimestamp?, Instant.toList_timestamp nanoLt leapLe isNano, takeDay?_text isValid,
    time, offset, isEnd, isInstant, regular.inRange, true_or, and_self, if_true,
    Option.bind_eq_bind, Option.bind_some]

/-! ### Whatever is read -/

theorem takeFraction?_lt {cs rest : List Char} {nano : Nat}
    (taken : takeFraction? cs = some (nano, rest)) : nano < nanosPerSecond := by
  unfold takeFraction? at taken
  split at taken
  · rename_i tail
    dsimp only at taken
    split at taken
    · exact nomatch taken
    · rw [Option.some.injEq, Prod.mk.injEq] at taken
      rw [← taken.1]
      generalize kept : (tail.takeWhile isDigit).take 9 = digits
      have areDigits : ∀ c ∈ digits, isDigit c := by
        intro c cMem
        rw [← kept] at cMem
        exact List.mem_takeWhile_imp (List.mem_of_mem_take cMem)
      have length : digits.length ≤ 9 := by
        rw [← kept]
        exact List.length_take_le ..
      calc valueOfDigits digits * 10 ^ (9 - digits.length)
          < 10 ^ digits.length * 10 ^ (9 - digits.length) := by
            apply Nat.mul_lt_mul_of_pos_right (valueOfDigits_lt areDigits)
            exact Nat.pow_pos (by decide)
        _ = 10 ^ 9 := by
            rw [← Nat.pow_add]
            congr 1
            omega
  · rw [Option.some.injEq, Prod.mk.injEq] at taken
    rw [← taken.1]
    decide

theorem takeTime?_leaps {cs rest : List Char} {time : TimeOfDay}
    (taken : takeTime? cs = some (time, rest)) :
    time.nano < nanosPerSecond ∨ time.second % 60 = 59 ∧ time.nano < 2 * nanosPerSecond := by
  simp only [takeTime?, Option.bind_eq_bind, Option.bind_eq_some_iff, Prod.exists] at taken
  rcases taken with
    ⟨hour, _, -, _, -, minute, _, -, _, -, second, _, -, nano, _, fraction, isTime⟩
  have lt := takeFraction?_lt fraction
  split at isTime
  · split at isTime
    · obtain ⟨rfl, -⟩ := Prod.mk.inj (Option.some.inj isTime)
      dsimp only
      omega
    · obtain ⟨rfl, -⟩ := Prod.mk.inj (Option.some.inj isTime)
      exact .inl lt
  · exact nomatch isTime

theorem takeOffset?_minutes {cs rest : List Char} {offset : Int}
    (taken : takeOffset? cs = some (offset, rest)) : offset % 60 = 0 := by
  have signed {hours minutes : Nat} {sign : Int} {tail : List Char}
      (isOffset : (if hours ≤ 23 ∧ minutes ≤ 59 then
        some (sign * (hours * 3600 + minutes * 60 : Nat), tail) else none) = some (offset, rest)) :
      offset % 60 = 0 := by
    split at isOffset
    · obtain ⟨rfl, -⟩ := Prod.mk.inj (Option.some.inj isOffset)
      have whole : hours * 3600 + minutes * 60 = 60 * (hours * 60 + minutes) := by omega
      rw [whole, Int.natCast_mul, Int.mul_left_comm]
      exact Int.mul_emod_right 60 _
    · exact nomatch isOffset
  have zero {tail : List Char} (isZero : some ((0 : Int), tail) = some (offset, rest)) :
      offset % 60 = 0 := by
    obtain ⟨rfl, -⟩ := Prod.mk.inj (Option.some.inj isZero)
    rfl
  unfold takeOffset? at taken
  dsimp only [Option.bind_eq_bind] at taken
  split at taken
  case h_4 =>
    split at taken
    · exact zero taken
    · split at taken
      · exact zero taken
      · exact nomatch taken
  case h_5 => exact nomatch taken
  all_goals
    simp only [Option.bind_eq_some_iff, Prod.exists] at taken
    rcases taken with ⟨hours, _, -, minutes, _, -, isOffset⟩
    exact signed isOffset

theorem isRegular_of_readTimestamp? {text : String} {instant : Instant}
    (read : readTimestamp? text = some instant) : instant.IsRegular := by
  simp only [readTimestamp?, Option.bind_eq_bind, Option.bind_eq_some_iff, Prod.exists] at read
  rcases read with ⟨date, cs, -, read⟩
  split at read
  · split at read
    · simp only [Option.bind_some, Option.bind_eq_some_iff, Prod.exists] at read
      rcases read with ⟨time, _, isTime, offset, _, isOffset, isInstant⟩
      have leaps := takeTime?_leaps isTime
      have minutes := takeOffset?_minutes isOffset
      split at isInstant
      · rename_i inRange
        obtain rfl := Option.some.inj isInstant
        refine ⟨inRange.2, ?_⟩
        simp only [Instant.ofDate, secondsPerDay]
        omega
      · cases isInstant
    · cases read
  · cases read

/-- Exactly the regular instants are read back from their timestamps. -/
theorem readTimestamp?_timestamp_iff {instant : Instant} :
    readTimestamp? instant.timestamp = some instant ↔ instant.IsRegular :=
  ⟨isRegular_of_readTimestamp?, readTimestamp?_timestamp⟩

end TestEngine.Calendar
