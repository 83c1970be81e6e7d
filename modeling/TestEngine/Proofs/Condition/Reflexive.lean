import TestEngine.Proofs.Condition.Dates
import TestEngine.Proofs.Double.Text

/-!
# Properties equal to themselves

A guard that compares a property with itself, or with a copy of it, compares the property's value
with the value that is read from its text. Where the text says all of the value the two are equal.
It does not in two cases: the text of a date says no time of day, and that of a list no number of
items; and a NaN is equal to nothing.
-/

namespace TestEngine

open Text Calendar

variable {store : Store} {guard : Guard} {name : String} {property : Property} {value : Value}

/-! ### Values and their texts -/

/-- Whether an instant lies in the first millisecond of its day. -/
def Calendar.Instant.isMidnight (instant : Instant) : Bool :=
  instant.secondOfDay = 0 && instant.nano < 1000000

/-- Whether a value is equal to what is read from its own text. -/
def Value.equalsItself : Value → Bool
  | .double (some d) => d ≠ .nan
  | .date (some instant) => instant.isMidnight
  | .list _ => false
  | _ => true

/-- Whether a value's date, if it is one, is of a year that there is. -/
def Value.InCalendar (value : Value) : Prop :=
  ∀ instant, value = .date (some instant) → instant.isInRange

theorem Property.text?_eq (property : Property) : property.text? = property.value.text? := by
  cases property
  rw [text?]

/-- Null is what has no text. -/
theorem Value.text?_eq_none_iff : value.text? = none ↔ value.isNull := by
  cases value with
  | list items => simp [text?, isNull]
  | _ => simp [text?, isNull]

theorem Value.equalsItself_of_isNull (isNull : value.isNull) : value.equalsItself := by
  cases value with
  | double d => cases d with
    | none => rfl
    | some d => cases isNull
  | date instant => cases instant with
    | none => rfl
    | some instant => cases isNull
  | list items => cases isNull
  | _ => rfl

/-- The milliseconds of an instant are those of its date if it lies in the first of them. -/
theorem compare_epochMillis_date (instant : Instant) :
    (compare instant.epochMillis (Instant.ofDate instant.date).epochMillis == .eq) =
      instant.isMidnight := by
  have dateTime := instant.dateTime_eq
  rw [Bool.eq_iff_iff, beq_iff_eq, Int.compare_eq_eq]
  simp only [Instant.isMidnight, Bool.and_eq_true, decide_eq_true_eq, Instant.epochMillis,
    Instant.ofDate]
  omega

namespace Condition

/-- The text of a list is no number. -/
theorem equalsLiteral_list {items : List Property} {text : String}
    (isText : Value.text? (.list items) = some text) :
    equalsLiteral (.list items) text = .error (.unparsable text .list) := by
  have bracket : '[' ∈ trim text.toList := by
    rw [Value.text?] at isText
    rw [← Option.some.inj isText]
    exact mem_trim (by simp) (by decide)
  have notInteger := readInteger?_eq_none bracket (by decide) (by decide) (by decide)
  simp only [equalsLiteral, compareWith, readInt64?_eq_none notInteger, Option.map_none, Value.kind,
    Except.map]

/-- A value that is not null is equal to its own text if it is equal to what is read from it. -/
theorem equalsLiteral_text {text : String} (isText : value.text? = some text)
    (inCalendar : value.InCalendar) :
    equalsLiteral value text = .ok true ↔ value.equalsItself := by
  cases value with
  | boolean b =>
      rw [Value.text?] at isText
      rcases Option.map_eq_some_iff.mp isText with ⟨b, rfl, rfl⟩
      cases b <;> decide
  | integer n =>
      rw [Value.text?] at isText
      rcases Option.map_eq_some_iff.mp isText with ⟨n, rfl, rfl⟩
      have ge := n.le_toInt
      have lt := n.toInt_lt
      have reads : (readInt64? (integerText n.toInt).toList).map Int64.toInt = some n.toInt :=
        readInt64?_integerText_of_le (by omega) (by omega)
      simp [equalsLiteral, compareWith, reads, Except.map, Value.equalsItself]
  | long n =>
      rw [Value.text?] at isText
      rcases Option.map_eq_some_iff.mp isText with ⟨n, rfl, rfl⟩
      simp [equalsLiteral, compareWith, Except.map, Value.equalsItself]
  | double d =>
      rw [Value.text?] at isText
      rcases Option.map_eq_some_iff.mp isText with ⟨d, rfl, rfl⟩
      simp only [equalsLiteral, compareWith, Double.read?_display, Option.bind_some,
        Value.equalsItself]
      by_cases isNan : d = .nan
      · have incomparable : Double.nan.compare? .nan = none := rfl
        simp [isNan, incomparable, Except.map]
      · simp [isNan, Double.compare?_self isNan, Except.map]
  | date instant =>
      rw [Value.text?] at isText
      rcases Option.map_eq_some_iff.mp isText with ⟨instant, rfl, rfl⟩
      have reads := readMillis?_of_readDate? (readDate?_dateLiteral (inCalendar instant rfl))
      simp only [equalsLiteral, compareWith, reads, Except.map, Except.ok.injEq,
        compare_epochMillis_date, Value.equalsItself]
  | list items => simp [equalsLiteral_list isText, Value.equalsItself]
  | string value => simp [equalsLiteral, isText, Value.equalsItself]
  | xml value => simp [equalsLiteral, isText, Value.equalsItself]
  | xpath value => simp [equalsLiteral, isText, Value.equalsItself]
  | file value => simp [equalsLiteral, isText, Value.equalsItself]
  | sql value => simp [equalsLiteral, isText, Value.equalsItself]

/-! ### Operands and their texts -/

theorem operand_of_null (isNull : property.isNull) : operand (some property) = none :=
  Option.filter_eq_none_iff.mpr fun _ isValue => by
    cases isValue
    simpa [Property.isNull] using isNull

theorem operand_of_notNull (notNull : property.isNull = false) :
    operand (some property) = some property.value :=
  Option.filter_some_pos (by simpa [Property.isNull] using notNull)

/-- A property is equal to its own text, or to none if it has none, if its value is equal to what is
read from it. -/
theorem evaluate_text (inCalendar : property.value.InCalendar) :
    evaluate (some property) .equals property.value.text? = .ok true ↔
      property.value.equalsItself := by
  change equals (operand (some property)) property.value.text? = .ok true ↔ _
  cases isText : property.value.text? with
  | none =>
      have isNull := Value.text?_eq_none_iff.mp isText
      rw [operand_of_null isNull]
      exact iff_of_true rfl (Value.equalsItself_of_isNull isNull)
  | some text =>
      have notNull : property.isNull = false := Bool.eq_false_iff.mpr fun isNull =>
        nomatch isText.symm.trans (Value.text?_eq_none_iff.mpr isNull)
      rw [operand_of_notNull notNull]
      exact equalsLiteral_text isText inCalendar

end Condition

/-! ### Guards -/

/-- A guard that asks whether a property equals its own text. -/
theorem Guard.holds_equals_text (asks : guard.Asks store (some property) property.value.text?)
    (isEquals : guard.operator = .equals) (inCalendar : property.value.InCalendar) :
    guard.holds store = property.value.equalsItself := by
  rw [Guard.holds_eq asks, isEquals, Bool.eq_iff_iff, ← Condition.evaluate_text inCalendar]
  cases Condition.evaluate (some property) .equals property.value.text? <;> simp

/-- A copy under a fresh name has the value of what it is a copy of, which itself stays. -/
theorem PropertyAction.apply_copy {action : PropertyAction} (isCopy : action.verb = .copy)
    (hasSource : action.source = some name) (bound : store.get? name = some property)
    (fresh : store.get? action.target = none) :
    ∃ copied, action.apply store = (copied, none) ∧ copied.get? name = some property ∧
      copied.get? action.target = some (property.renamed action.target) := by
  refine ⟨store.put (property.renamed action.target), ?_, ?_, ?_⟩
  · simp only [apply, isCopy, copyTo, hasSource, bound, fresh]
    rfl
  · have ne : name ≠ action.target := by
      rintro rfl
      exact nomatch fresh.symm.trans bound
    rw [Store.put, NameMap.get?_insert, Property.name_renamed, if_neg ne, bound]
  · rw [Store.put, NameMap.get?_insert, Property.name_renamed, if_pos rfl]

/-- A guard that asks whether a property equals itself holds if the value of the property is equal
to what is read from its text, and it holds of no other value. That goes also for a copy of the
property under a fresh name. -/
theorem Guard.equals_itself (bound : store.get? name = some property)
    (inCalendar : property.value.InCalendar) :
    (∀ literal, (Guard.mk name .equals literal (some name)).holds store =
        property.value.equalsItself) ∧
      ∀ action : PropertyAction, action.verb = .copy → action.source = some name →
        store.get? action.target = none →
          ∃ copied, action.apply store = (copied, none) ∧
            ∀ literal, (Guard.mk name .equals literal (some action.target)).holds copied =
              property.value.equalsItself := by
  have asks {there : Store} {other : String} {twin : Property} (literal : Option String)
      (boundThere : there.get? name = some property) (boundTwin : there.get? other = some twin)
      (same : twin.value = property.value) :
      (Guard.mk name .equals literal (some other)).Asks there (some property)
        property.value.text? := by
    refine ⟨boundThere, ?_⟩
    simp only [Guard.literal, boundTwin, Option.bind_some, Property.text?_eq, same]
  constructor
  · intro literal
    exact holds_equals_text (asks literal bound bound rfl) rfl inCalendar
  · intro action isCopy hasSource fresh
    rcases PropertyAction.apply_copy isCopy hasSource bound fresh with
      ⟨copied, applied, boundThere, isCopied⟩
    refine ⟨copied, applied, fun literal => ?_⟩
    exact holds_equals_text (asks literal boundThere isCopied rfl) rfl inCalendar

/-- A leap day of a year before zero equals itself and a copy of it. -/
theorem Guard.leap_day_equals_itself :
    let due : Property := .of "due" (.date (some (.ofDate ⟨-4, 2, 29⟩)))
    let store : Store := .ofList [("due", due)]
    (Guard.mk "due" .equals none (some "due")).holds store = true ∧
      ∃ copied, (PropertyAction.mk .copy "copy" (some "due") none none).apply store =
          (copied, none) ∧
        (Guard.mk "due" .equals none (some "copy")).holds copied = true := by
  intro due store
  have bound : store.get? "due" = some due := rfl
  have inCalendar : due.value.InCalendar := by
    rintro _ ⟨⟩
    decide
  rcases Guard.equals_itself bound inCalendar with ⟨itself, copies⟩
  rcases copies ⟨.copy, "copy", some "due", none, none⟩ rfl rfl rfl with ⟨copied, applied, isCopy⟩
  exact ⟨itself none, copied, applied, isCopy none⟩

/-- Noon does not equal itself, since its text is read as midnight. -/
theorem Guard.noon_differs_from_itself :
    let noon : Instant := ⟨15687 * 86400 + 43200, 0⟩
    let due : Property := .of "due" (.date (some noon))
    let store : Store := .ofList [("due", due)]
    store.get? "due" = some due ∧ due.isNull = false ∧ due.kind = .date ∧
      due.value.InCalendar ∧ (Guard.mk "due" .equals none (some "due")).holds store = false := by
  intro noon due store
  have inCalendar : due.value.InCalendar := by
    rintro _ ⟨⟩
    decide
  exact ⟨rfl, rfl, rfl, inCalendar, Guard.holds_equals_text ⟨rfl, rfl⟩ rfl inCalendar⟩

end TestEngine
