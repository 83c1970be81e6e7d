import TestEngine.Proofs.Condition.Reflexive
import TestEngine.Proofs.Script.Target

/-!
# Literals read back

Readers of literals are generous: they skip blanks, zeros and signs, take dates with days of one
digit and booleans in any case. Writers are not, and write each value in one way. What has been read
from a literal is read again from what is written of it, and is equal to that; a literal that cannot
be read changes nothing.
-/

namespace TestEngine

open Text Calendar

variable {property written : Property} {value : Value} {literal text : String}

/-! ### Values of literals -/

/-- The values that there are literals of. -/
inductive Value.Denoted : Value → Prop where
  | boolean (b : Bool) : Denoted (.boolean (some b))
  | integer (n : Int32) : Denoted (.integer (some n))
  | long (n : Int64) : Denoted (.long (some n))
  | double (d : Double) : Denoted (.double (some d))
  | date {date : Date} (isValid : date.isValid) : Denoted (.date (some (.ofDate date)))
  | string (text : String) : Denoted (.string (some text))
  | xml (text : String) : Denoted (.xml (some text))
  | xpath (text : String) : Denoted (.xpath (some text))
  | file (text : String) : Denoted (.file (some text))
  | sql (text : String) : Denoted (.sql (some text))

namespace Value

theorem denoted_of_ofLiteral {kind : PropertyKind} (reads : ofLiteral kind literal = .ok value) :
    value.Denoted := by
  unfold ofLiteral at reads
  cases kind with
  | date =>
      dsimp only at reads
      split at reads
      · rename_i instant isInstant
        rcases Option.map_eq_some_iff.mp isInstant with ⟨date, isDate, rfl⟩
        cases reads
        exact .date (isValid_of_readDate? isDate)
      · cases reads
  | list => cases reads
  | _ =>
      -- A reader that can fail has not.
      dsimp only at reads
      (try split at reads) <;> cases reads
      constructor

namespace Denoted

theorem inCalendar (denoted : value.Denoted) : value.InCalendar := by
  rintro _ rfl
  cases denoted with
  | date isValid =>
      rw [Instant.isInRange_iff, Instant.date_ofDate isValid]
      exact ((Date.isValid_iff _).mp isValid).1

theorem equalsItself (denoted : value.Denoted) (notNan : value ≠ .double (some .nan)) :
    value.equalsItself := by
  cases denoted with
  | date isValid =>
      rw [Value.equalsItself, ← compare_epochMillis_date, Instant.date_ofDate isValid, beq_iff_eq]
      exact Int.compare_eq_eq.mpr rfl
  | double d =>
      have notNan : d ≠ .nan := fun isNan => notNan (by rw [isNan])
      exact decide_eq_true notNan
  | _ => rfl

/-- What is written of a value is read as that value. -/
theorem exists_text (denoted : value.Denoted) :
    ∃ text, value.text? = some text ∧ ofLiteral value.kind text = .ok value := by
  cases denoted with
  | boolean b => cases b <;> exact ⟨_, rfl, rfl⟩
  | integer n => exact ⟨integerText n.toInt, rfl, by simp [ofLiteral, kind]⟩
  | long n => exact ⟨integerText n.toInt, rfl, by simp [ofLiteral, kind]⟩
  | double d => exact ⟨d.display, rfl, by simp [ofLiteral, kind, Double.read?_display]⟩
  | @date date isValid =>
      have inRange := (Denoted.date isValid).inCalendar _ rfl
      have reads := readDate?_trim (readDate?_dateLiteral inRange)
      rw [Instant.date_ofDate isValid] at reads
      exact ⟨(Instant.ofDate date).dateLiteral, rfl, by
        simp [ofLiteral, kind, readDateLiteral?, reads]⟩
  | _ => exact ⟨_, rfl, rfl⟩

end Denoted

end Value

/-! ### Properties -/

/-- A property whose text is read as what the property is, and which is equal to that text unless it
is not a number. -/
structure Property.ReadsBack (property : Property) (text : String) : Prop where
  isText : property.text? = some text
  sets : property.setLiteral text = .ok property
  equal : property.value ≠ .double (some .nan) →
    Condition.evaluate (some property) .equals (some text) = .ok true

theorem Property.readsBack_of_denoted (denoted : property.value.Denoted) :
    ∃ text, property.ReadsBack text := by
  rcases denoted.exists_text with ⟨text, isText, reads⟩
  refine ⟨text, ?_, ?_, fun notNan => ?_⟩
  · rw [Property.text?_eq, isText]
  · rw [setLiteral, kind, reads]
    cases property
    rfl
  · rw [← isText]
    exact (Condition.evaluate_text denoted.inCalendar).mpr (denoted.equalsItself notNan)

theorem Property.denoted_of_setLiteral (writes : property.setLiteral literal = .ok written) :
    written.value.Denoted := by
  rw [setLiteral] at writes
  cases reads : Value.ofLiteral property.kind literal with
  | error problem =>
      rw [reads] at writes
      cases writes
  | ok value =>
      rw [reads] at writes
      cases writes
      exact Value.denoted_of_ofLiteral reads

/-! ### Stores -/

namespace PropertyAction

variable {action : PropertyAction} {store : Store}

/-- An action that sets a property that is there from a literal. -/
structure Sets (action : PropertyAction) (store : Store) (property : Property)
    (literal : String) : Prop where
  verb : action.verb = .set
  bound : store.get? action.target = some property
  value : action.value = some literal

theorem Sets.apply_eq (sets : action.Sets store property literal) :
    action.apply store =
      match property.setLiteral literal with
      | .ok written => (store.insert action.target written, none)
      | .error problem =>
        (store, some (.propertyAction
          ("Cannot set '" ++ action.target ++ "': " ++ problem.message))) := by
  simp only [apply, sets.verb, setTo, sets.value, sets.bound, Option.getD_some]
  cases property.setLiteral literal with
  | ok written => rfl
  | error problem => rw [NameMap.insert_eq_self sets.bound]

/-- Setting a property from its own text changes nothing. -/
theorem Sets.apply_readsBack (sets : action.Sets store property text)
    (readsBack : property.ReadsBack text) : action.apply store = (store, none) := by
  rw [sets.apply_eq, readsBack.sets]
  exact congrArg (·, none) (NameMap.insert_eq_self sets.bound)

end PropertyAction

/-- A property that has been set from a literal has a text. Setting it from that text changes
nothing more, and it is equal to the text unless it is not a number. A literal that cannot be read
leaves all properties as they are. A date is set from the texts that spell one, of whatever year
there is. -/
theorem Property.literals_read_back (property : Property) (literal : String) :
    (∀ written, property.setLiteral literal = .ok written →
      ∃ text, written.ReadsBack text ∧
        ∀ (action : PropertyAction) (store : Store), action.Sets store property literal →
          action.apply store = (store.insert action.target written, none) ∧
          { action with value := some text }.apply (store.insert action.target written) =
            (store.insert action.target written, none)) ∧
      (∀ problem, property.setLiteral literal = .error problem →
        ∀ (action : PropertyAction) (store : Store), action.Sets store property literal →
          (action.apply store).1 = store ∧ (action.apply store).2 ≠ none) ∧
        (property.kind = .date → ∀ date : Date, date.isValid →
          (property.setLiteral literal =
              .ok { property with value := .date (some (.ofDate date)) } ↔
            SpellsDate date (trim literal.toList))) := by
  refine ⟨fun written writes => ?_, fun problem refused action store sets => ?_,
    fun isDate date isValid => setLiteral_date_iff isDate isValid⟩
  · rcases readsBack_of_denoted (denoted_of_setLiteral writes) with ⟨text, readsBack⟩
    refine ⟨text, readsBack, fun action store sets => ⟨?_, ?_⟩⟩
    · rw [sets.apply_eq, writes]
    · have bound : (store.insert action.target written).get? action.target = some written := by
        rw [NameMap.get?_insert, if_pos rfl]
      exact PropertyAction.Sets.apply_readsBack ⟨sets.verb, bound, rfl⟩ readsBack
  · rw [sets.apply_eq, refused]
    exact ⟨rfl, nofun⟩

/-- A date of a year with a sign and more than four digits, with days and months of one digit. -/
theorem Property.distant_date_reads_back :
    let due : Property := .of "due" (.date none)
    let written : Property := .of "due" (.date (some (.ofDate ⟨-12345, 2, 1⟩)))
    due.setLiteral " 1.2.-12345 " = .ok written ∧ written.ReadsBack "01.02.-12345" := by
  intro due written
  have reads : readDate? (trim " 1.2.-12345 ".toList) = some ⟨-12345, 2, 1⟩ := by decide
  have spells := readDate?_eq_some_iff.mp reads
  rcases literals_read_back due " 1.2.-12345 " with ⟨readsBack, -, dates⟩
  have sets : due.setLiteral " 1.2.-12345 " = .ok written := (dates rfl _ spells.1).mpr spells.2
  rcases readsBack written sets with ⟨text, isBack, -⟩
  have isText : written.text? = some "01.02.-12345" := by decide +kernel
  obtain rfl := Option.some.inj (isText.symm.trans isBack.isText)
  exact ⟨sets, isBack⟩

end TestEngine
