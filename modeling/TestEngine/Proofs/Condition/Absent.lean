import TestEngine.Proofs.Condition.Reflexive

/-!
# Null properties and absent ones

Ten of the twelve operators see a property through its operand only, and a null property has none,
just as one that is absent. The other two ask whether a property is true or false; they see null
itself, and ask it for its kind. A guard tells null from absent in no case, since it holds neither
of what is not true nor of what has no truth value.
-/

namespace TestEngine

variable {store : Store} {name : String} {property : Property}

/-- The operators that ask whether a property is true or false. -/
def Operator.isTruth : Operator → Bool
  | isTrue | isFalse => true
  | _ => false

namespace Condition

variable {operator : Operator} {literal : Option String}

/-- An operator that does not ask for truth sees nothing but the operand. -/
theorem evaluate_congr {first second : Option Property} (notTruth : operator.isTruth = false)
    (same : operand first = operand second) :
    evaluate first operator literal = evaluate second operator literal := by
  simp only [operand] at same
  cases operator with
  | isTrue => cases notTruth
  | isFalse => cases notTruth
  | _ => simp only [evaluate, same]

theorem evaluate_absent (isTruth : operator.isTruth) :
    evaluate none operator literal = .ok false := by
  cases operator with
  | isTrue => rfl
  | isFalse => rfl
  | _ => cases isTruth

/-- What an operator that asks for truth makes of null depends on the kind of the property. -/
theorem evaluate_null_truth (isNull : property.isNull) (isTruth : operator.isTruth) :
    evaluate (some property) operator literal =
      if property.kind = .boolean then .ok false
      else .error (.unsupported operator property.kind) := by
  rcases property with ⟨ownName, reference, value⟩
  have asked (expected : Bool) : isBoolean (some value) operator expected =
      if value.kind = .boolean then .ok false else .error (.unsupported operator value.kind) := by
    cases value with
    | boolean b => cases b with
      | none => rfl
      | some b => cases isNull
    | _ => rfl
  cases operator with
  | isTrue => exact asked true
  | isFalse => exact asked false
  | _ => cases isTruth

/-- A null property is evaluated as none would be, unless it is asked for truth and no boolean. -/
theorem evaluate_null (isNull : property.isNull) (operator : Operator) (literal : Option String) :
    evaluate (some property) operator literal =
      if operator.isTruth ∧ property.kind ≠ .boolean then
        .error (.unsupported operator property.kind)
      else evaluate none operator literal := by
  cases isTruth : operator.isTruth with
  | false =>
      rw [if_neg (by simp)]
      exact evaluate_congr isTruth (operand_of_null isNull)
  | true =>
      rw [evaluate_null_truth isNull isTruth, evaluate_absent isTruth]
      by_cases isBoolean : property.kind = .boolean <;> simp [isBoolean]

end Condition

/-! ### Guards -/

/-- No guard tells a null property from one that is not there. -/
theorem Guard.holds_erase (bound : store.get? name = some property) (isNull : property.isNull)
    (guard : Guard) : guard.holds (store.erase name) = guard.holds store := by
  have noText : property.text? = none := by
    rw [Property.text?_eq, Value.text?_eq_none_iff]
    exact isNull
  have literal : guard.literal (store.erase name) = guard.literal store := by
    simp only [Guard.literal, NameMap.get?_erase]
    cases guard.valueProperty with
    | none => rfl
    | some other =>
        by_cases isName : other = name
        · simp [isName, bound, noText]
        · simp only [if_neg isName]
  rw [holds_eq ⟨rfl, literal⟩, holds_eq ⟨rfl, rfl⟩, NameMap.get?_erase]
  by_cases isName : guard.property = name
  · rw [if_pos isName, isName, bound, Condition.evaluate_null isNull]
    by_cases exceptional : guard.operator.isTruth ∧ property.kind ≠ .boolean
    · rw [if_pos exceptional, Condition.evaluate_absent exceptional.1]
    · rw [if_neg exceptional]
  · rw [if_neg isName]

/-- A null property counts as absent, with one exception. An operator that asks whether the property
is true or false fails if the property is null and no boolean, where it would say of an absent one
that it is not. No guard holds of the one and not of the other. -/
theorem Condition.null_counts_as_absent (isNull : property.isNull) :
    (∀ operator literal,
      (evaluate (some property) operator literal = evaluate none operator literal ↔
        (operator.isTruth → property.kind = .boolean)) ∧
      (operator.isTruth → property.kind ≠ .boolean →
        evaluate (some property) operator literal = .error (.unsupported operator property.kind) ∧
          evaluate none operator literal = .ok false)) ∧
      ∀ (store : Store) (name : String), store.get? name = some property →
        ∀ guard : Guard, guard.holds (store.erase name) = guard.holds store := by
  refine ⟨fun operator literal => ⟨?_, fun isTruth notBoolean => ?_⟩, fun store name bound =>
    Guard.holds_erase bound isNull⟩
  · rw [evaluate_null isNull]
    by_cases exceptional : operator.isTruth ∧ property.kind ≠ .boolean
    · rw [if_pos exceptional, evaluate_absent exceptional.1]
      exact iff_of_false nofun fun isBoolean => exceptional.2 (isBoolean exceptional.1)
    · rw [if_neg exceptional]
      exact iff_of_true rfl fun isTruth => not_not.mp fun notBoolean =>
        exceptional ⟨isTruth, notBoolean⟩
  · rw [evaluate_null isNull, if_pos ⟨isTruth, notBoolean⟩]
    exact ⟨rfl, evaluate_absent isTruth⟩

/-- A null number is as equal to no literal as an absent one is. -/
theorem Condition.null_number_counts_as_absent :
    let level : Property := .of "level" (.long none)
    let store : Store := .ofList [("level", level)]
    let guard : Guard := ⟨"level", .gte, none, none⟩
    level.isNull = true ∧
      evaluate (some level) .gte none = evaluate none .gte none ∧
        guard.holds (store.erase "level") = guard.holds store := by
  intro level store guard
  have isNull : level.isNull := rfl
  have counts := null_counts_as_absent isNull
  exact ⟨isNull, (counts.1 .gte none).1.mpr nofun, counts.2 store "level" rfl guard⟩

/-- Whether a null text is true cannot be told, and an absent property is not true. -/
theorem Condition.null_text_is_not_absent :
    let text : Property := .of "s" (.string none)
    text.isNull = true ∧ evaluate (some text) .isTrue none = .error (.unsupported .isTrue .string) ∧
      evaluate none .isTrue none = .ok false :=
  ⟨rfl, rfl, rfl⟩

end TestEngine
