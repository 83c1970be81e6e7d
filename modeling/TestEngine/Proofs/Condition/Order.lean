import TestEngine.Run.Step

/-!
# The order behind the comparison operators

Equality and the four ordering operators treat absent operands, literals that cannot be read and the
kinds of properties each in a way of their own. They agree on one order all the same: an operand
stands to a literal in one way or, if just one of the two is absent, in none, and each operator says
whether it stands there in a way that the operator admits.
-/

namespace TestEngine

namespace Operator

def isOrdering : Operator → Bool
  | gt | gte | lt | lte => true
  | _ => false

/-- Whether a comparison holds of operands that stand to each other as given, or in no order. -/
def admits : Operator → Option Ordering → Bool
  | equals, standing => standing = some .eq
  | gt, standing => standing = some .gt
  | gte, standing => standing = some .gt || standing = some .eq
  | lt, standing => standing = some .lt
  | lte, standing => standing = some .lt || standing = some .eq
  | _, _ => false

end Operator

/-- The literal that a guard compares with, if it has one. -/
def Guard.literal (guard : Guard) (store : Store) : Option String :=
  match guard.valueProperty with
  | some name => (store.get? name).bind Property.text?
  | none => guard.value

namespace Condition

variable {operator : Operator} {value : Value} {text : String} {ordering : Ordering}
  {standing : Option Ordering} {property : Option Property} {literal : Option String}

/-! ### Standings -/

/-- The value that is compared; that of a null property counts as absent. -/
def operand (property : Option Property) : Option Value :=
  (property.map Property.value).filter fun value => !value.isNull

/-- How an operand stands to a literal, in the eyes of an operator: two absent ones are equal, and
an absent one stands in no order to one that is present. -/
def stand (operator : Operator) :
    Option Value → Option String → Except ConditionError (Option Ordering)
  | none, none => .ok (some .eq)
  | some value, some text => (compareWith operator value text).map some
  | _, _ => .ok none

/-- The operator shows in no comparison but one that fails. -/
theorem compareWith_congr (other : Operator)
    (compares : compareWith operator value text = .ok ordering) :
    compareWith other value text = .ok ordering := by
  cases value with
  | list items => exact compares
  | integer n => cases n with
    | none => cases compares
    | some n => exact compares
  | long n => cases n with
    | none => cases compares
    | some n => exact compares
  | double d => cases d with
    | none => cases compares
    | some d => exact compares
  | date instant => cases instant with
    | none => cases compares
    | some instant => exact compares
  | _ => cases compares

theorem stand_eq_ok_iff {value : Value} {text : String} :
    stand operator (some value) (some text) = .ok standing ↔
      ∃ ordering, compareWith operator value text = .ok ordering ∧ standing = some ordering := by
  rw [stand]
  cases compareWith operator value text with
  | error problem => simp [Except.map]
  | ok ordering => simp [Except.map, eq_comm]

theorem stand_congr (other : Operator) {operand : Option Value}
    (stands : stand operator operand literal = .ok standing) :
    stand other operand literal = .ok standing := by
  rcases operand with _ | value <;> rcases literal with _ | text
  case some.some =>
    rcases stand_eq_ok_iff.mp stands with ⟨ordering, compares, isOrdering⟩
    exact stand_eq_ok_iff.mpr ⟨ordering, compareWith_congr other compares, isOrdering⟩
  all_goals exact stands

/-! ### Operators -/

/-- The ordering operators say whether they admit how the operands stand. -/
theorem evaluate_ordering (isOrdering : operator.isOrdering) :
    evaluate property operator literal =
      (stand operator (operand property) literal).map operator.admits := by
  have accepts {bothAbsent : Bool} {accept : Ordering → Bool}
      (absent : bothAbsent = operator.admits (some .eq))
      (present : ∀ ordering, accept ordering = operator.admits (some ordering))
      (mixed : operator.admits none = false) (operand : Option Value) :
      ordered operand literal bothAbsent operator accept =
        (stand operator operand literal).map operator.admits := by
    rcases operand with _ | value <;> rcases literal with _ | text
    · exact congrArg Except.ok absent
    · exact congrArg Except.ok mixed.symm
    · exact congrArg Except.ok mixed.symm
    · rw [ordered, stand]
      cases compareWith operator value text with
      | error problem => rfl
      | ok ordering => exact congrArg Except.ok (present ordering)
  cases operator with
  | gt => exact accepts rfl (by rintro (_ | _ | _) <;> rfl) rfl _
  | gte => exact accepts rfl (by rintro (_ | _ | _) <;> rfl) rfl _
  | lt => exact accepts rfl (by rintro (_ | _ | _) <;> rfl) rfl _
  | lte => exact accepts rfl (by rintro (_ | _ | _) <;> rfl) rfl _
  | _ => cases isOrdering

/-- What can be put in order can be tested for equality, by the same comparison. -/
theorem equalsLiteral_of_compareWith (compares : compareWith operator value text = .ok ordering) :
    equalsLiteral value text = .ok (ordering == .eq) := by
  have equated : (compareWith .equals value text).map (fun ordering => ordering == .eq) =
      .ok (ordering == .eq) := by
    rw [compareWith_congr .equals compares]
    rfl
  cases value with
  | integer n => exact equated
  | long n => exact equated
  | double d => exact equated
  | date instant => exact equated
  | list items => exact equated
  | _ => cases compares

/-- Wherever some operator finds how the operands stand, equality is decided by it as well. -/
theorem evaluate_equals (stands : stand operator (operand property) literal = .ok standing) :
    evaluate property .equals literal = .ok (Operator.equals.admits standing) := by
  change equals (operand property) literal = _
  generalize operand property = operand at stands
  rcases operand with _ | value <;> rcases literal with _ | text
  case some.some =>
    rcases stand_eq_ok_iff.mp stands with ⟨ordering, compares, rfl⟩
    rw [equals, equalsLiteral_of_compareWith compares]
    cases ordering <;> rfl
  all_goals
    cases stands
    rfl

/-- Equality and its opposite fail together. -/
theorem evaluate_notEquals (property : Option Property) (literal : Option String) :
    evaluate property .notEquals literal =
      (evaluate property .equals literal).map fun holds => !holds := rfl

/-- Two operands that are both there do not stand to each other in no order. -/
theorem exists_ordering {value : Value} {text : String} (isOperand : operand property = some value)
    (stands : stand operator (operand property) (some text) = .ok standing) :
    ∃ ordering, standing = some ordering := by
  rw [isOperand] at stands
  rcases stand_eq_ok_iff.mp stands with ⟨ordering, -, isOrdering⟩
  exact ⟨ordering, isOrdering⟩

/-! ### One order -/

/-- Whether a property is there and not null. -/
def IsPresent (property : Option Property) : Prop :=
  ∃ present, property = some present ∧ present.isNull = false

theorem IsPresent.exists_operand (isPresent : IsPresent property) :
    ∃ value, operand property = some value := by
  rcases isPresent with ⟨present, rfl, notNull⟩
  refine ⟨present.value, ?_⟩
  have kept : (!present.value.isNull) = true := by
    rw [show present.value.isNull = false from notNull]
    rfl
  exact Option.filter_some_pos kept

/-- What the comparison operators say of a property and a literal, if they belong to one order. -/
structure InOrder (property : Option Property) (literal : Option String) : Prop where
  /-- Equality and its opposite fail together, or are opposite. -/
  opposite :
    (∃ error other, evaluate property .equals literal = .error error ∧
        evaluate property .notEquals literal = .error other) ∨
      ∃ equal, evaluate property .equals literal = .ok equal ∧
        evaluate property .notEquals literal = .ok !equal
  /-- The ordering operators fail together. If they do not, equality does not fail either, and they
  agree with it; and of two sides that are both there exactly one is less, or they are equal. -/
  ordering :
    (∀ operator : Operator, operator.isOrdering →
        ∃ error, evaluate property operator literal = .error error) ∨
      ∃ less equal greater, evaluate property .lt literal = .ok less ∧
        evaluate property .equals literal = .ok equal ∧
        evaluate property .gt literal = .ok greater ∧
        evaluate property .gte literal = .ok (greater || equal) ∧
        evaluate property .lte literal = .ok (less || equal) ∧ (greater && less) = false ∧
        (IsPresent property → literal.isSome → [less, equal, greater].count true = 1)

theorem inOrder (property : Option Property) (literal : Option String) :
    InOrder property literal where
  opposite := by
    rw [evaluate_notEquals]
    cases evaluate property .equals literal with
    | error problem => exact .inl ⟨problem, problem, rfl, rfl⟩
    | ok equal => exact .inr ⟨equal, rfl, rfl⟩
  ordering := by
    cases stands : stand .gt (operand property) literal with
    | error problem =>
        refine .inl fun operator isOrdering => ?_
        rw [evaluate_ordering isOrdering]
        cases others : stand operator (operand property) literal with
        | error other => exact ⟨other, rfl⟩
        | ok standing => exact nomatch stands.symm.trans (stand_congr .gt others)
    | ok standing =>
        have answers (operator : Operator) (isOrdering : operator.isOrdering) :
            evaluate property operator literal = .ok (operator.admits standing) := by
          rw [evaluate_ordering isOrdering, stand_congr operator stands]
          rfl
        refine .inr ⟨_, _, _, answers .lt rfl, evaluate_equals stands, answers .gt rfl,
          answers .gte rfl, answers .lte rfl, ?_, ?_⟩
        · rcases standing with _ | _ | _ | _ <;> rfl
        · intro isPresent hasLiteral
          rcases isPresent.exists_operand with ⟨value, isOperand⟩
          rcases Option.isSome_iff_exists.mp hasLiteral with ⟨text, rfl⟩
          rcases exists_ordering isOperand stands with ⟨_ | _ | _, rfl⟩ <;> rfl

end Condition

/-! ### Guards -/

namespace Guard

variable {first second guard : Guard} {store : Store} {property : Option Property}
  {literal : Option String} {standing : Option Ordering}

/-- Whether a guard compares a property with a literal. -/
structure Asks (guard : Guard) (store : Store) (property : Option Property)
    (literal : Option String) : Prop where
  property : store.get? guard.property = property
  literal : guard.literal store = literal

/-- Of two guards at most one holds, and just one if a comparison that both sides take part in
succeeds. -/
structure Opposes (first second : Guard) (store : Store) (property : Option Property)
    (literal : Option String) : Prop where
  notBoth : (first.holds store && second.holds store) = false
  opposite : Condition.IsPresent property → literal.isSome →
    (∃ verdict, Condition.evaluate property first.operator literal = .ok verdict) →
      first.holds store = !second.holds store

theorem holds_eq (asks : guard.Asks store property literal) :
    guard.holds store =
      match Condition.evaluate property guard.operator literal with
      | .ok holds => holds
      | .error _ => false := by
  rw [← asks.property, ← asks.literal]
  rfl

/-- A guard with an ordering operator holds if that operator admits how its two sides stand. -/
theorem holds_ordering (asks : guard.Asks store property literal)
    (isOrdering : guard.operator.isOrdering) :
    guard.holds store =
      match Condition.stand guard.operator (Condition.operand property) literal with
      | .ok standing => guard.operator.admits standing
      | .error _ => false := by
  rw [holds_eq asks, Condition.evaluate_ordering isOrdering]
  cases Condition.stand guard.operator (Condition.operand property) literal <;> rfl

/-- Guards oppose each other if no standing is admitted by the operators of both, and each ordering
by that of one. -/
theorem opposes_of_admits (asksFirst : first.Asks store property literal)
    (asksSecond : second.Asks store property literal)
    (isOrderingFirst : first.operator.isOrdering) (isOrderingSecond : second.operator.isOrdering)
    (disjoint : ∀ standing,
      (first.operator.admits standing && second.operator.admits standing) = false)
    (covering : ∀ ordering,
      first.operator.admits (some ordering) = !second.operator.admits (some ordering)) :
    first.Opposes second store property literal := by
  have holdsFirst := holds_ordering asksFirst isOrderingFirst
  have holdsSecond := holds_ordering asksSecond isOrderingSecond
  cases stands : Condition.stand first.operator (Condition.operand property) literal with
  | error problem =>
      rw [stands] at holdsFirst
      refine ⟨by rw [holdsFirst, Bool.false_and], fun _ _ succeeds => ?_⟩
      rcases succeeds with ⟨verdict, evaluates⟩
      rw [Condition.evaluate_ordering isOrderingFirst, stands] at evaluates
      cases evaluates
  | ok standing =>
      rw [stands] at holdsFirst
      rw [Condition.stand_congr second.operator stands] at holdsSecond
      refine ⟨by rw [holdsFirst, holdsSecond, disjoint], fun isPresent hasLiteral _ => ?_⟩
      rcases isPresent.exists_operand with ⟨value, isOperand⟩
      rcases Option.isSome_iff_exists.mp hasLiteral with ⟨text, rfl⟩
      rcases Condition.exists_ordering isOperand stands with ⟨ordering, rfl⟩
      rw [holdsFirst, holdsSecond]
      exact covering ordering

theorem opposes_gt_lte (asksFirst : first.Asks store property literal)
    (asksSecond : second.Asks store property literal) (isGt : first.operator = .gt)
    (isLte : second.operator = .lte) : first.Opposes second store property literal := by
  apply opposes_of_admits asksFirst asksSecond <;> simp only [isGt, isLte]
  · rfl
  · rfl
  · rintro (_ | _ | _ | _) <;> rfl
  · rintro (_ | _ | _) <;> rfl

theorem opposes_lt_gte (asksFirst : first.Asks store property literal)
    (asksSecond : second.Asks store property literal) (isLt : first.operator = .lt)
    (isGte : second.operator = .gte) : first.Opposes second store property literal := by
  apply opposes_of_admits asksFirst asksSecond <;> simp only [isLt, isGte]
  · rfl
  · rfl
  · rintro (_ | _ | _ | _) <;> rfl
  · rintro (_ | _ | _) <;> rfl

end Guard

/-- The comparison operators belong to one order, whatever the property and the literal. Of two
guards that ask the one whether its property is greater and the other whether it is not, or the one
whether it is less and the other whether it is not, at most one holds; just one does where the two
sides are present and can be compared. -/
theorem Condition.operators_form_order (property : Option Property) (literal : Option String) :
    Condition.InOrder property literal ∧
      ∀ (store : Store) (first second : Guard), first.Asks store property literal →
        second.Asks store property literal →
          (first.operator = .gt ∧ second.operator = .lte) ∨
            (first.operator = .lt ∧ second.operator = .gte) →
          first.Opposes second store property literal := by
  refine ⟨Condition.inOrder property literal, ?_⟩
  rintro store first second asksFirst asksSecond (⟨isGt, isLte⟩ | ⟨isLt, isGte⟩)
  · exact Guard.opposes_gt_lte asksFirst asksSecond isGt isLte
  · exact Guard.opposes_lt_gte asksFirst asksSecond isLt isGte

/-- A guard on a number, and its opposite with the literal read from another property. -/
theorem Condition.operators_form_order_witness :
    let level : Property := .ofInteger "level" 5
    let limit : Property := .ofString "limit" "4"
    let store : Store := .ofList [("level", level), ("limit", limit)]
    let above : Guard := ⟨"level", .gt, some "4", none⟩
    let within : Guard := ⟨"level", .lte, none, some "limit"⟩
    above.holds store = true ∧ above.Opposes within store (some level) (some "4") :=
  ⟨by decide, (Condition.operators_form_order _ _).2 _ _ _ ⟨rfl, rfl⟩ ⟨rfl, rfl⟩
    (.inl ⟨rfl, rfl⟩)⟩

end TestEngine
