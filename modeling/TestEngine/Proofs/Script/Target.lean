import TestEngine.Proofs.NameMap
import TestEngine.Proofs.Script.FailFast
import TestEngine.Proofs.Script.Footprint
import TestEngine.Proofs.Script.Round

/-!
# The target of a property action

A property action changes nothing but its target, and a target that it does not delete keeps its
kind. An action that fails changes nothing at all, with one exception: a set creates a missing
target before it reads its literal, and a target that was created for a literal that cannot be read
stays.
-/

namespace TestEngine

variable {ν : Type}

namespace PropertyAction

variable {action : PropertyAction} {store : Store}

/-! ### The cell of the target -/

theorem kind_combine {target source : Value} (sameKind : target.kind = source.kind) :
    (combine target source).kind = target.kind := by
  unfold combine
  split
  · rfl
  · exact sameKind.symm

/-- A literal is read to a value of the kind it is read for. -/
theorem kind_ofLiteral {kind : PropertyKind} {literal : String} {value : Value}
    (reads : Value.ofLiteral kind literal = .ok value) : value.kind = kind := by
  unfold Value.ofLiteral at reads
  cases kind <;> dsimp only at reads <;> (try split at reads) <;> cases reads <;> rfl

theorem kind_setLiteral {property written : Property} {literal : String}
    (writes : property.setLiteral literal = .ok written) : written.kind = property.kind := by
  unfold Property.setLiteral at writes
  cases reads : Value.ofLiteral property.kind literal with
  | error problem =>
      rw [reads] at writes
      exact nomatch writes
  | ok value =>
      rw [reads] at writes
      cases writes
      exact kind_ofLiteral reads

theorem kind_copyTo {copied : Store} {target : String} {source : Option String} {old : Property}
    (hadTarget : store.get? target = some old) (copies : copyTo store target source = .ok copied) :
    ∃ new, copied.get? target = some new ∧ new.kind = old.kind := by
  unfold copyTo at copies
  split at copies
  case h_2 => exact nomatch copies
  case h_1 sourceName =>
    split at copies
    case h_2 => exact nomatch copies
    case h_1 property _ =>
      rw [hadTarget] at copies
      dsimp only at copies
      split at copies
      · rename_i sameKind
        cases copies
        refine ⟨_, by rw [NameMap.get?_insert, if_pos rfl], ?_⟩
        exact kind_combine sameKind
      · exact nomatch copies

/-- An action that goes well keeps the kind of a target that was there, unless it deletes it. -/
theorem kind_apply {old : Property} (hadTarget : store.get? action.target = some old)
    (keeps : action.verb ≠ .delete) (well : (action.apply store).2 = none) :
    ∃ new, (action.apply store).1.get? action.target = some new ∧ new.kind = old.kind := by
  unfold apply at well ⊢
  cases verb : action.verb with
  | clear =>
      dsimp only
      rw [hadTarget]
      exact ⟨old.cleared, by rw [NameMap.get?_insert, if_pos rfl], old.kind_cleared⟩
  | delete => exact absurd verb keeps
  | copy =>
      rw [verb] at well
      dsimp only at well ⊢
      cases copies : copyTo store action.target action.source with
      | error problem =>
          rw [copies] at well
          exact nomatch well
      | ok copied => exact kind_copyTo hadTarget copies
  | set =>
      rw [verb] at well
      dsimp only at well ⊢
      unfold setTo at well ⊢
      cases hasValue : action.value with
      | none =>
          rw [hasValue] at well
          exact nomatch well
      | some literal =>
          rw [hasValue] at well
          dsimp only at well ⊢
          rw [hadTarget, Option.getD_some] at well ⊢
          cases writes : old.setLiteral literal with
          | error problem =>
              rw [writes] at well
              exact nomatch well
          | ok new => exact ⟨new, by rw [NameMap.get?_insert, if_pos rfl], kind_setLiteral writes⟩

/-! ### Actions that fail -/

/-- The cell that a set creates if its target is missing. -/
def blank (action : PropertyAction) : Property :=
  .of action.target (.null (action.kind.getD .string))

/-- A set of a missing property from a literal that cannot be read for its kind. -/
structure CreatesInVain (action : PropertyAction) (store : Store) : Prop where
  sets : action.verb = .set
  missing : store.get? action.target = none
  unreadable : ∃ literal problem, action.value = some literal ∧
    Value.ofLiteral (action.kind.getD .string) literal = .error problem

theorem copyTo_error {target : String} {source : Option String} {error : EngineError}
    (fails : copyTo store target source = .error error) :
    ∃ message, error = .propertyAction message := by
  unfold copyTo at fails
  split at fails
  case h_2 =>
    cases fails
    exact ⟨_, rfl⟩
  case h_1 =>
    split at fails
    case h_2 =>
      cases fails
      exact ⟨_, rfl⟩
    case h_1 =>
      split at fails
      · exact nomatch fails
      · split at fails
        · exact nomatch fails
        · cases fails
          exact ⟨_, rfl⟩

/-- A set that fails has put back what it found, or it has created its target in vain. -/
theorem setTo_fails {error : EngineError} (sets : action.verb = .set)
    (fails : (setTo store action.target action.value action.kind).2 = some error) :
    (∃ message, error = .propertyAction message) ∧
      ((setTo store action.target action.value action.kind).1 = store ∧
          ¬action.CreatesInVain store ∨
        (setTo store action.target action.value action.kind).1 = store.put action.blank ∧
          action.CreatesInVain store) := by
  unfold setTo at fails ⊢
  cases hasValue : action.value with
  | none =>
      rw [hasValue] at fails
      cases fails
      refine ⟨⟨_, rfl⟩, .inl ⟨rfl, ?_⟩⟩
      rintro ⟨-, -, literal, problem, hasLiteral, -⟩
      exact nomatch hasValue.symm.trans hasLiteral
  | some literal =>
      rw [hasValue] at fails
      dsimp only at fails ⊢
      cases hasTarget : store.get? action.target with
      | some old =>
          rw [hasTarget, Option.getD_some] at fails
          rw [Option.getD_some]
          cases writes : old.setLiteral literal with
          | ok new =>
              rw [writes] at fails
              exact nomatch fails
          | error problem =>
              rw [writes] at fails
              cases fails
              refine ⟨⟨_, rfl⟩, .inl ⟨NameMap.insert_eq_self hasTarget, fun inVain => ?_⟩⟩
              exact nomatch hasTarget.symm.trans inVain.missing
      | none =>
          rw [hasTarget, Option.getD_none] at fails
          rw [Option.getD_none]
          have kind : (Property.of action.target (.null (action.kind.getD .string))).kind =
              action.kind.getD .string := Value.kind_null _
          rw [Property.setLiteral, kind] at fails ⊢
          cases reads : Value.ofLiteral (action.kind.getD .string) literal with
          | ok value =>
              rw [reads] at fails
              exact nomatch fails
          | error problem =>
              rw [reads] at fails
              cases fails
              exact ⟨⟨_, rfl⟩, .inr ⟨rfl, sets, hasTarget, literal, problem, hasValue, reads⟩⟩

theorem apply_fails {error : EngineError} (fails : (action.apply store).2 = some error) :
    (∃ message, error = .propertyAction message) ∧
      ((action.apply store).1 = store ∧ ¬action.CreatesInVain store ∨
        (action.apply store).1 = store.put action.blank ∧ action.CreatesInVain store) := by
  unfold apply at fails ⊢
  cases verb : action.verb with
  | clear =>
      rw [verb] at fails
      dsimp only at fails ⊢
      cases hasTarget : store.get? action.target with
      | some old =>
          rw [hasTarget] at fails
          exact nomatch fails
      | none =>
          rw [hasTarget] at fails
          cases fails
          exact ⟨⟨_, rfl⟩, .inl ⟨rfl, fun inVain => nomatch verb.symm.trans inVain.sets⟩⟩
  | delete =>
      rw [verb] at fails
      exact nomatch fails
  | copy =>
      rw [verb] at fails
      dsimp only at fails ⊢
      cases copies : copyTo store action.target action.source with
      | ok copied =>
          rw [copies] at fails
          exact nomatch fails
      | error problem =>
          rw [copies] at fails
          cases fails
          exact ⟨copyTo_error copies,
            .inl ⟨rfl, fun inVain => nomatch verb.symm.trans inVain.sets⟩⟩
  | set =>
      rw [verb] at fails
      exact setTo_fails verb fails

end PropertyAction

/-! ### Visits -/

/-- Two frames that differ in the cell of one name at the most. -/
structure Frame.SameBut (name : String) (frame after : Frame) : Prop where
  aside : after = { frame with context := { frame.context with
    properties := after.context.properties } }
  cells (other : String) : other ≠ name →
    after.context.properties.get? other = frame.context.properties.get? other

theorem Visit.yields_propertyAction {action : PropertyAction} {frame after : Frame}
    {history : List (Exchange ν)} {outcome : Except Abort Flow}
    (yields : (propertyAction action).Yields frame history outcome after) :
    history = [] ∧ after = { frame with context := { frame.context with
        properties := (action.apply frame.context.properties).1 } } ∧
      outcome = match (action.apply frame.context.properties).2 with
        | none => .ok .next
        | some error => .error (.failed error) := by
  rw [propertyAction, yields_store_bind] at yields
  generalize action.apply frame.context.properties = applied at yields ⊢
  rcases applied with ⟨changed, error⟩
  have yields := yields_modify_bind.mp yields
  cases error with
  | none =>
      rcases yields_pure.mp yields with ⟨nothing, same, left⟩
      exact ⟨nothing, left, same⟩
  | some error =>
      rcases yields_abort.mp yields with ⟨nothing, same, left⟩
      exact ⟨nothing, left, same⟩

/-- A property action that goes well changes its target at the most, and keeps the kind of a target
that it does not delete. One that fails leaves everything as it was, unless it has created its
target in vain. -/
theorem Visit.propertyAction_spares {action : PropertyAction} {frame after : Frame}
    {history : List (Exchange ν)} {outcome : Except Abort Flow}
    (yields : (propertyAction action).Yields frame history outcome after) :
    history = [] ∧
    (outcome = .ok .next → frame.SameBut action.target after ∧
      ∀ old, frame.context.properties.get? action.target = some old → action.verb ≠ .delete →
        ∃ new, after.context.properties.get? action.target = some new ∧ new.kind = old.kind) ∧
    (outcome ≠ .ok .next →
      (∃ message, outcome = .error (.failed (.propertyAction message))) ∧
      (after = frame ↔ ¬action.CreatesInVain frame.context.properties) ∧
      (action.CreatesInVain frame.context.properties → after = frame.put action.blank)) := by
  rcases yields_propertyAction yields with ⟨nothing, left, ended⟩
  refine ⟨nothing, ?_, ?_⟩
  · intro well
    have noError : (action.apply frame.context.properties).2 = none := by
      cases result : (action.apply frame.context.properties).2 with
      | none => rfl
      | some error =>
          rw [result] at ended
          exact nomatch well.symm.trans ended
    subst left
    refine ⟨⟨rfl, fun other notTarget => ?_⟩, fun old hadTarget keeps => ?_⟩
    · exact action.get?_apply_of_ne frame.context.properties (Ne.symm notTarget)
    · exact PropertyAction.kind_apply hadTarget keeps noError
  · intro notWell
    cases result : (action.apply frame.context.properties).2 with
    | none =>
        rw [result] at ended
        exact absurd ended notWell
    | some error =>
        rw [result] at ended
        rcases PropertyAction.apply_fails result with ⟨⟨message, rfl⟩, kept | created⟩
        · have unchanged : after = frame := by
            rw [left, kept.1]
          exact ⟨⟨message, ended⟩, ⟨fun _ => kept.2, fun _ => unchanged⟩,
            fun inVain => absurd inVain kept.2⟩
        · have put : after = frame.put action.blank := by
            rw [left, created.1]
            rfl
          refine ⟨⟨message, ended⟩, ⟨fun unchanged => ?_, fun not => absurd created.2 not⟩,
            fun _ => put⟩
          -- A cell that was missing is there now.
          have missing := created.2.missing
          rw [← unchanged, put] at missing
          simp [Frame.put, Store.put, PropertyAction.blank, Property.of] at missing

/-- A frame with a text and a number. -/
def Frame.paired : Frame := ⟨.ofProperties [.ofString "a" "x", .ofInteger "b" 1], [], []⟩

/-- The text cannot be copied to the number, and a set of the number leaves the text alone. -/
theorem Visit.propertyAction_spares_paired :
    let copied := ((propertyAction ⟨.copy, "b", some "a", none, none⟩).run.run Frame.paired).tell
      Request.refused
    let set := ((propertyAction ⟨.set, "b", none, some "7", none⟩).run.run Frame.paired).tell
      Request.refused
    (copied.2.1 ≠ .ok .next ∧ copied.2.2 = .paired) ∧
      set.2.1 = .ok .next ∧ Frame.paired.SameBut "b" set.2.2 ∧
        set.2.2.context.properties.get? "b" = some (.ofInteger "b" 7) := by
  have fails : ((propertyAction ⟨.copy, "b", some "a", none, none⟩).run.run Frame.paired).tell
      Request.refused |>.2.1 ≠ .ok .next := nofun
  have spares := propertyAction_spares (Program.yields_tell Request.refused
    ((propertyAction ⟨.copy, "b", some "a", none, none⟩).run.run Frame.paired))
  have changes := propertyAction_spares (Program.yields_tell Request.refused
    ((propertyAction ⟨.set, "b", none, some "7", none⟩).run.run Frame.paired))
  exact ⟨⟨fails, (spares.2.2 fails).2.1.mpr fun inVain => nomatch inVain.sets⟩, rfl,
    (changes.2.1 rfl).1, rfl⟩

/-- A set of a number from what is none leaves a number behind that was not there. -/
theorem Visit.propertyAction_creates_in_vain :
    let store : Store := .ofProperties []
    let told := ((propertyAction ⟨.set, "n", none, some "abc", some .integer⟩).run.run
      ⟨.ofProperties [], [], []⟩).tell Request.refused
    told.2.1 ≠ .ok .next ∧ store.get? "n" = none ∧
      told.2.2.context.properties.get? "n" = some (.of "n" (.integer none)) :=
  ⟨nofun, rfl, rfl⟩

end TestEngine
