import TestEngine.Proofs.Script.Footprint
import TestEngine.Proofs.Script.Rearrangement

/-!
# Cells that refer to others

A cell of a store may refer to another one and take its value from there. An assertion follows the
reference of the cell that it checks. The other steps take the value of a cell as it stands, and a
property that refers to the cell does so as well. Two stores, one of which has the cell resolved,
are told apart by nothing else: `Indirection.Settles` relates them, and it outlasts all that a
script does to other names.
-/

namespace TestEngine

/-- A name whose cell refers to another one, and what the cell is if the reference is followed. -/
structure Indirection where
  name : String
  cell : Property
  target : String
  refers : cell.reference = some target
  resolved : Property

/-! ### Steps that take values as they stand -/

def Guard.TakesRaw (name : String) (guard : Guard) : Prop :=
  guard.property = name ∨ guard.valueProperty = some name

/-- Whether the visit of a step takes the value that a name has in a store as it stands, be it at
the name itself or through a property that refers to it. What is checked by an assertion is resolved
before. -/
def StepKind.TakesRaw (name : String) (store : Store) : StepKind → Prop
  | .textMessage message => message.property = some name
  | .logger _ children => ∃ message ∈ Step.texts children, message.property = some name
  | .condition ⟨guard, _⟩ => guard.TakesRaw name
  | .breakLoop conditions => ∃ guard ∈ conditions.map Block.guard, guard.TakesRaw name
  | .foreach list _ _ => list = name
  | .action call => ∃ property ∈ call.properties, property.reference = some name
  | .function call => ∃ property ∈ call.properties, property.reference = some name
  | .assertion check => ∃ checked property, check.property = some checked ∧
      store.get? checked = some property ∧ property.reference = some name
  | .execution _ => False
  | .loop .. => False
  | .lock .. => False
  | .propertyAction _ => False
  | .script _ => False

/-- A step that copies a name as it stands, with what it refers to. -/
def StepKind.CopiesFrom (name : String) : StepKind → Prop
  | .propertyAction change => change.verb = .copy ∧ change.source = some name
  | _ => False

namespace Indirection

/-- A store that holds the cell and accepts its reference. -/
structure In (indirection : Indirection) (store : Store) : Prop where
  cell : store.get? indirection.name = some indirection.cell
  resolves : store.resolve indirection.cell = .ok indirection.resolved

/-- The cell has the value already that it takes from the one it refers to. -/
def IsCurrent (indirection : Indirection) : Prop :=
  indirection.cell.value = indirection.resolved.value

/-- A store with the cell, and one that differs from it in that the cell is resolved. -/
structure Settles (indirection : Indirection) (store other : Store) : Prop where
  holds : indirection.In store
  cell : other.get? indirection.name = some indirection.resolved
  others : ∀ name ≠ indirection.name, other.get? name = store.get? name

variable {indirection : Indirection} {store other : Store} {name : String}

/-- A reference that is accepted leads to a cell of the same kind. -/
theorem In.exists_source (holds : indirection.In store) :
    ∃ source, store.get? indirection.target = some source ∧
      source.kind = indirection.cell.kind ∧
        indirection.resolved = .of indirection.cell.name source.value := by
  have resolves := holds.resolves
  rw [Store.resolve, indirection.refers] at resolves
  dsimp only at resolves
  cases hasSource : store.get? indirection.target with
  | none => simp [hasSource] at resolves
  | some source =>
      rw [hasSource] at resolves
      dsimp only at resolves
      split at resolves
      · rename_i sameKind
        exact ⟨source, rfl, sameKind, (Except.ok.inj resolves).symm⟩
      · exact nomatch resolves

theorem In.kind_resolved (holds : indirection.In store) :
    indirection.resolved.kind = indirection.cell.kind := by
  rcases holds.exists_source with ⟨source, -, sameKind, isResolved⟩
  rw [isResolved]
  exact sameKind

/-- What a store holds apart from the cell and the one that it refers to does not count. -/
theorem In.transfer (holds : indirection.In store)
    (sameCell : other.get? indirection.name = store.get? indirection.name)
    (sameTarget : other.get? indirection.target = store.get? indirection.target) :
    indirection.In other where
  cell := sameCell.trans holds.cell
  resolves := by
    have resolves := holds.resolves
    rw [Store.resolve, indirection.refers] at resolves ⊢
    dsimp only at resolves ⊢
    rw [sameTarget]
    exact resolves

theorem In.settles (holds : indirection.In store) :
    indirection.Settles store (store.insert indirection.name indirection.resolved) := by
  refine ⟨holds, by simp, fun name nameNe => ?_⟩
  rw [NameMap.get?_insert, if_neg nameNe]

/-- The name of the cell, and the one it refers to, are taken. -/
theorem In.ne_of_get?_eq_none (holds : indirection.In store) (free : store.get? name = none) :
    name ≠ indirection.name ∧ name ≠ indirection.target := by
  rcases holds.exists_source with ⟨source, hasSource, -⟩
  constructor
  · rintro rfl
    exact nomatch free.symm.trans holds.cell
  · rintro rfl
    exact nomatch free.symm.trans hasSource

namespace Settles

/-! ### What is read -/

theorem value_eq (settles : indirection.Settles store other)
    (sees : indirection.IsCurrent ∨ name ≠ indirection.name) :
    (other.get? name).map Property.value = (store.get? name).map Property.value := by
  by_cases isCell : name = indirection.name
  · have isCurrent := sees.resolve_right (not_not.mpr isCell)
    rw [isCell, settles.cell, settles.holds.cell]
    exact congrArg some isCurrent.symm
  · rw [settles.others name isCell]

theorem contains_eq (settles : indirection.Settles store other) (name : String) :
    other.contains name = store.contains name := by
  by_cases isCell : name = indirection.name
  · rw [NameMap.contains, NameMap.contains, isCell, settles.cell, settles.holds.cell]
    rfl
  · rw [NameMap.contains, NameMap.contains, settles.others name isCell]

theorem text_eq (settles : indirection.Settles store other)
    (sees : indirection.IsCurrent ∨ name ≠ indirection.name) :
    (other.get? name).bind Property.text? = (store.get? name).bind Property.text? := by
  have byValue (found : Option Property) :
      found.bind Property.text? = (found.map Property.value).bind Value.text? := by
    rcases found with _ | ⟨ownName, reference, value⟩
    · rfl
    · simp [Property.text?]
  rw [byValue, byValue, settles.value_eq sees]

theorem guard_eq (settles : indirection.Settles store other) {guard : Guard}
    (sees : indirection.IsCurrent ∨ ¬guard.TakesRaw indirection.name) :
    guard.holds other = guard.holds store := by
  have sees (name : String) (takes : name = indirection.name → guard.TakesRaw indirection.name) :
      indirection.IsCurrent ∨ name ≠ indirection.name := sees.imp_right (mt takes)
  have operand := settles.value_eq (sees guard.property .inl)
  have evaluates (literal : Option String) :
      Condition.evaluate (other.get? guard.property) guard.operator literal =
        Condition.evaluate (store.get? guard.property) guard.operator literal := by
    simp only [Condition.evaluate, operand]
  rw [Guard.holds, Guard.holds]
  cases comparand : guard.valueProperty with
  | none => simp only [evaluates]
  | some name =>
      have text := settles.text_eq (sees name fun isCell => .inr (isCell ▸ comparand))
      simp only [evaluates, text]

theorem render_eq (settles : indirection.Settles store other) {message : TextMessage}
    (sees : indirection.IsCurrent ∨ message.property ≠ some indirection.name) :
    message.render other = message.render store := by
  have text : (message.property.bind other.get?).bind Property.text? =
      (message.property.bind store.get?).bind Property.text? := by
    cases shown : message.property with
    | none => rfl
    | some name =>
        exact settles.text_eq (sees.imp_right fun apart isCell => apart (isCell ▸ shown))
  rw [TextMessage.render, TextMessage.render, text]

theorem loggerLine_eq (settles : indirection.Settles store other) {children : List Step}
    (sees : indirection.IsCurrent ∨
      ¬∃ message ∈ Step.texts children, message.property = some indirection.name) :
    loggerLine children other = loggerLine children store := by
  have sameTexts : (Step.texts children).map (fun message => message.render other) =
      (Step.texts children).map fun message => message.render store := by
    apply List.map_congr_left
    intro message messageMem
    exact settles.render_eq (sees.imp_right fun none shown => none ⟨message, messageMem, shown⟩)
  rw [TestEngine.loggerLine_eq, TestEngine.loggerLine_eq, sameTexts]

theorem foreachItems_eq (settles : indirection.Settles store other) {list element : String}
    (sees : indirection.IsCurrent ∨ list ≠ indirection.name) :
    Visit.foreachItems other list element = Visit.foreachItems store list element := by
  have sameValue := settles.value_eq sees
  rw [Visit.foreachItems, Visit.foreachItems, settles.contains_eq]
  cases found : store.get? list <;> cases otherFound : other.get? list <;>
    simp_all [Property.items?, Property.kind]

theorem resolve_eq (settles : indirection.Settles store other) {property : Property}
    (sees : indirection.IsCurrent ∨ property.reference ≠ some indirection.name) :
    other.resolve property = store.resolve property := by
  rw [Store.resolve, Store.resolve]
  cases refers : property.reference with
  | none => rfl
  | some target =>
      dsimp only
      by_cases isCell : target = indirection.name
      · have isCurrent := sees.resolve_right (not_not.mpr (isCell ▸ refers))
        have sameValue : indirection.resolved.value = indirection.cell.value := isCurrent.symm
        rw [isCell, settles.cell, settles.holds.cell]
        simp only [settles.holds.kind_resolved, sameValue]
      · rw [settles.others target isCell]

theorem resolveAll_eq (settles : indirection.Settles store other) {properties : List Property}
    (sees : indirection.IsCurrent ∨
      ¬∃ property ∈ properties, property.reference = some indirection.name) :
    other.resolveAll properties = store.resolveAll properties := by
  rw [Store.resolveAll, Store.resolveAll]
  induction properties with
  | nil => rfl
  | cons first rest ih =>
      rw [List.exists_mem_cons_iff, not_or] at sees
      rw [List.mapM_cons, List.mapM_cons, settles.resolve_eq (sees.imp_right And.left),
        ih (sees.imp_right And.right)]

/-- What an assertion checks is the same, whether the cell was resolved before or is resolved by
it. -/
theorem checked_eq (settles : indirection.Settles store other)
    (sees : indirection.IsCurrent ∨ ∀ property, store.get? name = some property →
      property.reference ≠ some indirection.name) :
    (other.get? name).mapM other.resolve = (store.get? name).mapM store.resolve := by
  by_cases isCell : name = indirection.name
  · have staysResolved : other.resolve indirection.resolved = .ok indirection.resolved := by
      rcases settles.holds.exists_source with ⟨source, -, -, isResolved⟩
      rw [isResolved]
      rfl
    rw [isCell, settles.cell, settles.holds.cell]
    simp [Option.mapM_some, settles.holds.resolves, staysResolved]
  · rw [settles.others name isCell]
    cases found : store.get? name with
    | none => rfl
    | some property =>
        have same := settles.resolve_eq (sees.imp_right fun apart => apart property found)
        simp [Option.mapM_some, same]

/-! ### What is written -/

theorem insert (settles : indirection.Settles store other) (property : Property)
    (ne : name ≠ indirection.name) (neTarget : name ≠ indirection.target) :
    indirection.Settles (store.insert name property) (other.insert name property) where
  holds := by
    apply settles.holds.transfer
    · rw [NameMap.get?_insert, if_neg ne.symm]
    · rw [NameMap.get?_insert, if_neg neTarget.symm]
  cell := by
    rw [NameMap.get?_insert, if_neg ne.symm]
    exact settles.cell
  others another anotherNe := by
    rw [NameMap.get?_insert, NameMap.get?_insert, settles.others another anotherNe]

theorem put (settles : indirection.Settles store other) {property : Property}
    (ne : property.name ≠ indirection.name) (neTarget : property.name ≠ indirection.target) :
    indirection.Settles (store.put property) (other.put property) :=
  settles.insert property ne neTarget

theorem erase (settles : indirection.Settles store other) (ne : name ≠ indirection.name)
    (neTarget : name ≠ indirection.target) :
    indirection.Settles (store.erase name) (other.erase name) where
  holds := by
    apply settles.holds.transfer
    · rw [NameMap.get?_erase, if_neg ne.symm]
    · rw [NameMap.get?_erase, if_neg neTarget.symm]
  cell := by
    rw [NameMap.get?_erase, if_neg ne.symm]
    exact settles.cell
  others another anotherNe := by
    rw [NameMap.get?_erase, NameMap.get?_erase, settles.others another anotherNe]

theorem unbind (settles : indirection.Settles store other) (outcome : Except Abort Flow)
    (ne : name ≠ indirection.name) (neTarget : name ≠ indirection.target) :
    indirection.Settles (Visit.unbind name outcome store) (Visit.unbind name outcome other) := by
  by_cases crashed : outcome = .error .crashed
  · rw [crashed]
    exact settles
  · rw [Visit.unbind_of_ne crashed, Visit.unbind_of_ne crashed]
    exact settles.erase ne neTarget

theorem merge (settles : indirection.Settles store other) {properties : List Property}
    (apart : ∀ property ∈ properties,
      property.name ≠ indirection.name ∧ property.name ≠ indirection.target) :
    indirection.Settles (store.merge properties) (other.merge properties) := by
  induction properties generalizing store other with
  | nil => exact settles
  | cons first rest ih =>
      rcases List.forall_mem_cons.mp apart with ⟨⟨ne, neTarget⟩, restApart⟩
      exact ih (settles.put ne neTarget) restApart

theorem mergeScoped (settles : indirection.Settles store other) {scope : String}
    (outside : ¬Store.Scoped scope indirection.name)
    (targetOutside : ¬Store.Scoped scope indirection.target) (properties : List Property) :
    indirection.Settles (store.mergeScoped scope properties)
      (other.mergeScoped scope properties) := by
  apply settles.merge
  intro property propertyMem
  rcases List.mem_map.mp propertyMem with ⟨returned, -, rfl⟩
  have inside := Store.scoped_qualify scope returned.name
  exact ⟨fun isCell => outside (isCell ▸ inside), fun isTarget => targetOutside (isTarget ▸ inside)⟩

/-- Copying is refused alike, or both stores come to hold the same copy. -/
theorem copyTo (settles : indirection.Settles store other) {target : String}
    {source : Option String} (ne : target ≠ indirection.name)
    (neTarget : target ≠ indirection.target) (notCell : source ≠ some indirection.name) :
    (∃ problem, PropertyAction.copyTo store target source = .error problem ∧
      PropertyAction.copyTo other target source = .error problem) ∨
    ∃ copied otherCopied, PropertyAction.copyTo store target source = .ok copied ∧
      PropertyAction.copyTo other target source = .ok otherCopied ∧
        indirection.Settles copied otherCopied := by
  unfold PropertyAction.copyTo
  cases source with
  | none => exact .inl ⟨_, rfl, rfl⟩
  | some name =>
      have sameSource := settles.others name fun isCell => notCell (congrArg some isCell)
      have sameTarget := settles.others target ne
      simp only [sameSource, sameTarget]
      cases store.get? name with
      | none => exact .inl ⟨_, rfl, rfl⟩
      | some property =>
          cases store.get? target with
          | none => exact .inr ⟨_, _, rfl, rfl, settles.put ne neTarget⟩
          | some old =>
              dsimp only
              split
              · exact .inr ⟨_, _, rfl, rfl, settles.insert _ ne neTarget⟩
              · exact .inl ⟨_, rfl, rfl⟩

theorem setTo (settles : indirection.Settles store other) {target : String}
    (literal : Option String) (kind : Option PropertyKind) (ne : target ≠ indirection.name)
    (neTarget : target ≠ indirection.target) :
    indirection.Settles (PropertyAction.setTo store target literal kind).1
        (PropertyAction.setTo other target literal kind).1 ∧
      (PropertyAction.setTo other target literal kind).2 =
        (PropertyAction.setTo store target literal kind).2 := by
  unfold PropertyAction.setTo
  cases literal with
  | none => exact ⟨settles, rfl⟩
  | some literal =>
      dsimp only
      rw [settles.others target ne]
      split
      · exact ⟨settles.insert _ ne neTarget, rfl⟩
      · exact ⟨settles.insert _ ne neTarget, rfl⟩

/-- A property action on another name does the same to both stores, and fails alike. -/
theorem apply (settles : indirection.Settles store other) {action : PropertyAction}
    (ne : action.target ≠ indirection.name) (neTarget : action.target ≠ indirection.target)
    (notCopied : ¬(action.verb = .copy ∧ action.source = some indirection.name)) :
    indirection.Settles (action.apply store).1 (action.apply other).1 ∧
      (action.apply other).2 = (action.apply store).2 := by
  unfold PropertyAction.apply
  cases verb : action.verb with
  | clear =>
      dsimp only
      rw [settles.others action.target ne]
      cases store.get? action.target with
      | none => exact ⟨settles, rfl⟩
      | some property => exact ⟨settles.insert _ ne neTarget, rfl⟩
  | delete => exact ⟨settles.erase ne neTarget, rfl⟩
  | copy =>
      have notCell : action.source ≠ some indirection.name := fun isCell => notCopied ⟨verb, isCell⟩
      rcases settles.copyTo ne neTarget notCell with
        ⟨problem, refused, otherRefused⟩ | ⟨copied, otherCopied, copies, otherCopies, settles⟩
      · simp only [refused, otherRefused]
        exact ⟨settles, True.intro⟩
      · simp only [copies, otherCopies]
        exact ⟨settles, True.intro⟩
  | set => exact settles.setTo _ _ ne neTarget

end Settles

end Indirection

end TestEngine
