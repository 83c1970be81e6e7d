import Mathlib.Data.List.Forall2
import Mathlib.Data.List.Nodup
import TestEngine.Order

/-!
# The visiting order

What it means that siblings are visited in ascending order, those of equal order as the author
wrote them, and that `inOrder` does so. Siblings are sorted together with their visits, so it also
has to be known that sorting goes along with a relation that respects the order.
-/

namespace TestEngine

variable {α β : Type}

def Ascending (order : α → UInt32) (items : List α) : Prop :=
  items.Pairwise fun earlier later => order earlier ≤ order later

def ofOrder (order : α → UInt32) (value : UInt32) (items : List α) : List α :=
  items.filter fun item => order item = value

/-- The same items in ascending order, those of equal order as they were. -/
structure VisitingOrder (order : α → UInt32) (items sorted : List α) : Prop where
  perm : sorted.Perm items
  ascending : Ascending order sorted
  authored : ∀ value, ofOrder order value sorted = ofOrder order value items

section Insertion

variable {order : α → UInt32} {item : α} {items : List α}

theorem ascending_insertInOrder (ascending : Ascending order items) :
    Ascending order (insertInOrder order item items) := by
  induction items with
  | nil => exact List.pairwise_singleton _ _
  | cons first rest ih =>
      rcases List.pairwise_cons.mp ascending with ⟨firstLe, restAscending⟩
      rw [insertInOrder]
      split
      · rename_i itemLt
        refine .cons (fun later laterMem => ?_) ascending
        rcases List.mem_cons.mp laterMem with rfl | laterMem
        · exact UInt32.le_of_lt itemLt
        · exact UInt32.le_trans (UInt32.le_of_lt itemLt) (firstLe later laterMem)
      · rename_i notLt
        refine .cons (fun later laterMem => ?_) (ih restAscending)
        have inserted := (insertInOrder_perm order item rest).mem_iff.mp laterMem
        rcases List.mem_cons.mp inserted with rfl | laterMem
        · exact UInt32.not_lt.mp notLt
        · exact firstLe later laterMem

/-- Items that come behind one of a higher order are of a higher order. -/
theorem ofOrder_eq_nil {first : α} {rest : List α} {value : UInt32}
    (ascending : Ascending order (first :: rest)) (valueLt : value < order first) :
    ofOrder order value (first :: rest) = [] := by
  refine List.filter_eq_nil_iff.mpr fun later laterMem => ?_
  have firstLe : order first ≤ order later := by
    rcases List.mem_cons.mp laterMem with rfl | laterMem
    · exact UInt32.le_refl _
    · exact List.rel_of_pairwise_cons ascending laterMem
  have laterNe := UInt32.ne_of_lt (UInt32.lt_of_lt_of_le valueLt firstLe)
  simpa using laterNe.symm

theorem ofOrder_insertInOrder (ascending : Ascending order items) (value : UInt32) :
    ofOrder order value (insertInOrder order item items) =
      ofOrder order value items ++ ofOrder order value [item] := by
  induction items with
  | nil => rfl
  | cons first rest ih =>
      rw [insertInOrder]
      split
      · rename_i itemLt
        by_cases itemIs : order item = value
        · rw [ofOrder_eq_nil ascending (itemIs ▸ itemLt)]
          have noneIs := ofOrder_eq_nil ascending (itemIs ▸ itemLt)
          simp only [ofOrder] at noneIs ⊢
          simp [List.filter_cons_of_pos, itemIs, noneIs]
        · simp [ofOrder, List.filter_cons, itemIs]
      · have inserted := ih ascending.of_cons
        simp only [ofOrder, List.filter_cons] at inserted ⊢
        split <;> simp [inserted]

end Insertion

theorem ascending_inOrderOnto {order : α → UInt32} {sorted : List α} (items : List α)
    (ascending : Ascending order sorted) : Ascending order (inOrderOnto order sorted items) := by
  induction items generalizing sorted with
  | nil => exact ascending
  | cons item rest ih => exact ih (ascending_insertInOrder ascending)

theorem ofOrder_inOrderOnto {order : α → UInt32} {sorted : List α} (items : List α)
    (ascending : Ascending order sorted) (value : UInt32) :
    ofOrder order value (inOrderOnto order sorted items) =
      ofOrder order value sorted ++ ofOrder order value items := by
  induction items generalizing sorted with
  | nil => simp [inOrderOnto, ofOrder]
  | cons item rest ih =>
      have inserted : Ascending order (insertInOrder order item sorted) :=
        ascending_insertInOrder ascending
      rw [inOrderOnto, ih inserted, ofOrder_insertInOrder ascending, List.append_assoc]
      exact congrArg _ (List.filter_append [item] rest).symm

theorem visitingOrder_inOrder (order : α → UInt32) (items : List α) :
    VisitingOrder order items (inOrder order items) where
  perm := inOrder_perm order items
  ascending := ascending_inOrderOnto items .nil
  authored := ofOrder_inOrderOnto items .nil

theorem ofOrder_cons (order : α → UInt32) (value : UInt32) (first : α) (rest : List α) :
    ofOrder order value (first :: rest) =
      if order first = value then first :: ofOrder order value rest
      else ofOrder order value rest := by
  simp [ofOrder, List.filter_cons]

theorem mem_ofOrder {order : α → UInt32} {value : UInt32} {items : List α} {item : α} :
    item ∈ ofOrder order value items ↔ item ∈ items ∧ order item = value := by
  simp [ofOrder]

/-- Ascending items are told by those of each order. -/
theorem eq_of_ofOrder_eq {order : α → UInt32} {items others : List α}
    (ascending : Ascending order items) (othersAscending : Ascending order others)
    (same : ∀ value, ofOrder order value items = ofOrder order value others) : items = others := by
  induction items generalizing others with
  | nil =>
      cases others with
      | nil => rfl
      | cons other rest => simpa [ofOrder] using same (order other)
  | cons first rest ih =>
      cases others with
      | nil => simpa [ofOrder] using same (order first)
      | cons other others =>
          have leastOf {one another : α} {ones anothers : List α}
              (ascending : Ascending order (one :: ones))
              (same : ofOrder order (order another) (one :: ones) =
                ofOrder order (order another) (another :: anothers)) :
              order one ≤ order another := by
            have found : another ∈ ofOrder order (order another) (one :: ones) := by
              rw [same]
              exact mem_ofOrder.mpr ⟨List.mem_cons_self, rfl⟩
            rcases List.mem_cons.mp (mem_ofOrder.mp found).1 with rfl | later
            · exact UInt32.le_refl _
            · exact List.rel_of_pairwise_cons ascending later
          have sameOrder : order first = order other :=
            UInt32.le_antisymm (leastOf ascending (same _))
              (leastOf othersAscending (same _).symm)
          have sameFirst := same (order other)
          rw [ofOrder_cons, ofOrder_cons, if_pos sameOrder, if_pos rfl] at sameFirst
          obtain rfl := (List.cons.inj sameFirst).1
          refine congrArg _ (ih ascending.of_cons othersAscending.of_cons fun value => ?_)
          have sameRest := same value
          rw [ofOrder_cons, ofOrder_cons] at sameRest
          split at sameRest
          · exact (List.cons.inj sameRest).2
          · exact sameRest

/-- There is only one way to bring items into visiting order. -/
theorem VisitingOrder.eq_inOrder {order : α → UInt32} {items sorted : List α}
    (visitingOrder : VisitingOrder order items sorted) : sorted = inOrder order items := by
  have sorts := visitingOrder_inOrder order items
  exact eq_of_ofOrder_eq visitingOrder.ascending sorts.ascending fun value =>
    (visitingOrder.authored value).trans (sorts.authored value).symm

/-- Items of distinct orders are visited in one order however they are listed. -/
theorem inOrder_eq_of_perm {order : α → UInt32} {items others : List α}
    (distinct : (items.map order).Nodup) (perm : items.Perm others) :
    inOrder order items = inOrder order others := by
  have sorts := visitingOrder_inOrder order items
  have othersSorts := visitingOrder_inOrder order others
  refine List.Perm.eq_of_pairwise ?_ sorts.ascending othersSorts.ascending
    (sorts.perm.trans (perm.trans othersSorts.perm.symm))
  intro item other itemMem otherMem itemLe otherLe
  exact List.inj_on_of_nodup_map distinct (sorts.perm.mem_iff.mp itemMem)
    (perm.mem_iff.mpr (othersSorts.perm.mem_iff.mp otherMem))
    (UInt32.le_antisymm itemLe otherLe)

section Relation

variable {relation : α → β → Prop} {leftOrder : α → UInt32} {rightOrder : β → UInt32}

theorem forall₂_insertInOrder {left : α} {right : β} {lefts : List α} {rights : List β}
    (sameOrder : ∀ left right, relation left right → leftOrder left = rightOrder right)
    (related : relation left right) (allRelated : List.Forall₂ relation lefts rights) :
    List.Forall₂ relation (insertInOrder leftOrder left lefts)
      (insertInOrder rightOrder right rights) := by
  induction allRelated with
  | nil => exact .cons related .nil
  | cons firstRelated restRelated ih =>
      simp only [insertInOrder, sameOrder _ _ related, sameOrder _ _ firstRelated]
      split
      · exact .cons related (.cons firstRelated restRelated)
      · exact .cons firstRelated ih

/-- Items that are related one by one, with their orders, are so in visiting order too. -/
theorem forall₂_inOrder {lefts : List α} {rights : List β}
    (sameOrder : ∀ left right, relation left right → leftOrder left = rightOrder right)
    (allRelated : List.Forall₂ relation lefts rights) :
    List.Forall₂ relation (inOrder leftOrder lefts) (inOrder rightOrder rights) := by
  have onto {sortedLefts : List α} {sortedRights : List β}
      (sortedRelated : List.Forall₂ relation sortedLefts sortedRights) :
      List.Forall₂ relation (inOrderOnto leftOrder sortedLefts lefts)
        (inOrderOnto rightOrder sortedRights rights) := by
    induction allRelated generalizing sortedLefts sortedRights with
    | nil => exact sortedRelated
    | cons related _ ih => exact ih (forall₂_insertInOrder sameOrder related sortedRelated)
  exact onto .nil

end Relation

theorem inOrder_map (order : β → UInt32) (change : α → β) (items : List α) :
    inOrder order (items.map change) =
      (inOrder (fun item => order (change item)) items).map change := by
  have related :
      List.Forall₂ (fun changed item => changed = change item) (items.map change) items :=
    List.forall₂_map_left_iff.mpr (List.forall₂_same.mpr fun _ _ => rfl)
  have sorted : List.Forall₂ (fun changed item => changed = change item)
      (inOrder order (items.map change)) (inOrder (fun item => order (change item)) items) :=
    forall₂_inOrder (by rintro _ item rfl; rfl) related
  rw [← List.forall₂_eq_eq_eq, List.forall₂_map_right_iff]
  exact sorted

end TestEngine
