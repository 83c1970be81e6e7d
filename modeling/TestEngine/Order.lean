/-!
# Visiting order

Siblings are visited in ascending `order`; those of equal order keep their places.
-/

namespace TestEngine

variable {α : Type}

def insertInOrder (order : α → UInt32) (item : α) : List α → List α
  | [] => [item]
  | first :: rest =>
    if order item < order first then item :: first :: rest
    else first :: insertInOrder order item rest

/-- Sorts items into visiting order, from the last one to the first one that is put in. -/
def inOrderOnto (order : α → UInt32) : List α → List α → List α
  | sorted, [] => sorted
  | sorted, item :: rest => inOrderOnto order (insertInOrder order item sorted) rest

def inOrder (order : α → UInt32) (items : List α) : List α := inOrderOnto order [] items

theorem insertInOrder_perm (order : α → UInt32) (item : α) (items : List α) :
    (insertInOrder order item items).Perm (item :: items) := by
  induction items with
  | nil => exact .refl _
  | cons first rest ih =>
    unfold insertInOrder
    split
    · exact .refl _
    · exact (ih.cons first).trans (.swap item first rest)

theorem inOrderOnto_perm (order : α → UInt32) (sorted items : List α) :
    (inOrderOnto order sorted items).Perm (sorted ++ items) := by
  induction items generalizing sorted with
  | nil => simp [inOrderOnto]
  | cons item rest ih =>
    exact (ih _).trans <|
      ((insertInOrder_perm order item sorted).append_right rest).trans List.perm_middle.symm

/-- No item is lost and none is visited twice. -/
theorem inOrder_perm (order : α → UInt32) (items : List α) : (inOrder order items).Perm items :=
  inOrderOnto_perm order [] items

end TestEngine
