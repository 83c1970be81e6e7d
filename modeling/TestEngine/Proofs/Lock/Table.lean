import Mathlib.Logic.Function.Basic
import TestEngine.Lock
import TestEngine.Proofs.NameMap

/-!
# The lines of a lock table

The calls that use a name stand in a line: the first one has the lock, and the others wait for it.
Every operation of a lock table does one thing to the line of its name, and nothing to any other
line: a call goes to its end, a release takes its first call away, and a call that gives up leaves
it wherever it stands.
-/

namespace TestEngine

def LockEntry.line (entry : LockEntry) : List Ticket := entry.owner.toList ++ entry.waiting

/-- An entry whose lock is not waited for while nobody has it. -/
def LockEntry.IsOrderly (entry : LockEntry) : Prop := entry.owner = none → entry.waiting = []

namespace LockEntry

variable {entry : LockEntry} {ticket : Ticket}

theorem owner_eq_head?_line (orderly : entry.IsOrderly) : entry.owner = entry.line.head? := by
  cases hasOwner : entry.owner with
  | none => simp [line, hasOwner, orderly hasOwner]
  | some ticket => simp [line, hasOwner]

theorem isOrderly_handOn (entry : LockEntry) : entry.handOn.IsOrderly := by
  intro noOwner
  rw [handOn, List.head?_eq_none_iff.mp noOwner, List.tail_nil]

theorem line_handOn (orderly : entry.IsOrderly) : entry.handOn.line = entry.line.tail := by
  cases hasOwner : entry.owner with
  | none => simp [line, handOn, hasOwner, orderly hasOwner]
  | some ticket =>
      cases waiting : entry.waiting with
      | nil => simp [line, handOn, hasOwner, waiting]
      | cons next rest => simp [line, handOn, hasOwner, waiting]

theorem isOrderly_join (entry : LockEntry) (ticket : Ticket) : (entry.join ticket).IsOrderly := by
  intro noOwner
  rw [join] at noOwner
  split at noOwner
  · exact nomatch noOwner
  · rename_i hasOwner
    exact absurd noOwner hasOwner

theorem line_join (orderly : entry.IsOrderly) (ticket : Ticket) :
    (entry.join ticket).line = entry.line ++ [ticket] := by
  rw [join]
  split
  · rename_i noOwner
    simp [line, noOwner, orderly noOwner]
  · simp [line]

theorem isOrderly_leave (orderly : entry.IsOrderly) (ticket : Ticket) :
    (entry.leave ticket).IsOrderly := by
  rw [leave]
  split
  · exact entry.isOrderly_handOn
  · intro noOwner
    rw [orderly noOwner, List.filter_nil]

theorem line_leave (orderly : entry.IsOrderly) (distinct : entry.line.Nodup) (ticket : Ticket) :
    (entry.leave ticket).line = entry.line.filter fun standing => standing ≠ ticket := by
  rw [leave]
  split
  · rename_i isOwner
    rw [line_handOn orderly]
    simp only [line, isOwner, Option.toList_some, List.singleton_append,
      List.nodup_cons] at distinct ⊢
    rw [List.tail_cons, List.filter_cons_of_neg (by simp), List.filter_eq_self.mpr]
    intro standing standingMem
    exact decide_eq_true fun same => distinct.1 (same ▸ standingMem)
  · rename_i notOwner
    cases hasOwner : entry.owner with
    | none => simp [line, hasOwner]
    | some owner =>
        have ownerNe : owner ≠ ticket := fun same => notOwner (hasOwner.trans (congrArg _ same))
        simp [line, hasOwner, ownerNe]

/-- A call that joins the line and leaves it at once has done nothing. -/
theorem leave_join (orderly : entry.IsOrderly) (fresh : ticket ∉ entry.line) :
    (entry.join ticket).leave ticket = entry := by
  rcases entry with ⟨_ | owner, waiting⟩
  · obtain rfl : waiting = [] := orderly rfl
    simp [join, leave, handOn]
  · rw [line, List.mem_append, not_or] at fresh
    have ownerNe : owner ≠ ticket := fun same => fresh.1 (by simp [same])
    have others : ∀ standing ∈ waiting, standing ≠ ticket :=
      fun standing standingMem same => fresh.2 (same ▸ standingMem)
    simpa [join, leave, ownerNe, List.filter_append] using others

end LockEntry

namespace LockTable

/-- The calls that use a name, the one that has the lock first. -/
def line (table : LockTable) (name : String) : List Ticket :=
  ((table.entries.get? name).map LockEntry.line).getD []

def Orderly (table : LockTable) : Prop :=
  ∀ name entry, table.entries.get? name = some entry → entry.IsOrderly

variable {table : LockTable} {name : String} {ticket : Ticket}

theorem orderly_empty : empty.Orderly := fun _ _ found => nomatch found

theorem isOwner_iff (orderly : table.Orderly) :
    table.isOwner name ticket ↔ (table.line name).head? = some ticket := by
  rw [isOwner, decide_eq_true_eq, line]
  cases found : table.entries.get? name with
  | none => simp
  | some entry =>
      rw [Option.bind_some, Option.map_some, Option.getD_some,
        LockEntry.owner_eq_head?_line (orderly name entry found)]

theorem Orderly.insert (orderly : table.Orderly) {entry : LockEntry} (isOrderly : entry.IsOrderly)
    (name : String) : Orderly ⟨table.entries.insert name entry⟩ := by
  intro other found hasFound
  rw [NameMap.get?_insert] at hasFound
  split at hasFound
  · exact Option.some.inj hasFound ▸ isOrderly
  · exact orderly other found hasFound

theorem line_insert (table : LockTable) (name : String) (entry : LockEntry) :
    line ⟨table.entries.insert name entry⟩ = Function.update table.line name entry.line := by
  funext other
  rw [Function.update_apply]
  simp only [line, NameMap.get?_insert]
  split <;> rfl

theorem line_eq_nil (noEntry : table.entries.get? name = none) : table.line name = [] := by
  rw [line, noEntry]
  rfl

theorem line_eq_line {entry : LockEntry} (found : table.entries.get? name = some entry) :
    table.line name = entry.line := by
  rw [line, found]
  rfl

theorem Orderly.call (orderly : table.Orderly) (name : String) (ticket : Ticket) :
    (table.call name ticket).Orderly :=
  orderly.insert (LockEntry.isOrderly_join _ ticket) name

theorem line_call (orderly : table.Orderly) (name : String) (ticket : Ticket) :
    (table.call name ticket).line =
      Function.update table.line name (table.line name ++ [ticket]) := by
  rw [call, line_insert]
  congr 1
  cases found : table.entries.get? name with
  | none =>
      rw [line_eq_nil found]
      rfl
  | some entry =>
      rw [line_eq_line found, Option.getD_some, LockEntry.line_join (orderly name entry found)]

theorem Orderly.giveUp (orderly : table.Orderly) (name : String) (ticket : Ticket) :
    (table.giveUp name ticket).Orderly := by
  rw [LockTable.giveUp]
  split
  · exact orderly
  · rename_i entry found
    exact orderly.insert (LockEntry.isOrderly_leave (orderly name entry found) ticket) name

theorem line_giveUp (orderly : table.Orderly) (distinct : (table.line name).Nodup)
    (ticket : Ticket) :
    (table.giveUp name ticket).line =
      Function.update table.line name
        ((table.line name).filter fun standing => standing ≠ ticket) := by
  rw [giveUp]
  split
  · rename_i found
    rw [line_eq_nil found, List.filter_nil, ← line_eq_nil found, Function.update_eq_self]
  · rename_i entry found
    rw [line_eq_line found] at distinct
    rw [line_insert, line_eq_line found,
      LockEntry.line_leave (orderly name entry found) distinct]

/-- A call that is taken back at once leaves the entry of its name, which it made if need be. -/
theorem giveUp_call (orderly : table.Orderly) (fresh : ticket ∉ table.line name) :
    (table.call name ticket).giveUp name ticket =
      ⟨table.entries.insert name ((table.entries.get? name).getD ⟨none, []⟩)⟩ := by
  have left : (((table.entries.get? name).getD ⟨none, []⟩).join ticket).leave ticket =
      (table.entries.get? name).getD ⟨none, []⟩ := by
    cases found : table.entries.get? name with
    | none => exact LockEntry.leave_join (fun _ => rfl) List.not_mem_nil
    | some entry =>
        rw [line_eq_line found] at fresh
        exact LockEntry.leave_join (orderly name entry found) fresh
  simp only [call, giveUp, NameMap.get?_insert, if_true, left, NameMap.insert_insert]

theorem Orderly.release (orderly : table.Orderly) (name : String) :
    (table.release name).Orderly := by
  rw [LockTable.release]
  split
  · exact orderly
  · rename_i entry found
    dsimp only
    split
    · intro other left hasLeft
      rw [NameMap.get?_erase] at hasLeft
      split at hasLeft
      · exact nomatch hasLeft
      · exact orderly other left hasLeft
    · exact orderly.insert entry.isOrderly_handOn name

/-- A release takes the first call of the line away, also where it removes the entry. -/
theorem line_release (orderly : table.Orderly) (name : String) :
    (table.release name).line = Function.update table.line name (table.line name).tail := by
  rw [release]
  split
  · rename_i found
    rw [line_eq_nil found, List.tail_nil, ← line_eq_nil found, Function.update_eq_self]
  · rename_i entry found
    rw [line_eq_line found, ← LockEntry.line_handOn (orderly name entry found)]
    dsimp only
    split
    · rename_i noOwner
      have nobody : entry.handOn.line = [] := by
        simp [LockEntry.line, noOwner, entry.isOrderly_handOn noOwner]
      funext other
      rw [Function.update_apply, nobody]
      simp only [line, NameMap.get?_erase]
      split <;> rfl
    · exact line_insert table name entry.handOn

end LockTable

end TestEngine
