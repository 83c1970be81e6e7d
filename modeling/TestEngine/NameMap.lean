/-!
# Tables keyed by name

`NameMap α` holds at most one entry for each name. Property stores, capability registries, lock
tables and caches are all such tables. Nothing that reads a table depends on the order of its
entries; they are kept in the order in which their names were first entered.
-/

namespace TestEngine

/-- A table from names to entries. -/
structure NameMap (α : Type) where
  entries : List (String × α)

namespace NameMap

variable {α : Type}

def empty : NameMap α := ⟨[]⟩

instance : Inhabited (NameMap α) := ⟨empty⟩

def lookup (name : String) : List (String × α) → Option α
  | [] => none
  | (other, entry) :: rest => if other = name then some entry else lookup name rest

/-- Puts an entry in the place of the first one of its name, or at the end. -/
def replace (name : String) (entry : α) : List (String × α) → List (String × α)
  | [] => [(name, entry)]
  | (other, old) :: rest =>
    if other = name then (name, entry) :: rest else (other, old) :: replace name entry rest

def get? (table : NameMap α) (name : String) : Option α := lookup name table.entries

def contains (table : NameMap α) (name : String) : Bool := (table.get? name).isSome

/-- Enters a value under a name, in place of any earlier one. -/
def insert (table : NameMap α) (name : String) (entry : α) : NameMap α :=
  ⟨replace name entry table.entries⟩

def erase (table : NameMap α) (name : String) : NameMap α :=
  ⟨table.entries.filter fun entry => entry.1 ≠ name⟩

def size (table : NameMap α) : Nat := table.entries.length

def names (table : NameMap α) : List String := table.entries.map Prod.fst

def values (table : NameMap α) : List α := table.entries.map Prod.snd

def ofList (pairs : List (String × α)) : NameMap α :=
  pairs.foldl (fun table pair => table.insert pair.1 pair.2) empty

theorem lookup_replace (name other : String) (entry : α) (entries : List (String × α)) :
    lookup other (replace name entry entries) =
      if other = name then some entry else lookup other entries := by
  induction entries with
  | nil => simp [replace, lookup, eq_comm]
  | cons head rest ih =>
    obtain ⟨key, old⟩ := head
    by_cases hkey : key = name
    · subst hkey
      by_cases hother : other = key <;> simp [replace, lookup, hother, eq_comm]
    · by_cases hother : key = other
      · subst hother
        simp [replace, lookup, hkey]
      · simp [replace, lookup, hkey, hother, ih]

/-- A name reads the entry put under it last; every other name reads what it read before. -/
@[simp]
theorem get?_insert (table : NameMap α) (name other : String) (entry : α) :
    (table.insert name entry).get? other = if other = name then some entry else table.get? other :=
  lookup_replace name other entry table.entries

theorem lookup_filter_ne (name other : String) (entries : List (String × α)) :
    lookup other (entries.filter fun entry => entry.1 ≠ name) =
      if other = name then none else lookup other entries := by
  induction entries with
  | nil => simp [lookup]
  | cons head rest ih =>
    obtain ⟨key, old⟩ := head
    by_cases hkey : key = name
    · subst hkey
      by_cases hother : other = key
      · simpa [lookup, hother] using ih
      · simpa [lookup, hother, Ne.symm hother, eq_comm] using ih
    · by_cases hother : key = other
      · subst hother
        simp [lookup, hkey]
      · simpa [lookup, hkey, hother] using ih

/-- Erasing empties one name and leaves every other name alone. -/
@[simp]
theorem get?_erase (table : NameMap α) (name other : String) :
    (table.erase name).get? other = if other = name then none else table.get? other :=
  lookup_filter_ne name other table.entries

@[simp]
theorem get?_empty (name : String) : (empty : NameMap α).get? name = none := rfl

end NameMap

end TestEngine
