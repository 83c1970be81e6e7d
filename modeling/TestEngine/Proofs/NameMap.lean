import TestEngine.NameMap

/-!
# Tables that are put back

What is done to the entry of one name can be undone: a table is as it was, and not only reads as it
did, when the name has its old entry again. Whatever is done to it, those who look at other names
find the same entries in the same order. A name reads an entry exactly if it is one of the names of
the table.
-/

namespace TestEngine.NameMap

variable {α : Type} {table : NameMap α} {name : String} {entry : α}

theorem replace_eq_self {entries : List (String × α)} (found : lookup name entries = some entry) :
    replace name entry entries = entries := by
  induction entries with
  | nil => exact nomatch found
  | cons head rest ih =>
      rcases head with ⟨other, old⟩
      rw [lookup] at found
      rw [replace]
      split
      · rename_i same
        rw [if_pos same] at found
        rw [← Option.some.inj found, same]
      · rename_i notSame
        rw [if_neg notSame] at found
        rw [ih found]

theorem replace_replace (name : String) (first second : α) (entries : List (String × α)) :
    replace name second (replace name first entries) = replace name second entries := by
  induction entries with
  | nil => simp [replace]
  | cons head rest ih =>
      rcases head with ⟨other, old⟩
      by_cases same : other = name
      · simp [replace, same]
      · simp [replace, same, ih]

/-- What becomes of a name does not matter to those who look at other names. -/
theorem filter_replace (looks : String → Bool) (notThere : looks name = false) (entry : α)
    (entries : List (String × α)) :
    (replace name entry entries).filter (fun other => looks other.1) =
      entries.filter fun other => looks other.1 := by
  induction entries with
  | nil => simp [replace, notThere]
  | cons head rest ih =>
      rcases head with ⟨other, old⟩
      by_cases same : other = name
      · simp [replace, same, notThere]
      · simp [replace, same, List.filter_cons, ih]

theorem isSome_lookup_iff {entries : List (String × α)} :
    (lookup name entries).isSome ↔ name ∈ entries.map Prod.fst := by
  induction entries with
  | nil => simp [lookup]
  | cons head rest ih =>
      rw [lookup, List.map_cons, List.mem_cons, ← ih]
      split
      · rename_i same
        simp [same]
      · rename_i notSame
        simp [Ne.symm notSame]

theorem isSome_lookup_of_mem {entries : List (String × α)} {pair : String × α}
    (pairMem : pair ∈ entries) : (lookup pair.1 entries).isSome :=
  isSome_lookup_iff.mpr (List.mem_map_of_mem pairMem)

theorem lookup_of_mem_nodup {entries : List (String × α)} (distinct : (entries.map Prod.fst).Nodup)
    (pairMem : (name, entry) ∈ entries) : lookup name entries = some entry := by
  induction entries with
  | nil => exact nomatch pairMem
  | cons head rest ih =>
      rcases List.nodup_cons.mp distinct with ⟨notOther, restDistinct⟩
      rcases List.mem_cons.mp pairMem with rfl | isOther
      · rw [lookup, if_pos rfl]
      · have apart : head.1 ≠ name := fun same =>
          notOther (same ▸ List.mem_map_of_mem isOther)
        rw [lookup, if_neg apart]
        exact ih restDistinct isOther

theorem filter_eq_self {entries : List (String × α)} (absent : lookup name entries = none) :
    entries.filter (fun other => other.1 ≠ name) = entries := by
  induction entries with
  | nil => rfl
  | cons head rest ih =>
      rcases head with ⟨other, old⟩
      rw [lookup] at absent
      split at absent
      · cases absent
      · rename_i notSame
        simpa [notSame] using ih absent

/-- To enter what is there already changes nothing. -/
theorem insert_eq_self (found : table.get? name = some entry) : table.insert name entry = table :=
  congrArg NameMap.mk (replace_eq_self found)

theorem insert_insert (table : NameMap α) (name : String) (first second : α) :
    (table.insert name first).insert name second = table.insert name second :=
  congrArg NameMap.mk (replace_replace name first second table.entries)

theorem erase_insert (table : NameMap α) (name : String) (entry : α) :
    (table.insert name entry).erase name = table.erase name :=
  congrArg NameMap.mk (filter_replace (· ≠ name) (by simp) entry table.entries)

end TestEngine.NameMap
