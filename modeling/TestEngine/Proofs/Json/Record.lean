import TestEngine.Proofs.Json.Reads

/-!
# Records that read values back

A record finds its fields in a document by their names, wherever they stand. It reads a value back
if the decoder of every field that was written does, and the fields left out may be missing.
-/

namespace TestEngine.Json

variable {α β : Type}

/-! ### Documents of fields -/

namespace Source

variable {fields : List (String × Json)}

theorem ofFields_eq_map :
    ofFields fields = fields.map fun field => (some field.1, ofJson field.2) := by
  induction fields with
  | nil => rfl
  | cons field fields ih => simp [ofFields, ih]

theorem depthOfFields_le {fields : Fields} {depth : Nat} :
    depthOfFields fields ≤ depth ↔ ∀ field ∈ fields, field.2.depth ≤ depth := by
  induction fields with
  | nil => simp [depthOfFields]
  | cons field fields ih => simp only [depthOfFields, List.forall_mem_cons, Nat.max_le, ih]

theorem depthOfFields_ofFields_le {depth : Nat} :
    depthOfFields (ofFields fields) ≤ depth ↔
      ∀ field ∈ fields, (ofJson field.2).depth ≤ depth := by
  simp only [depthOfFields_le, ofFields_eq_map, List.forall_mem_map]

theorem filter_ofFields (fields : List (String × Json)) (keep : Option String → Bool) :
    (ofFields fields).filter (fun field => keep field.1) =
      ofFields (fields.filter fun field => keep (some field.1)) := by
  simp [ofFields_eq_map, List.filter_map, Function.comp_def]

variable {name : String}

theorem findField_ofFields (fields : List (String × Json)) :
    findField name (ofFields fields) = (lookup name fields).map ofJson := by
  induction fields with
  | nil => rfl
  | cons field fields ih =>
      simp only [ofFields, findField, lookup, Option.some.injEq, ih]
      split <;> rfl

theorem filter_name_eq_singleton (nodup : (fields.map Prod.fst).Nodup) {value : Json}
    (mem : (name, value) ∈ fields) :
    fields.filter (fun field => field.1 = name) = [(name, value)] := by
  induction fields with
  | nil => exact absurd mem List.not_mem_nil
  | cons field fields ih =>
      simp only [List.map_cons, List.nodup_cons] at nodup
      rcases List.mem_cons.mp mem with rfl | mem
      · have others : fields.filter (fun field => field.1 = name) = [] := by
          refine List.filter_eq_nil_iff.mpr fun other otherMem eq => nodup.1 ?_
          exact List.mem_map.mpr ⟨other, otherMem, of_decide_eq_true eq⟩
        simp [others]
      · have ne : field.1 ≠ name := fun eq => nodup.1 (eq ▸ List.mem_map_of_mem mem)
        simpa [ne] using ih nodup.2 mem

theorem uniqueField_ofFields (nodup : (fields.map Prod.fst).Nodup) {value : Json}
    (mem : (name, value) ∈ fields) :
    uniqueField name (ofFields fields) = .ok (some (ofJson value)) := by
  have filtered := filter_ofFields fields fun key => key = some name
  simp only [Option.some.injEq, filter_name_eq_singleton nodup mem] at filtered
  simp [uniqueField, filtered, ofFields]

end Source

theorem mem_of_lookup {fields : List (String × Json)} {name : String} {json : Json}
    (isField : lookup name fields = some json) : (name, json) ∈ fields := by
  induction fields with
  | nil => simp [lookup] at isField
  | cons field fields ih =>
      simp only [lookup] at isField
      split at isField
      · rename_i eq
        simp [← eq, ← Option.some.inj isField]
      · exact List.mem_cons_of_mem _ (ih isField)

theorem lookup_of_mem {fields : List (String × Json)} (nodup : (fields.map Prod.fst).Nodup)
    {name : String} {json : Json} (mem : (name, json) ∈ fields) :
    lookup name fields = some json := by
  induction fields with
  | nil => exact absurd mem List.not_mem_nil
  | cons field fields ih =>
      simp only [List.map_cons, List.nodup_cons] at nodup
      rcases List.mem_cons.mp mem with rfl | mem
      · simp [lookup]
      · have ne : field.1 ≠ name := fun eq => nodup.1 (eq ▸ List.mem_map_of_mem mem)
        simpa [lookup, ne] using ih nodup.2 mem

theorem lookup_eq_none {fields : List (String × Json)} {name : String} :
    lookup name fields = none ↔ name ∉ fields.map Prod.fst := by
  induction fields with
  | nil => simp [lookup]
  | cons field fields ih =>
      simp only [lookup, List.map_cons, List.mem_cons, not_or]
      split
      · simp_all
      · rename_i ne
        simp [ih, Ne.symm ne]

/-! ### What is stored as an object -/

theorem FieldsStoredAs.filter {fields stored : List (String × Json)}
    (stores : FieldsStoredAs fields stored) (keep : String → Bool) :
    FieldsStoredAs (fields.filter fun field => keep field.1)
      (stored.filter fun field => keep field.1) := by
  induction fields generalizing stored with
  | nil =>
      cases stores
      exact .nil
  | cons field fields ih =>
      cases stores with
      | @cons name _ _ _ _ storesFirst storesRest =>
          cases kept : keep name with
          | true => simpa [kept] using .cons storesFirst (ih storesRest)
          | false => simpa [kept] using ih storesRest

namespace StoredAs

variable {fields stored : List (String × Json)}

theorem names_perm (stores : (Json.object fields).StoredAs (.object stored)) :
    (stored.map Prod.fst).Perm (fields.map Prod.fst) := by
  cases stores with
  | object storesFields inAnyOrder => exact storesFields.names ▸ (inAnyOrder.map Prod.fst).symm

theorem exists_field (stores : (Json.object fields).StoredAs (.object stored)) {name : String}
    {json : Json} (isField : lookup name fields = some json) :
    ∃ other, json.StoredAs other ∧ (name, other) ∈ stored := by
  cases stores with
  | object storesFields inAnyOrder =>
      rcases storesFields.exists_mem (mem_of_lookup isField) with ⟨other, storesOther, mem⟩
      exact ⟨other, storesOther, inAnyOrder.subset mem⟩

theorem filter (stores : (Json.object fields).StoredAs (.object stored)) (keep : String → Bool) :
    (Json.object (fields.filter fun field => keep field.1)).StoredAs
      (.object (stored.filter fun field => keep field.1)) := by
  cases stores with
  | object storesFields inAnyOrder => exact .object (storesFields.filter keep) (inAnyOrder.filter _)

end StoredAs

/-- Whether a document has the fields of an object, each of them once and none too deep. -/
structure Holds (fields stored : List (String × Json)) (depth : Nat) : Prop where
  stores : (Json.object fields).StoredAs (.object stored)
  nodup : (stored.map Prod.fst).Nodup
  deep : ∀ field ∈ stored, (Source.ofJson field.2).depth ≤ depth

theorem StoredAs.exists_holds {fields : List (String × Json)} {json : Json}
    (stores : (Json.object fields).StoredAs json) (nodup : (fields.map Prod.fst).Nodup)
    {depth : Nat} (deep : (Source.ofJson json).depth ≤ depth) :
    ∃ stored below, json = .object stored ∧ depth = below + 1 ∧ Holds fields stored below := by
  cases stores with
  | @object _ _ stored storesFields inAnyOrder =>
      have storesAll : (Json.object fields).StoredAs (.object stored) :=
        .object storesFields inAnyOrder
      cases depth with
      | zero => simp [Source.ofJson, Source.depth] at deep
      | succ below =>
          have fieldsDeep := Source.depthOfFields_ofFields_le.mp (Nat.le_of_succ_le_succ deep)
          exact ⟨stored, below, rfl, rfl, storesAll, storesAll.names_perm.nodup_iff.mpr nodup,
            fieldsDeep⟩

namespace Holds

variable {fields stored : List (String × Json)} {depth : Nat}

/-- The one value that a document has under a name. -/
theorem uniqueField (holds : Holds fields stored depth) (name : String) {json : Json}
    (isField : lookup name fields = some json) :
    ∃ other, json.StoredAs other ∧ (name, other) ∈ stored ∧
      Json.uniqueField name (Source.ofFields stored) = .ok (some (Source.ofJson other)) := by
  rcases holds.stores.exists_field isField with ⟨other, storesOther, mem⟩
  exact ⟨other, storesOther, mem, Source.uniqueField_ofFields holds.nodup mem⟩

theorem filter (holds : Holds fields stored depth) (keep : String → Bool) :
    Holds (fields.filter fun field => keep field.1) (stored.filter fun field => keep field.1)
      depth where
  stores := holds.stores.filter keep
  nodup := holds.nodup.sublist (List.filter_sublist.map Prod.fst)
  deep field mem := holds.deep field (List.mem_of_mem_filter mem)

end Holds

/-! ### Records -/

/-- Whether the fields of an object are read back as a value from all documents that have them. -/
def FieldsRead (read : (depth : Nat) → Fields → Decoded α) (limit : Nat)
    (fields : List (String × Json)) (value : α) : Prop :=
  ∀ stored, ∀ depth < limit, Holds fields stored depth →
    read depth (Source.ofFields stored) = .ok value

/-- Whether a record reads its value back and has no problem with any of its fields. -/
def Record.Fits (record : Record α) (limit : Nat) (fields : List (String × Json)) (value : α) :
    Prop :=
  ∀ stored, ∀ depth < limit, Holds fields stored depth →
    (record depth (Source.ofFields stored)).value = .ok value ∧
      ∀ field ∈ (record depth (Source.ofFields stored)).known, field.2 = none

namespace Record.Fits

variable {limit : Nat} {fields : List (String × Json)} {json : Json} {name : String} {value : α}

theorem done (value : α) : (Record.done value).Fits limit fields value :=
  fun _ _ _ _ => ⟨rfl, fun _ mem => absurd mem List.not_mem_nil⟩

section Field

variable {record : Record (α → β)} {make : α → β} {decoder : Decoder α}

theorem andField (fits : record.Fits limit fields make) (isField : lookup name fields = some json)
    (reads : decoder.Reads limit json value) {missing : Decoded α} :
    (record.andField name decoder missing).Fits limit fields (make value) := by
  intro stored depth lt holds
  rcases holds.stores.exists_field isField with ⟨other, storesOther, mem⟩
  rcases fits stored depth lt holds with ⟨isMake, isFine⟩
  have isFound : findField name (Source.ofFields stored) = some (Source.ofJson other) := by
    rw [Source.findField_ofFields, lookup_of_mem holds.nodup mem, Option.map_some]
  have isValue := reads other storesOther depth lt (holds.deep _ mem)
  constructor
  · simp [Record.andField, isMake, isFound, isValue, Except.map]
  · simpa [Record.andField, isFound, isValue, or_imp, forall_and] using isFine

theorem required (fits : record.Fits limit fields make) (name : String)
    (isField : lookup name fields = some json) (reads : decoder.Reads limit json value) :
    (record.required name decoder).Fits limit fields (make value) :=
  fits.andField isField reads

theorem defaulted (fits : record.Fits limit fields make) (name : String)
    (isField : lookup name fields = some json) (reads : decoder.Reads limit json value)
    {default : α} :
    (record.defaulted name decoder default).Fits limit fields (make value) :=
  fits.andField isField reads

end Field

section Optional

variable {record : Record (Option α → β)} {make : Option α → β} {decoder : Decoder α}

theorem optional (fits : record.Fits limit fields make) (name : String)
    (isField : lookup name fields = some json) {value : Option α}
    (reads : (Decode.optional decoder).Reads limit json value) :
    (record.optional name decoder).Fits limit fields (make value) :=
  fits.andField isField reads

/-- A field that was left out is read as no value. -/
theorem without (fits : record.Fits limit fields make) (name : String)
    (isMissing : lookup name fields = none) :
    (record.optional name decoder).Fits limit fields (make none) := by
  intro stored depth lt holds
  rcases fits stored depth lt holds with ⟨isMake, isFine⟩
  have absent : name ∉ stored.map Prod.fst :=
    fun mem => lookup_eq_none.mp isMissing (holds.stores.names_perm.subset mem)
  have isMissing : findField name (Source.ofFields stored) = none := by
    rw [Source.findField_ofFields, lookup_eq_none.mpr absent, Option.map_none]
  constructor
  · simp [Record.optional, Record.andField, isMake, isMissing, Except.map, Except.bind]
  · simpa [Record.optional, Record.andField, isMissing, or_imp, forall_and] using isFine

end Optional

theorem map {record : Record α} (fits : record.Fits limit fields value) (f : α → β) :
    (record.map f).Fits limit fields (f value) := by
  intro stored depth lt holds
  rcases fits stored depth lt holds with ⟨isValue, isFine⟩
  exact ⟨by simp [Record.map, isValue, Except.map], isFine⟩

end Record.Fits

/-! ### Reading objects -/

theorem Record.firstProblem_ofFields {other : Source → Option Fault}
    {known : List (String × Option DecodeError)} (isFine : ∀ field ∈ known, field.2 = none)
    {stored : List (String × Json)} (isQuiet : ∀ field ∈ stored, other (.ofJson field.2) = none)
    (nodup : (stored.map Prod.fst).Nodup) {seen : List String}
    (unseen : ∀ name ∈ stored.map Prod.fst, name ∉ seen) :
    Record.firstProblem other known seen (Source.ofFields stored) = none := by
  induction stored generalizing seen with
  | nil => rfl
  | cons field stored ih =>
      rw [List.forall_mem_cons] at isQuiet
      simp only [List.map_cons, List.nodup_cons, List.forall_mem_cons] at nodup unseen
      simp only [Source.ofFields, Record.firstProblem]
      split
      · -- The record knows the field, and no other one has its name.
        rename_i found
        have noProblem := isFine _ (List.mem_of_find?_eq_some found)
        have unseenRest : ∀ name ∈ stored.map Prod.fst, name ∉ field.1 :: seen := by
          intro name mem
          have ne : name ≠ field.1 := fun eq => nodup.1 (eq ▸ mem)
          simp [ne, unseen.2 name mem]
        simp only at noProblem
        simp [unseen.1, noProblem, ih isQuiet.2 nodup.2 unseenRest]
      · -- The record passes over the field, which has no fault that it would meet.
        simp [isQuiet.1, ih isQuiet.2 nodup.2 unseen.2]

namespace Record.Fits

variable {limit : Nat} {fields : List (String × Json)} {value : α} {record : Record α}

theorem read (fits : record.Fits limit fields value) {stored : List (String × Json)} {depth : Nat}
    (lt : depth < limit) (holds : Holds fields stored depth) {other : Source → Option Fault}
    (isQuiet : ∀ field ∈ stored, other (.ofJson field.2) = none) :
    record.read other depth (Source.ofFields stored) none = .ok value := by
  rcases fits stored depth lt holds with ⟨isValue, isFine⟩
  have noProblem := Record.firstProblem_ofFields isFine isQuiet holds.nodup fun _ _ =>
    List.not_mem_nil
  simp [Record.read, isValue, noProblem]

theorem decode (fits : record.Fits limit fields value) (nodup : (fields.map Prod.fst).Nodup) :
    record.decode.Reads (limit + 1) (.object fields) value := by
  intro json stores depth lt deep
  rcases stores.exists_holds nodup deep with ⟨stored, below, rfl, rfl, holds⟩
  exact fits.read (Nat.lt_of_succ_lt_succ lt) holds fun field _ =>
    Source.faultOfForm_ofJson field.2

/-- An object with fields of its own and those of something else is read back if both are. The
names of its own fields are known before it is read. -/
theorem withRest {own : Record (α → β)} {make : α → β} (fits : own.Fits limit fields make)
    (names : List String) (areNames : ∀ depth, (own depth []).known.map Prod.fst = names)
    (nodup : (fields.map Prod.fst).Nodup) {rest : (depth : Nat) → Fields → Decoded α}
    (readsRest : FieldsRead rest limit (fields.filter fun field => field.1 ∉ names) value) :
    (decodeWithRest own rest).Reads (limit + 1) (.object fields) (make value) := by
  intro json stores depth lt deep
  rcases stores.exists_holds nodup deep with ⟨stored, below, rfl, rfl, holds⟩
  have belowLt := Nat.lt_of_succ_lt_succ lt
  have isMake := fits.read belowLt holds fun field mem =>
    Source.faultOfContent_ofJson field.2 (holds.deep field mem)
  have isValue := readsRest _ below belowLt (holds.filter fun name => name ∉ names)
  have others := Source.filter_ofFields stored fun key => !(key.any fun name => name ∈ names)
  simp only [Option.any_some, ← decide_not] at others
  simp only [Source.ofJson, decodeWithRest, isMake, areNames, others]
  change (rest _ _).map make = _
  rw [isValue]
  rfl

end Record.Fits

end TestEngine.Json
