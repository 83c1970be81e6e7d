import Mathlib.Data.List.Forall2
import TestEngine.Json.Decode
import TestEngine.Json.Source

/-!
# Values as they are stored and read back

A document holds a value with the fields of its objects in some order and with null for every number
that is not finite. Such a document is without faults, however deep it is read.

A decoder reads a value back if it takes every document that stores the value to the value. It may
be able to do so only up to some depth, as decoders of nested data are.
-/

namespace TestEngine.Json

mutual

/-- Whether a document stores a value. -/
inductive StoredAs : Json → Json → Prop
  | null : StoredAs .null .null
  | bool (value : Bool) : StoredAs (.bool value) (.bool value)
  | integer (value : Int) : StoredAs (.integer value) (.integer value)
  | double {value : Double} (isFinite : value.isFinite) : StoredAs (.double value) (.double value)
  | lost {value : Double} (notFinite : value.isFinite = false) : StoredAs (.double value) .null
  | string (value : String) : StoredAs (.string value) (.string value)
  | array {items stored : List Json} (storesItems : ItemsStoredAs items stored) :
      StoredAs (.array items) (.array stored)
  | object {fields middle stored : List (String × Json)}
      (storesFields : FieldsStoredAs fields middle) (inAnyOrder : middle.Perm stored) :
      StoredAs (.object fields) (.object stored)

inductive ItemsStoredAs : List Json → List Json → Prop
  | nil : ItemsStoredAs [] []
  | cons {item stored : Json} {items rest : List Json} (stores : StoredAs item stored)
      (storesRest : ItemsStoredAs items rest) : ItemsStoredAs (item :: items) (stored :: rest)

inductive FieldsStoredAs : List (String × Json) → List (String × Json) → Prop
  | nil : FieldsStoredAs [] []
  | cons {name : String} {value stored : Json} {fields rest : List (String × Json)}
      (stores : StoredAs value stored) (storesRest : FieldsStoredAs fields rest) :
      FieldsStoredAs ((name, value) :: fields) ((name, stored) :: rest)

end

mutual

/-- A value is stored as its text holds it. -/
theorem storedAs_finite : (json : Json) → json.StoredAs json.finite
  | .null => .null
  | .bool value => .bool value
  | .integer value => .integer value
  | .double value => by
      rw [finite]
      split
      · rename_i isFinite
        exact .double isFinite
      · rename_i notFinite
        exact .lost (Bool.eq_false_iff.mpr notFinite)
  | .string value => .string value
  | .array items => .array (itemsStoredAs_finite items)
  | .object fields => .object (fieldsStoredAs_finite fields) (.refl _)

theorem itemsStoredAs_finite : (items : List Json) → ItemsStoredAs items (finiteItems items)
  | [] => .nil
  | item :: rest => .cons (storedAs_finite item) (itemsStoredAs_finite rest)

theorem fieldsStoredAs_finite :
    (fields : List (String × Json)) → FieldsStoredAs fields (finiteFields fields)
  | [] => .nil
  | (_, value) :: rest => .cons (storedAs_finite value) (fieldsStoredAs_finite rest)

end

/-! ### Fields -/

namespace FieldsStoredAs

variable {fields stored : List (String × Json)}

theorem names (stores : FieldsStoredAs fields stored) :
    stored.map Prod.fst = fields.map Prod.fst := by
  induction fields generalizing stored with
  | nil =>
      cases stores
      rfl
  | cons field fields ih =>
      cases stores with
      | cons _ storesRest => simp [ih storesRest]

theorem exists_mem (stores : FieldsStoredAs fields stored) {name : String} {value : Json}
    (mem : (name, value) ∈ fields) : ∃ other, value.StoredAs other ∧ (name, other) ∈ stored := by
  induction fields generalizing stored with
  | nil => exact absurd mem List.not_mem_nil
  | cons field fields ih =>
      cases stores with
      | cons storesFirst storesRest =>
          rcases List.mem_cons.mp mem with isFirst | mem
          · obtain ⟨rfl, rfl⟩ := Prod.mk.inj isFirst
            exact ⟨_, storesFirst, List.mem_cons_self⟩
          · rcases ih storesRest mem with ⟨other, storesOther, otherMem⟩
            exact ⟨other, storesOther, List.mem_cons_of_mem _ otherMem⟩

end FieldsStoredAs

/-! ### Documents without faults -/

namespace Source

mutual

theorem faultOfForm_ofJson : (json : Json) → (ofJson json).faultOfForm = none
  | .null | .bool _ | .integer _ | .double _ | .string _ => rfl
  | .array items => by simp [ofJson, faultOfForm, formOfItems_ofItems items]
  | .object fields => by simp [ofJson, faultOfForm, formOfFields_ofFields fields]

theorem formOfItems_ofItems : (items : List Json) → formOfItems (ofItems items) = none
  | [] => rfl
  | item :: rest => by
      simp [ofItems, formOfItems, faultOfForm_ofJson item, formOfItems_ofItems rest]

theorem formOfFields_ofFields :
    (fields : List (String × Json)) → formOfFields (ofFields fields) = none
  | [] => rfl
  | (name, value) :: rest => by
      simp [ofFields, formOfFields, faultOfForm_ofJson value, formOfFields_ofFields rest]

end

mutual

/-- A value has no fault for whoever reads as deep as it is. -/
theorem faultOfContent_ofJson : (json : Json) → {depth : Nat} → (ofJson json).depth ≤ depth →
    (ofJson json).faultOfContent depth = none
  | .null, _, _ | .bool _, _, _ | .integer _, _, _ | .double _, _, _ | .string _, _, _ => by
      simp [ofJson, faultOfContent]
  | .array items, depth, deep => by
      cases depth with
      | zero => simp [ofJson, Source.depth] at deep
      | succ depth =>
          have itemsDeep : depthOfItems (ofItems items) ≤ depth := Nat.le_of_succ_le_succ deep
          simp [ofJson, faultOfContent, contentOfItems_ofItems items itemsDeep]
  | .object fields, depth, deep => by
      cases depth with
      | zero => simp [ofJson, Source.depth] at deep
      | succ depth =>
          have fieldsDeep : depthOfFields (ofFields fields) ≤ depth := Nat.le_of_succ_le_succ deep
          simp [ofJson, faultOfContent, contentOfFields_ofFields fields fieldsDeep]

theorem contentOfItems_ofItems : (items : List Json) → {depth : Nat} →
    depthOfItems (ofItems items) ≤ depth → contentOfItems depth (ofItems items) = none
  | [], _, _ => by simp [ofItems, contentOfItems]
  | item :: rest, depth, deep => by
      rcases Nat.max_le.mp deep with ⟨itemDeep, restDeep⟩
      simp [ofItems, contentOfItems, faultOfContent_ofJson item itemDeep,
        contentOfItems_ofItems rest restDeep]

theorem contentOfFields_ofFields : (fields : List (String × Json)) → {depth : Nat} →
    depthOfFields (ofFields fields) ≤ depth → contentOfFields depth (ofFields fields) = none
  | [], _, _ => by simp [ofFields, contentOfFields]
  | (name, value) :: rest, depth, deep => by
      rcases Nat.max_le.mp deep with ⟨valueDeep, restDeep⟩
      simp [ofFields, contentOfFields, faultOfContent_ofJson value valueDeep,
        contentOfFields_ofFields rest restDeep]

end

end Source

/-! ## Decoders that read values back -/

variable {α : Type}

/-- Whether a decoder reads a value back from all documents that store it and are not too deep. -/
def Decoder.Reads (decoder : Decoder α) (limit : Nat) (json : Json) (value : α) : Prop :=
  ∀ stored, json.StoredAs stored → ∀ depth < limit, (Source.ofJson stored).depth ≤ depth →
    decoder depth (Source.ofJson stored) = .ok value

namespace Decoder.Reads

variable {limit : Nat} {json : Json}

theorem mono {decoder : Decoder α} {value : α} {lower : Nat}
    (reads : decoder.Reads limit json value) (le : lower ≤ limit) :
    decoder.Reads lower json value :=
  fun stored stores depth lt deep => reads stored stores depth (Nat.lt_of_lt_of_le lt le) deep

/-- Decoders of nested data read to any depth if there is one for each depth. -/
theorem nested {decoder : Nat → Decoder α} {value : α}
    (reads : ∀ nesting, (decoder nesting).Reads nesting json value) :
    Decoder.Reads (fun depth => decoder (depth + 1) depth) limit json value :=
  fun stored stores depth _ deep => reads (depth + 1) stored stores depth depth.lt_succ_self deep

theorem map {β : Type} {decoder : Decoder α} {value : α} (reads : decoder.Reads limit json value)
    (f : α → β) :
    Decoder.Reads (fun depth source => (decoder depth source).map f) limit json (f value) := by
  intro stored stores depth lt deep
  simp [reads stored stores depth lt deep, Except.map]

theorem string (text : String) : Decode.string.Reads limit (.string text) text := by
  rintro stored ⟨⟩ depth lt deep
  rfl

theorem bool (b : Bool) : Decode.bool.Reads limit (.bool b) b := by
  rintro stored ⟨⟩ depth lt deep
  rfl

theorem double {d : Double} (isFinite : d.isFinite) : Decode.double.Reads limit (.double d) d := by
  rintro stored stores depth lt deep
  cases stores with
  | double => rfl
  | lost notFinite => simp [isFinite] at notFinite

theorem integer {low high n : Int} {make : Int → α} {value : α} (lowLe : low ≤ n)
    (leHigh : n ≤ high) (makes : make n = value) :
    (Decode.integer low high make).Reads limit (.integer n) value := by
  rintro stored ⟨⟩ depth lt deep
  simp [Source.ofJson, Decode.integer, lowLe, leHigh, makes]

theorem int32 (n : Int32) : Decode.int32.Reads limit (.integer n.toInt) n :=
  .integer n.le_toInt n.toInt_le n.ofInt_toInt

theorem int64 (n : Int64) : Decode.int64.Reads limit (.integer n.toInt) n :=
  .integer n.le_toInt n.toInt_le n.ofInt_toInt

theorem uint32 (n : UInt32) : Decode.uint32.Reads limit (.integer n.toNat) n := by
  have lt := n.toNat_lt
  refine .integer (by omega) (by simp only [UInt32.size]; omega) ?_
  simp [UInt32.ofInt, ← UInt32.toNat_inj]
  omega

theorem uint64 (n : UInt64) : Decode.uint64.Reads limit (.integer n.toNat) n := by
  have lt := n.toNat_lt
  refine .integer (by omega) (by simp only [UInt64.size]; omega) ?_
  simp [UInt64.ofInt, ← UInt64.toNat_inj]
  omega

theorem word {ofName? : String → Option α} {name : String} {value : α}
    (isName : ofName? name = some value) :
    (Decode.word ofName?).Reads limit (.string name) value := by
  rintro stored ⟨⟩ depth lt deep
  simp [Source.ofJson, Decode.word, isName]

/-! ### Values that may be missing -/

theorem optionalNone {decoder : Decoder α} : (Decode.optional decoder).Reads limit .null none := by
  rintro stored ⟨⟩ depth lt deep
  rfl

theorem optionalSome {decoder : Decoder α} {value : α} (reads : decoder.Reads limit json value)
    (notNull : ¬json.StoredAs .null) :
    (Decode.optional decoder).Reads limit json (some value) := by
  intro stored stores depth lt deep
  have isValue := reads stored stores depth lt deep
  cases stored with
  | null => exact absurd stores notNull
  | _ => simp_all [Source.ofJson, Decode.optional, Except.map]

theorem string? (text : Option String) :
    (Decode.optional Decode.string).Reads limit (ofString? text) text := by
  cases text with
  | none => exact .optionalNone
  | some text => exact .optionalSome (.string text) nofun

theorem word? {ofName? : String → Option α} {name : α → String}
    (isName : ∀ value, ofName? (name value) = some value) (value : Option α) :
    (Decode.optional (Decode.word ofName?)).Reads limit (ofString? (value.map name)) value := by
  cases value with
  | none => exact .optionalNone
  | some value => exact .optionalSome (.word (isName value)) nofun

/-! ### Lists -/

theorem list {decoder : Decoder α} {jsons : List Json} {values : List α}
    (reads : List.Forall₂ (decoder.Reads limit) jsons values) :
    (Decode.list decoder).Reads limit (.array jsons) values := by
  rintro stored ⟨⟩ depth lt deep
  rename_i stored storesItems
  cases depth with
  | zero => simp [Source.ofJson, Source.depth] at deep
  | succ depth =>
      have itemsDeep : Source.depthOfItems (Source.ofItems stored) ≤ depth :=
        Nat.le_of_succ_le_succ deep
      have depthLt := Nat.lt_of_succ_lt lt
      simp only [Source.ofJson, Decode.list]
      clear deep lt
      induction reads generalizing stored with
      | nil =>
          cases storesItems
          rfl
      | cons readsFirst _ ih =>
          cases storesItems with
          | cons storesFirst storesRest =>
              rcases Nat.max_le.mp itemsDeep with ⟨firstDeep, restDeep⟩
              have first := readsFirst _ storesFirst depth depthLt firstDeep
              simp only [Source.ofItems, Decode.items, first, ih storesRest restDeep]
              rfl

section Nested

variable {decoder : Nat → Decoder α} {jsons : List Json} {values : List α}
  (reads : List.Forall₂ (fun json value => ∀ nesting, (decoder nesting).Reads nesting json value)
    jsons values)

include reads

theorem listWithin {nesting : Nat} :
    (Decode.list (decoder nesting)).Reads nesting (.array jsons) values :=
  list (reads.imp fun _ _ readsOne => readsOne nesting)

theorem nestedList :
    (Decode.list fun depth => decoder (depth + 1) depth).Reads limit (.array jsons) values :=
  list (reads.imp fun _ _ readsOne => .nested readsOne)

end Nested

end Decoder.Reads

end TestEngine.Json
