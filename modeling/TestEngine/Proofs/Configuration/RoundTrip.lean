import TestEngine.Configuration.Json
import TestEngine.Proofs.Script.RoundTrip

/-!
# Configurations read back

A configuration is read back from every document that stores it: with its fields in any order, with
elements, scripts, steps and lists of properties in each other to any depth. What is written again
is what was written before.
-/

namespace TestEngine

open Calendar Json

theorem ExecutionMode.ofName?_name (mode : ExecutionMode) :
    ExecutionMode.ofName? mode.name = some mode := by
  cases mode <;> rfl

theorem ScriptPolicy.ofName?_name (policy : ScriptPolicy) :
    ScriptPolicy.ofName? policy.name = some policy := by
  cases policy <;> rfl

theorem DependencyRule.ofName?_name (rule : DependencyRule) :
    DependencyRule.ofName? rule.name = some rule := by
  cases rule <;> rfl

mutual

/-- Whether a document can hold all properties of an element and of those below it. -/
def Element.IsStorable : Element → Prop
  | ⟨_, _, _, _, _, children, scripts, _, properties, _⟩ =>
    Element.AreStorable children ∧ (∀ script ∈ scripts, script.IsStorable) ∧
      Property.AreStorable properties

def Element.AreStorable : List Element → Prop
  | [] => True
  | element :: rest => element.IsStorable ∧ Element.AreStorable rest

end

def Configuration.IsStorable (configuration : Configuration) : Prop :=
  Element.AreStorable configuration.elements

variable {limit : Nat}

theorem Schema.reads (schema : Schema) : Decode.schema.Reads limit schema.toJson schema := by
  refine (Record.Fits.decode ?_ (by simp)).mono limit.le_succ
  exact (Record.Fits.done Schema.mk)
    |>.required "id" rfl (.string schema.id)
    |>.defaulted "name" rfl (.string schema.name)
    |>.defaulted "level" rfl (.uint32 schema.level)
    |>.defaulted "scripts" rfl (.word schema.scripts.ofName?_name)
    |>.defaulted "skippable" rfl (.bool schema.skippable)
    |>.defaulted "dependency_check" rfl (.bool schema.dependencyCheck)
    |>.defaulted "dependency_algorithm" rfl (.word schema.dependencyRule.ofName?_name)
    |>.defaulted "property_container" rfl (.bool schema.propertyContainer)

theorem Schema.reads? (schema : Option Schema) :
    (Decode.optional Decode.schema).Reads limit ((schema.map Schema.toJson).getD .null)
      schema := by
  cases schema with
  | none => exact .optionalNone
  | some schema => exact .optionalSome schema.reads nofun

theorem Json.Decoder.Reads.strings (texts : List String) :
    (Decode.list Decode.string).Reads limit (.array (texts.map Json.string)) texts :=
  .list (List.forall₂_map_left_iff.mpr (List.forall₂_same.mpr fun text _ => .string text))

theorem Script.list_reads {scripts : List Script}
    (storable : ∀ script ∈ scripts, script.IsStorable) :
    (Decode.list Decode.script).Reads limit (.array (scripts.map Script.toJson)) scripts :=
  .list (List.forall₂_map_left_iff.mpr
    (List.forall₂_same.mpr fun script mem => script.reads (storable script mem)))

mutual

theorem Element.nestedElement_reads : (element : Element) → element.IsStorable →
    (elements : Nat) → (Decode.nestedElement elements).Reads elements element.toJson element
  | _, _, 0 => fun _ _ _ lt => absurd lt (Nat.not_lt_zero _)
  | ⟨id, name, order, mode, skip, children, scripts, dependencies, properties, schema⟩, storable,
      elements + 1 => by
      refine Record.Fits.decode ?_ (by simp)
      exact (Record.Fits.done Element.mk)
        |>.required "id" rfl (.string id)
        |>.required "name" rfl (.string name)
        |>.defaulted "order" rfl (.uint32 order)
        |>.defaulted "execution_type" rfl (.word mode.ofName?_name)
        |>.defaulted "skip" rfl (.bool skip)
        |>.defaulted "children" rfl (.listWithin (Element.listToJson_reads children storable.1))
        |>.defaulted "scripts" rfl (Script.list_reads storable.2.1)
        |>.defaulted "dependencies" rfl (.strings dependencies)
        |>.defaulted "properties" rfl (Property.reads storable.2.2)
        |>.optional "schema" rfl (Schema.reads? schema)

theorem Element.listToJson_reads : (elements : List Element) → Element.AreStorable elements →
    List.Forall₂
      (fun json element => ∀ nesting, (Decode.nestedElement nesting).Reads nesting json element)
      (Element.listToJson elements) elements
  | [], _ => .nil
  | element :: rest, storable =>
      .cons (element.nestedElement_reads storable.1) (Element.listToJson_reads rest storable.2)

end

namespace Configuration

variable {configuration : Configuration}

theorem reads (storable : configuration.IsStorable) :
    Decode.configuration.Reads limit configuration.toJson configuration := by
  refine (Record.Fits.decode ?_ (by simp)).mono limit.le_succ
  exact (Record.Fits.done Configuration.mk)
    |>.required "id" rfl (.string configuration.id)
    |>.required "name" rfl (.string configuration.name)
    |>.optional "environment" rfl (.string? configuration.environment)
    |>.optional "release" rfl (.string? configuration.release)
    |>.defaulted "elements" rfl
      (.nestedList (Element.listToJson_reads configuration.elements storable))

/-- The text of a configuration stores it, and from every document that does the configuration is
read back, whatever is in it and in whatever order its fields are. Hence what is read is written as
the configuration was. -/
theorem read_stored (storable : configuration.IsStorable) :
    configuration.toJson.StoredAs configuration.toJson.finite ∧
      ∀ json, configuration.toJson.StoredAs json →
        decodeSource Decode.configuration (.ofJson json) = .ok configuration ∧
          (decodeSource Decode.configuration (.ofJson json)).map toJson =
            .ok configuration.toJson := by
  refine ⟨storedAs_finite configuration.toJson, ?_⟩
  intro json stores
  have isRead : decodeSource Decode.configuration (.ofJson json) = .ok configuration :=
    reads storable json stores _ (Nat.lt_succ_self _) (Nat.le_refl _)
  exact ⟨isRead, by simp [isRead, Except.map]⟩

/-- A manual element with a script that loops over an action and with a list that holds the leap
second at the end of 2016 and a negative zero. -/
def archived : Configuration where
  id := "c"
  name := "Archive"
  environment := some "staging"
  release := none
  elements := [⟨"e", "Element", 2, .manual, true, [],
    [⟨"s", "Script", 0, [⟨"1", 7, .loop ⟨3, 1000, some "i", 0⟩
      [⟨"2", 1, .action ⟨"call", [⟨"host", "shell", some "run", none⟩],
        [⟨"target", some "host", .string none⟩], some 250⟩⟩,
        ⟨"3", 2, .breakLoop [⟨⟨"i", .gt, some "1", none⟩, []⟩]⟩]⟩]⟩],
    ["d"],
    [⟨"items", none, .list [⟨"moment", none, .date (some ⟨1483228799, 1500000000⟩)⟩,
      ⟨"offset", none, .double (some (.zero true))⟩]⟩],
    some ⟨"m", "Manual", 1, .one, true, true, .listed, false⟩⟩]

theorem archived_read_stored :
    archived.IsStorable ∧
      decodeSource Decode.configuration (.ofJson archived.toJson.finite) = .ok archived := by
  have isRegular : Instant.IsRegular ⟨1483228799, 1500000000⟩ := ⟨by decide, by decide⟩
  have isFinite : (Double.zero true).isFinite := rfl
  have storable : archived.IsStorable := by
    simp [IsStorable, archived, Element.AreStorable, Element.IsStorable, Script.IsStorable,
      Step.AreStorable, Step.IsStorable, StepKind.IsStorable, Block.AreStorable, Block.IsStorable,
      Property.AreStorable, Property.IsStorable, Value.IsStorable, isRegular, isFinite]
  rcases read_stored storable with ⟨stores, reads⟩
  exact ⟨storable, (reads _ stores).1⟩

end Configuration

end TestEngine
