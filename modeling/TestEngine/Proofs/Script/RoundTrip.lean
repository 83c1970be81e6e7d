import TestEngine.Proofs.Calendar.Timestamp
import TestEngine.Proofs.Json.Record
import TestEngine.Property.Json
import TestEngine.Script.Json

/-!
# Properties and scripts read back

A property is read back from every document that stores it, however deep lists lie in each other.
Numbers that are not finite are the exception, as they are stored as null, and so are dates whose
own text says something else.

A script is read back from every document that stores it, with steps of all kinds in each other.
Each kind has a record that fits the fields it writes; the fields of a step beside them have other
names.
-/

namespace TestEngine

open Calendar Json

mutual

/-- Whether a document can hold a value: its numbers are finite, and its dates are what their own
texts say. -/
def Value.IsStorable : Value → Prop
  | .double value => ∀ d ∈ value, d.isFinite
  | .date value => ∀ instant ∈ value, instant.IsRegular
  | .list items => Property.AreStorable items
  | _ => True

def Property.IsStorable : Property → Prop
  | ⟨_, _, value⟩ => value.IsStorable

def Property.AreStorable : List Property → Prop
  | [] => True
  | property :: rest => property.IsStorable ∧ Property.AreStorable rest

end

namespace Json

theorem Decoder.Reads.timestamp {limit : Nat} {text : String} {instant : Instant}
    (isText : readTimestamp? text = some instant) :
    Decode.timestamp.Reads limit (.string text) instant := by
  rintro stored ⟨⟩ depth lt deep
  simp [Source.ofJson, Decode.timestamp, Decode.string, isText, bind, Except.bind]

namespace Decode

theorem selectVariant_kind (kind : PropertyKind) :
    selectVariant (PropertyKind.all.map fun kind => (kind.name, kind)) (some (.string kind.name)) =
      .ok kind := by
  cases kind <;> rfl

/-- The value of a property is read as one of the kind that is named beside it. -/
theorem typedValue_reads {property : Decoder Property} {value : Value} {limit : Nat}
    (reads : (valueOfKind property value.kind).Reads limit value.toJson value) :
    FieldsRead (typedValue property) limit
      [("type", .string value.kind.name), ("value", value.toJson)] value := by
  intro stored depth lt holds
  rcases holds.uniqueField "type" rfl with ⟨_, ⟨⟩, _, isTag⟩
  rcases holds.uniqueField "value" rfl with ⟨content, storesContent, mem, isContent⟩
  have isValue := reads content storesContent depth lt (holds.deep _ mem)
  simp only [typedValue, isTag, isContent]
  change (selectVariant _ (some (.string value.kind.name))).bind _ = _
  rw [selectVariant_kind]
  exact isValue

end Decode

end Json

mutual

theorem Value.reads : (value : Value) → value.IsStorable → (lists : Nat) →
    (Decode.valueOfKind (Decode.nestedProperty lists) value.kind).Reads lists value.toJson value
  | .boolean none, _, _ => Decoder.Reads.optionalNone.map Value.boolean
  | .boolean (some b), _, _ => (Decoder.Reads.optionalSome (.bool b) nofun).map Value.boolean
  | .string value, _, _ => (Decoder.Reads.string? value).map Value.string
  | .integer none, _, _ => Decoder.Reads.optionalNone.map Value.integer
  | .integer (some n), _, _ => (Decoder.Reads.optionalSome (.int32 n) nofun).map Value.integer
  | .long none, _, _ => Decoder.Reads.optionalNone.map Value.long
  | .long (some n), _, _ => (Decoder.Reads.optionalSome (.int64 n) nofun).map Value.long
  | .double none, _, _ => Decoder.Reads.optionalNone.map Value.double
  | .double (some d), storable, _ => by
      have isFinite : d.isFinite := storable d rfl
      have notNull : ¬(Json.double d).StoredAs .null := by
        rintro (_ | _ | _ | _ | notFinite)
        simp [isFinite] at notFinite
      exact (Decoder.Reads.optionalSome (.double isFinite) notNull).map Value.double
  | .date none, _, _ => Decoder.Reads.optionalNone.map Value.date
  | .date (some instant), storable, _ =>
      have isText := readTimestamp?_timestamp (storable instant rfl)
      (Decoder.Reads.optionalSome (.timestamp isText) nofun).map Value.date
  | .xml value, _, _ => (Decoder.Reads.string? value).map Value.xml
  | .xpath value, _, _ => (Decoder.Reads.string? value).map Value.xpath
  | .file value, _, _ => (Decoder.Reads.string? value).map Value.file
  | .sql value, _, _ => (Decoder.Reads.string? value).map Value.sql
  | .list items, storable, _ =>
      (Decoder.Reads.listWithin (Property.listToJson_reads items storable)).map Value.list

theorem Property.nestedProperty_reads : (property : Property) → property.IsStorable →
    (lists : Nat) → (Decode.nestedProperty lists).Reads lists property.toJson property
  | _, _, 0 => fun _ _ _ lt => absurd lt (Nat.not_lt_zero _)
  | ⟨name, some reference, value⟩, storable, lists + 1 => by
      refine Record.Fits.withRest ?_ ["name", "reference"] (fun _ => rfl) (by simp) ?_
      · exact (Record.Fits.done Property.mk)
          |>.required "name" rfl (.string name)
          |>.optional "reference" rfl (.optionalSome (.string reference) nofun)
      · exact Decode.typedValue_reads (value.reads storable lists)
  | ⟨name, none, value⟩, storable, lists + 1 => by
      refine Record.Fits.withRest ?_ ["name", "reference"] (fun _ => rfl) (by simp) ?_
      · exact (Record.Fits.done Property.mk)
          |>.required "name" rfl (.string name)
          |>.without "reference" rfl
      · exact Decode.typedValue_reads (value.reads storable lists)

theorem Property.listToJson_reads : (properties : List Property) →
    Property.AreStorable properties → List.Forall₂
      (fun json property => ∀ lists, (Decode.nestedProperty lists).Reads lists json property)
      (Property.listToJson properties) properties
  | [], _ => .nil
  | property :: rest, storable =>
      .cons (property.nestedProperty_reads storable.1) (Property.listToJson_reads rest storable.2)

end

theorem Property.reads {limit : Nat} {properties : List Property}
    (storable : Property.AreStorable properties) :
    (Decode.list Decode.property).Reads limit (.array (Property.listToJson properties))
      properties :=
  .nestedList (Property.listToJson_reads properties storable)

/-! ## Scripts -/

theorem LogLevel.ofName?_name (level : LogLevel) : LogLevel.ofName? level.name = some level := by
  cases level <;> rfl

theorem PropertyVerb.ofName?_name (verb : PropertyVerb) :
    PropertyVerb.ofName? verb.name = some verb := by
  cases verb <;> rfl

mutual

/-- Whether a document can hold all properties of a script. -/
def Script.IsStorable : Script → Prop
  | ⟨_, _, _, steps⟩ => Step.AreStorable steps

def Step.IsStorable : Step → Prop
  | ⟨_, _, kind⟩ => kind.IsStorable

def StepKind.IsStorable : StepKind → Prop
  | .logger _ children | .execution children | .loop _ children | .foreach _ _ children
  | .lock _ _ children => Step.AreStorable children
  | .condition block => block.IsStorable
  | .breakLoop conditions => Block.AreStorable conditions
  | .action action => Property.AreStorable action.properties
  | .function function => Property.AreStorable function.properties
  | .script script => script.IsStorable
  | .textMessage _ | .assertion _ | .propertyAction _ => True

def Block.IsStorable : Block → Prop
  | ⟨_, children⟩ => Step.AreStorable children

def Step.AreStorable : List Step → Prop
  | [] => True
  | step :: rest => step.IsStorable ∧ Step.AreStorable rest

def Block.AreStorable : List Block → Prop
  | [] => True
  | block :: rest => block.IsStorable ∧ Block.AreStorable rest

end

variable {limit : Nat}

/-! ### Records without steps -/

theorem Json.Decoder.Reads.uint64? (n : Option UInt64) :
    (Decode.optional Decode.uint64).Reads limit (Json.ofUInt64? n) n := by
  cases n with
  | none => exact .optionalNone
  | some n => exact .optionalSome (.uint64 n) nofun

theorem Metadata.reads (metadata : Metadata) :
    Decode.metadata.Reads limit metadata.toJson metadata := by
  refine (Record.Fits.decode ?_ (by simp)).mono limit.le_succ
  exact (Record.Fits.done Metadata.mk)
    |>.required "name" rfl (.string metadata.name)
    |>.required "engine" rfl (.string metadata.engine)
    |>.optional "operation" rfl (.string? metadata.operation)
    |>.optional "action_type" rfl (.string? metadata.actionType)

theorem Action.fits (action : Action) (storable : Property.AreStorable action.properties) :
    Decode.action.Fits limit (StepKind.action action).fields action := by
  have readsMetadata : List.Forall₂ (Decode.metadata.Reads limit)
      (action.metadata.map Metadata.toJson) action.metadata :=
    List.forall₂_map_left_iff.mpr (List.forall₂_same.mpr fun metadata _ => metadata.reads)
  exact (Record.Fits.done Action.mk)
    |>.required "name" rfl (.string action.name)
    |>.defaulted "metadata" rfl (.list readsMetadata)
    |>.defaulted "properties" rfl (Property.reads storable)
    |>.optional "delay_ms" rfl (.uint64? action.delay)

theorem Assertion.fits (assertion : Assertion) :
    Decode.assertion.Fits limit (StepKind.assertion assertion).fields assertion :=
  (Record.Fits.done Assertion.mk)
    |>.defaulted "fail" rfl (.bool assertion.fail)
    |>.optional "message" rfl (.string? assertion.message)
    |>.optional "class_name" rfl (.string? assertion.checkName)
    |>.optional "property" rfl (.string? assertion.property)

theorem PropertyAction.fits (action : PropertyAction) :
    Decode.propertyAction.Fits limit (StepKind.propertyAction action).fields action :=
  (Record.Fits.done PropertyAction.mk)
    |>.required "action" rfl (.word action.verb.ofName?_name)
    |>.required "property" rfl (.string action.target)
    |>.optional "source" rfl (.string? action.source)
    |>.optional "value" rfl (.string? action.value)
    |>.optional "property_type" rfl (.word? PropertyKind.ofName?_name action.kind)

theorem Function.fits (function : Function) (storable : Property.AreStorable function.properties) :
    Decode.function.Fits limit (StepKind.function function).fields function :=
  (Record.Fits.done Function.mk)
    |>.required "name" rfl (.string function.name)
    |>.required "source" rfl (.string function.source)
    |>.defaulted "properties" rfl (Property.reads storable)

/-! ### Records with steps -/

section Steps

variable {step : Decoder Step} {children : List Step}

theorem Guard.fits (guard : Guard)
    (reads : (Decode.list step).Reads limit (.array (Step.listToJson children)) children) :
    (Decode.block step).Fits limit (Block.fields ⟨guard, children⟩) ⟨guard, children⟩ :=
  (Record.Fits.done fun property operator value valueProperty children =>
      Block.mk ⟨property, operator, value, valueProperty⟩ children)
    |>.required "property" rfl (.string guard.property)
    |>.required "operator" rfl (.word guard.operator.ofName?_name)
    |>.optional "value" rfl (.string? guard.value)
    |>.optional "value_property" rfl (.string? guard.valueProperty)
    |>.defaulted "children" rfl reads

theorem LoopBounds.fits (bounds : LoopBounds)
    (reads : (Decode.list step).Reads limit (.array (Step.listToJson children)) children) :
    (Decode.loop step).Fits limit (StepKind.loop bounds children).fields (.loop bounds children) :=
  (Record.Fits.done fun maxIterations maxDuration index wait children =>
      StepKind.loop ⟨maxIterations, maxDuration, index, wait⟩ children)
    |>.defaulted "max_iterations" rfl (.uint32 bounds.maxIterations)
    |>.defaulted "max_duration_ms" rfl (.uint64 bounds.maxDuration)
    |>.optional "index" rfl (.string? bounds.index)
    |>.defaulted "wait_ms" rfl (.uint64 bounds.wait)
    |>.defaulted "children" rfl reads

theorem Script.reads_of_steps {id name : String} {order : UInt32}
    (reads : (Decode.list step).Reads limit (.array (Step.listToJson children)) children) :
    (Decode.scriptOf step).decode.Reads limit (Script.toJson ⟨id, name, order, children⟩)
      ⟨id, name, order, children⟩ := by
  refine (Record.Fits.decode ?_ (by simp)).mono limit.le_succ
  exact (Record.Fits.done Script.mk)
    |>.required "id" rfl (.string id)
    |>.required "name" rfl (.string name)
    |>.defaulted "order" rfl (.uint32 order)
    |>.defaulted "elements" rfl reads

end Steps

/-! ### Steps -/

theorem StepKind.nodup_names (kind : StepKind) :
    ("id" :: "order" :: "type" :: kind.fields.map Prod.fst).Nodup := by
  cases kind with
  | condition block =>
      cases block
      simp [fields, Block.fields, Guard.fields]
  | _ => simp [fields]

/-- No field of a kind has the name of one that all steps have. -/
theorem StepKind.filter_fields (kind : StepKind) (keep : String → Bool)
    (keeps : ∀ name, name ∉ ["id", "order", "type"] → keep name) :
    kind.fields.filter (fun field => keep field.1) = kind.fields := by
  refine List.filter_eq_self.mpr fun field mem => keeps _ ?_
  have nameMem : field.1 ∈ kind.fields.map Prod.fst := List.mem_map_of_mem mem
  have names : (["id", "order", "type"] ++ kind.fields.map Prod.fst).Nodup := kind.nodup_names
  exact fun isOwn => (List.nodup_append.mp names).2.2 _ isOwn _ nameMem rfl

/-- The kind of a step is read as the record that is named among its fields says. -/
theorem Json.Decode.stepKind_reads {step : Decoder Step} {kind : StepKind}
    {record : Record StepKind}
    (isRecord : selectVariant (stepKinds step) (some (.string kind.name)) = .ok record)
    (fits : record.Fits limit kind.fields kind) :
    FieldsRead (stepKind step) limit (("type", .string kind.name) :: kind.fields) kind := by
  intro stored depth lt holds
  rcases holds.uniqueField "type" rfl with ⟨_, ⟨⟩, _, isTag⟩
  have holdsKind : Holds kind.fields (stored.filter fun field => field.1 ≠ "type") depth :=
    kind.filter_fields (fun name => name ≠ "type") (by simp) ▸
      holds.filter fun name => name ≠ "type"
  have others := Source.filter_ofFields stored fun key => key ≠ some "type"
  simp only [ne_eq, Option.some.injEq] at others
  simp only [stepKind, isTag]
  change (selectVariant _ (some (.string kind.name))).bind _ = _
  rw [isRecord]
  change record.read _ _ ((Source.ofFields stored).filter _) _ = _
  simp only [ne_eq, others]
  exact fits.read lt holdsKind fun _ _ => rfl

/-! The induction is on the syntax. How far a decoder can go down is given from outside: a step is
read by every decoder that goes down farther than the document does. -/

mutual

theorem Step.nestedStep_reads : (step : Step) → step.IsStorable → (steps : Nat) →
    (Decode.nestedStep steps).Reads steps step.toJson step
  | _, _, 0 => fun _ _ _ lt => absurd lt (Nat.not_lt_zero _)
  | ⟨id, order, kind⟩, storable, steps + 1 => by
      rcases kind.exists_fits storable steps with ⟨record, isRecord, fits⟩
      refine Record.Fits.withRest ?_ ["id", "order"] (fun _ => rfl) ?_ ?_
      · exact (Record.Fits.done Step.mk)
          |>.defaulted "id" rfl (.string id)
          |>.defaulted "order" rfl (.uint32 order)
      · exact kind.nodup_names
      · -- Beside the fields of all steps there are the name of the kind and the fields of the kind.
        have rest : (("type", Json.string kind.name) :: kind.fields).filter
            (fun field => field.1 ∉ ["id", "order"]) = ("type", .string kind.name) :: kind.fields :=
          congrArg _ (kind.filter_fields (fun name => name ∉ ["id", "order"]) (by simp_all))
        have readsKind := Decode.stepKind_reads isRecord fits
        rw [← rest] at readsKind
        exact readsKind

theorem StepKind.exists_fits : (kind : StepKind) → kind.IsStorable → (steps : Nat) →
    ∃ record,
      selectVariant (Decode.stepKinds (Decode.nestedStep steps)) (some (.string kind.name)) =
        .ok record ∧ record.Fits steps kind.fields kind
  | .logger level children, storable, _ =>
      ⟨_, rfl, (Record.Fits.done StepKind.logger)
        |>.defaulted "level" rfl (.word level.ofName?_name)
        |>.defaulted "children" rfl (.listWithin (Step.listToJson_reads children storable))⟩
  | .textMessage message, _, _ =>
      ⟨_, rfl, (Record.Fits.done fun text property => StepKind.textMessage ⟨text, property⟩)
        |>.defaulted "text" rfl (.string message.text)
        |>.optional "property" rfl (.string? message.property)⟩
  | .condition ⟨guard, children⟩, storable, _ =>
      ⟨_, rfl, (guard.fits (.listWithin (Step.listToJson_reads children storable))).map
        StepKind.condition⟩
  | .execution children, storable, _ =>
      ⟨_, rfl, (Record.Fits.done StepKind.execution)
        |>.defaulted "children" rfl (.listWithin (Step.listToJson_reads children storable))⟩
  | .action action, storable, _ => ⟨_, rfl, (action.fits storable).map StepKind.action⟩
  | .assertion assertion, _, _ => ⟨_, rfl, assertion.fits.map StepKind.assertion⟩
  | .loop bounds children, storable, _ =>
      ⟨_, rfl, bounds.fits (.listWithin (Step.listToJson_reads children storable))⟩
  | .foreach list element children, storable, _ =>
      ⟨_, rfl, (Record.Fits.done StepKind.foreach)
        |>.required "list" rfl (.string list)
        |>.required "element" rfl (.string element)
        |>.defaulted "children" rfl (.listWithin (Step.listToJson_reads children storable))⟩
  | .breakLoop conditions, storable, steps =>
      ⟨_, rfl, (Record.Fits.done StepKind.breakLoop)
        |>.defaulted "conditions" rfl (.list (Block.listToJson_reads conditions storable steps))⟩
  | .lock name timeout children, storable, _ =>
      ⟨_, rfl, (Record.Fits.done StepKind.lock)
        |>.required "name" rfl (.string name)
        |>.optional "timeout_ms" rfl (.uint64? timeout)
        |>.defaulted "children" rfl (.listWithin (Step.listToJson_reads children storable))⟩
  | .propertyAction action, _, _ => ⟨_, rfl, action.fits.map StepKind.propertyAction⟩
  | .script ⟨_, _, _, children⟩, storable, _ =>
      ⟨_, rfl, (Record.Fits.done StepKind.script)
        |>.required "script" rfl
          (Script.reads_of_steps (.listWithin (Step.listToJson_reads children storable)))⟩
  | .function function, storable, _ => ⟨_, rfl, (function.fits storable).map StepKind.function⟩

theorem Step.listToJson_reads : (steps : List Step) → Step.AreStorable steps →
    List.Forall₂ (fun json step => ∀ nesting, (Decode.nestedStep nesting).Reads nesting json step)
      (Step.listToJson steps) steps
  | [], _ => .nil
  | step :: rest, storable =>
      .cons (step.nestedStep_reads storable.1) (Step.listToJson_reads rest storable.2)

theorem Block.listToJson_reads : (blocks : List Block) → Block.AreStorable blocks →
    (steps : Nat) → List.Forall₂ ((Decode.block (Decode.nestedStep steps)).decode.Reads steps)
      (Block.listToJson blocks) blocks
  | [], _, _ => .nil
  | ⟨guard, children⟩ :: rest, storable, steps =>
      have fits := guard.fits (.listWithin (Step.listToJson_reads children storable.1))
      .cons ((fits.decode (by simp [Block.fields, Guard.fields])).mono steps.le_succ)
        (Block.listToJson_reads rest storable.2 steps)

end

theorem Script.reads (script : Script) (storable : script.IsStorable) :
    Decode.script.Reads limit script.toJson script := by
  cases script with
  | mk id name order steps =>
      exact Script.reads_of_steps (.nestedList (Step.listToJson_reads steps storable))

end TestEngine
