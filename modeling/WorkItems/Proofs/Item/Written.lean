import WorkItems.Lifecycle
import WorkItems.Proofs.Contract
import WorkItems.Proofs.Item.Fit

namespace WorkItems

/-! Whatever has been read is written as the contract wants it.

Reading is lenient, and items may be read without asking a schema first.  Still a record holds
nothing but what its form allows, so its document form has declared keys only, no null, and is
admitted by the schema and read as the same record again.  Only the digits of a version are taken
from a larger set by the form than by the schema.
-/

open Schema

variable {kind : ItemType} {value : Value} {item : Item} {project : Project} {record : Record}
  {form : Form} {found : Field → Option FieldValue} {strict : Bool}

/-- Whether a key begins with a small letter and goes on with letters. -/
def CamelCase (key : String) : Prop :=
  key.toList.all Char.isAlpha = true ∧ key.toList.head?.any Char.isLower = true

instance (key : String) : Decidable (CamelCase key) :=
  inferInstanceAs (Decidable (_ ∧ _))

/-- Whether all keys of a record are declared by a form, and in camel case. -/
def Form.NamesAll (form : Form) (record : Record) : Prop :=
  ∀ key ∈ record.toMembers.keys, key ∈ form.map Field.name ∧ CamelCase key

/-- Whether nothing in a value is null. -/
def Value.NoNull (value : Value) : Prop :=
  value.Every fun part => part ≠ .null

theorem FieldValue.toValue_noNull (held : FieldValue) : held.toValue.NoNull := by
  cases held with
  | texts texts =>
      refine Value.every_array_iff.mpr ⟨nofun, fun item member => ?_⟩
      obtain ⟨text, -, rfl⟩ := List.mem_map.mp member
      exact nofun
  | text | flag | count | measure | moment => exact nofun

theorem Record.toValue_noNull (record : Record) : record.toValue.NoNull := by
  refine Value.every_object_iff.mpr ⟨nofun, fun member entry => ?_⟩
  obtain ⟨⟨name, held⟩, -, rfl⟩ := List.mem_map.mp entry
  exact held.toValue_noNull

theorem Form.namesAll_recordOf (camelCase : ∀ field ∈ form, CamelCase field.name) :
    form.NamesAll (form.recordOf found) := by
  intro key listed
  obtain ⟨member, entry, rfl⟩ := List.mem_map.mp listed
  obtain ⟨⟨name, held⟩, among, rfl⟩ := List.mem_map.mp entry
  obtain ⟨field, declared, -, rfl⟩ := Form.mem_recordOf.mp among
  exact ⟨List.mem_map_of_mem declared, camelCase field declared⟩

theorem Forms.ofItemType_camelCase (kind : ItemType) :
    ∀ field ∈ Forms.ofItemType kind, CamelCase field.name := by
  cases kind <;> decide +kernel

/-- The field of the tag. -/
def Forms.typeField (kind : ItemType) : Field :=
  Forms.plainField "type" (.choice [kind.text]) (.withDefault (.text kind.text))

theorem Forms.typeField_mem (kind : ItemType) :
    Forms.typeField kind ∈ Forms.ofItemType kind := by
  cases kind <;> simp [ofItemType, feature, bug, task, shared, typeField]

namespace Item

theorem lookup_toMembers (item : Item) (name : String) :
    item.toMembers.lookup name = (item.record.lookup name).map FieldValue.toValue :=
  Form.lookup_toMembers item.record name

/-- Whether the record of an item is one of the form of its kind. -/
def Filled (item : Item) : Prop :=
  ∃ found, (Forms.ofItemType item.kind).Filled found ∧
    item.record = (Forms.ofItemType item.kind).recordOf found

/-- What the contract wants of a written item. -/
structure WellWritten (item : Item) : Prop where
  keys : (Forms.ofItemType item.kind).NamesAll item.record
  noNull : item.toValue.NoNull
  admitted : Schema.validate true (Contract.schemaOf (.item item.kind)) item.toValue = .ok []
  reread : ∀ strict, Contract.readItem (Contract.engine strict) item.toValue = .ok item

theorem filled_of_readAs (accepted : readAs kind value = .ok item) : item.Filled := by
  obtain ⟨rfl, members, -, read⟩ := readAs_eq_ok_iff.mp accepted
  exact Form.filled_of_readMembers (Forms.ofItemType_proper item.kind) read

theorem filled_of_read (accepted : read value = .ok item) : item.Filled := by
  obtain ⟨members, -, -, read⟩ := read_eq_ok_iff.mp accepted
  exact filled_of_readAs read

namespace Filled

theorem readAs_toValue (filled : item.Filled) : readAs item.kind item.toValue = .ok item := by
  obtain ⟨found, complete, same⟩ := filled
  refine readAs_eq_ok_iff.mpr ⟨rfl, item.toMembers, rfl, ?_⟩
  rw [toMembers, same]
  exact Form.readMembers_toMembers (Forms.ofItemType_proper item.kind) complete

theorem lookup_undeclared {name : String} (filled : item.Filled)
    (undeclared : name ∉ (Forms.ofItemType item.kind).map Field.name) :
    item.record.lookup name = none := by
  obtain ⟨found, -, same⟩ := filled
  rw [same, Form.lookup_recordOf_none undeclared]

theorem tagged (filled : item.Filled) : Tagged item.toMembers item.kind := by
  obtain ⟨found, complete, same⟩ := filled
  have declared := Forms.typeField_mem item.kind
  have kept := Form.lookup_recordOf found
    (Forms.ofItemType_proper item.kind).distinct declared
  obtain ⟨holds, unset⟩ := complete _ declared
  rw [tagged_iff_lookup, toMembers, same, Form.lookup_toMembers]
  cases given : found (Forms.typeField item.kind) with
  | none => exact absurd (unset given) nofun
  | some held =>
      rw [given] at kept
      cases holds held given with
      | choice among =>
          obtain rfl := List.mem_singleton.mp among
          exact ⟨.text item.kind.text, congrArg (Option.map FieldValue.toValue) kept, rfl⟩

theorem admitted (filled : item.Filled) :
    (Blueprint.registered (.ofItemType item.kind)).Admits (.engine strict) item.toValue := by
  obtain ⟨found, complete, same⟩ := filled
  rw [toValue, same, (Forms.ofItemType_fits item.kind).admits_recordOf_iff
    (Forms.ofItemType_proper item.kind) complete]
  intro field declared held given
  exact FieldType.admitsTexts_of_alike ((complete field declared).left held given)
    (Forms.ofItemType_alike item.kind field declared)

theorem checked (filled : item.Filled) :
    Contract.check (Contract.engine strict) (.item item.kind) item.toValue = .ok () :=
  Contract.check_eq_ok_iff.mpr ((Schema.validate_registered_iff _ strict).mpr filled.admitted)

theorem checkedItem (filled : item.Filled) :
    Contract.checkItem (Contract.engine strict) item.toValue = .ok () :=
  (Contract.checkItem_of_tagged filled.tagged).trans filled.checked

theorem wellWritten (filled : item.Filled) : item.WellWritten where
  keys := by
    obtain ⟨found, -, same⟩ := filled
    rw [same]
    exact Form.namesAll_recordOf (Forms.ofItemType_camelCase item.kind)
  noNull := item.record.toValue_noNull
  admitted := Contract.check_eq_ok_iff.mp filled.checked
  reread strict := Contract.readItem_eq_ok_iff.mpr ⟨filled.checkedItem,
    read_eq_ok_iff.mpr ⟨item.toMembers, rfl, filled.tagged, filled.readAs_toValue⟩⟩

end Filled

end Item

namespace Project

/-- Whether all records of a project are ones of their forms. -/
structure Filled (project : Project) : Prop where
  features : ∀ item ∈ project.features, item.kind = .feature ∧ item.Filled
  bugs : ∀ item ∈ project.bugs, item.kind = .bug ∧ item.Filled
  tasks : ∀ item ∈ project.tasks, item.kind = .task ∧ item.Filled
  metadata : ∃ found, Forms.metadata.Filled found ∧
    project.metadata = Forms.metadata.recordOf found

/-- What holds of every written project: its items are written as the contract wants it, and its
keys are those of its forms. -/
structure Tidy (project : Project) : Prop where
  features : ∀ item ∈ project.features, item.kind = .feature ∧ item.WellWritten
  bugs : ∀ item ∈ project.bugs, item.kind = .bug ∧ item.WellWritten
  tasks : ∀ item ∈ project.tasks, item.kind = .task ∧ item.WellWritten
  metadata : Forms.metadata.NamesAll project.metadata
  keys : ∃ members : Members, project.toValue = .object members ∧
    ∀ key ∈ members.keys, key ∈ fieldNames ∧ CamelCase key
  noNull : project.toValue.NoNull

/-- What the contract wants of a written project. -/
structure WellWritten (project : Project) : Prop extends Tidy project where
  admitted : Schema.validate true (Contract.schemaOf .project) project.toValue = .ok []
  reread : ∀ strict, Contract.readProject (Contract.engine strict) project.toValue = .ok project

variable {members : Members} {items : List Item} {name : String}

theorem filled_of_readList (accepted : readList kind name members = (items, [])) :
    ∀ item ∈ items, item.kind = kind ∧ item.Filled := by
  intro item member
  obtain ⟨_, values, -, -, each⟩ := readList_eq_iff.mp accepted
  obtain ⟨value, -, read⟩ := source_of_map_ok each item member
  exact ⟨(Item.readAs_eq_ok_iff.mp read).left, Item.filled_of_readAs read⟩

theorem filled_of_read (accepted : read value = .ok project) : project.Filled := by
  obtain ⟨members, -, features, bugs, tasks, metadata, -⟩ := read_eq_ok_iff.mp accepted
  obtain ⟨inner, -, read⟩ := readMetadata_eq_iff.mp metadata
  exact ⟨filled_of_readList features, filled_of_readList bugs, filled_of_readList tasks,
    Form.filled_of_readMembers Forms.metadata_proper read⟩

theorem readList_toValue (found : members.lookup name = some (.array (items.map Item.toValue)))
    (filled : ∀ item ∈ items, item.kind = kind ∧ item.Filled) :
    readList kind name members = (items, []) := by
  refine readList_eq_iff.mpr ⟨_, _, found, rfl, map_ok_of_inverse fun item member => ?_⟩
  obtain ⟨rfl, complete⟩ := filled item member
  exact complete.readAs_toValue

namespace Filled

theorem read_toValue (filled : project.Filled) : read project.toValue = .ok project := by
  obtain ⟨found, complete, same⟩ := filled.metadata
  refine read_eq_ok_iff.mpr ⟨_, rfl, readList_toValue rfl filled.features,
    readList_toValue rfl filled.bugs, readList_toValue rfl filled.tasks, ?_, rfl⟩
  refine readMetadata_eq_iff.mpr ⟨project.metadata.toMembers, rfl, ?_⟩
  rw [same]
  exact Form.readMembers_toMembers Forms.metadata_proper complete

end Filled

end Project

namespace Lifecycle

variable {engine : Contract.Engine} {now : Moment} {identifier : String} {data : Value}

theorem create_tagged (given : Members) (now identifier : String) :
    Item.Tagged (creation kind given now identifier) kind := by
  rw [Item.Tagged, creation]
  simp [Members.valueAt_put, Value.asText?]

/-- An item that has been made is of the kind that was asked for, and has been read from its
document. -/
theorem read_of_create (made : create engine now identifier value data = .ok item) :
    knownKind value.plainTerm = .ok item.kind ∧ ∃ given,
      Item.read (.object (creation item.kind given now.text identifier)) = .ok item := by
  obtain ⟨kind, known, made⟩ := bind_eq_ok_iff.mp made
  obtain ⟨-, made⟩ := check_bind_eq_ok_iff.mp made
  obtain ⟨-, made⟩ := check_bind_eq_ok_iff.mp made
  obtain ⟨given, -, made⟩ := bind_eq_ok_iff.mp made
  obtain ⟨-, read⟩ := Contract.readItem_eq_ok_iff.mp made
  obtain ⟨members, same, tagged, -⟩ := Item.read_eq_ok_iff.mp read
  cases same
  obtain rfl := tagged.unique (create_tagged given now.text identifier)
  exact ⟨known, given, read⟩

end Lifecycle

def newTask : Value :=
  .object
    [("title", .text "Write docs"), ("description", .text ""), ("status", .text "todo"),
     ("priority", .text "low"), ("assignee", .null), ("subtasks", .array [])]

def noon : Moment :=
  ⟨2024, 5, 1, ⟨12, 0, 0, 0, by decide⟩, some Offset.utc, by decide⟩

end WorkItems
