import WorkItems.Proofs.Project.Parts

namespace WorkItems

/-! What strictness changes for documents that are read.

A lenient schema passes over a member that it does not declare, but a form reads no such member
unless it is the second name of a field.  The name of a required field has to be there, and its
second name is then claimed by nobody; what is left are the second names of the other fields.
-/

open Schema

variable {form : Form} {blueprint : Blueprint} {members : Members} {record : Record}
  {value : Value} {kind : ItemType} {item : Item} {key : String} {field : Field}

namespace Form

/-- The second names under which a lenient document may have fields that its schema does not
declare. -/
def aliases (form : Form) : List String :=
  (form.filter fun field => !field.presence.isRequired && field.secondName != field.name).map
    Field.secondName

theorem mem_aliases : key ∈ form.aliases ↔ ∃ field ∈ form,
    field.presence.isRequired = false ∧ field.secondName ≠ field.name ∧
      field.secondName = key := by
  simp [aliases, and_assoc]

theorem name_of_claims (claims : field.claims members key = true) :
    key = field.name ∨ key = field.secondName ∧ members.lookup field.name = none := by
  rw [Field.claims, Field.find?] at claims
  cases found : members.lookup field.name with
  | some value =>
      rw [found] at claims
      exact .inl (beq_iff_eq.mp claims).symm
  | none =>
      cases second : members.lookup field.secondName with
      | some value =>
          simp only [found, second, Option.map_some] at claims
          exact .inr ⟨(beq_iff_eq.mp claims).symm, rfl⟩
      | none =>
          simp only [found, second, Option.map_none] at claims
          cases claims

/-- Once the names of all required fields are there, a read document has no keys but names of
fields and second names of the other fields. -/
theorem keys_of_readMembers (accepted : form.readMembers members = .ok record)
    (present : ∀ field ∈ form, field.presence.isRequired = true →
      members.hasKey field.name = true) :
    ∀ key ∈ Members.keys members, key ∈ form.map Field.name ∨ key ∈ form.aliases := by
  intro key listed
  obtain ⟨member, entry, rfl⟩ := List.mem_map.mp listed
  obtain ⟨-, -, declared⟩ := readMembers_eq_ok_iff.mp accepted
  obtain ⟨field, inForm, claims⟩ := undeclared_eq_nil_iff.mp declared member entry
  rcases name_of_claims claims with isName | ⟨isSecond, absent⟩
  · exact .inl (isName ▸ List.mem_map_of_mem inForm)
  · refine .inr (mem_aliases.mpr ⟨field, inForm, ?_, ?_, isSecond.symm⟩)
    · refine Bool.eq_false_iff.mpr fun required => ?_
      have given := present field inForm required
      rw [Members.hasKey, absent] at given
      cases given
    · intro same
      -- A member whose key is the name would have been found under the name.
      obtain ⟨value, found⟩ := Option.isSome_iff_exists.mp
        (Members.hasKey_iff.mpr ⟨member.2, entry⟩)
      rw [isSecond, same, absent] at found
      cases found

theorem not_mem_aliases_of_name (proper : form.Proper) (isName : key ∈ form.map Field.name) :
    key ∉ form.aliases := by
  intro isAlias
  obtain ⟨field, inForm, -, different, rfl⟩ := mem_aliases.mp isAlias
  rcases proper.secondNames field inForm with same | foreign
  · exact different same
  · exact foreign isName

end Form

/-- A field is no object, so its schema has no use for strictness. -/
theorem FieldType.admits_iff (type : FieldType) (strict other : Bool) :
    type.blueprint.Admits (.engine strict) value ↔ type.blueprint.Admits (.engine other) value := by
  cases type <;> exact Iff.rfl

theorem Field.Fits.admits_iff {inner : Blueprint} (fits : field.Fits inner)
    (strict other : Bool) :
    inner.Admits (.engine strict) value ↔ inner.Admits (.engine other) value := by
  cases fits with
  | plain => exact field.type.admits_iff strict other
  | nullable optional => exact or_congr (field.type.admits_iff strict other) Iff.rfl
  | constant only => exact Iff.rfl

namespace Form.Fits

theorem present_of_admits {strict : Bool} (fits : form.Fits blueprint)
    (admits : blueprint.Admits (.engine strict) (.object members)) :
    ∀ field ∈ form, field.presence.isRequired = true → members.hasKey field.name = true := by
  intro field inForm required
  obtain ⟨present, -⟩ := (Blueprint.admits_members_iff fits.isObject).mp admits
  exact present field.name (fits.present field inForm required)

theorem admitsMember_iff_of_name (fits : form.Fits blueprint)
    (isName : key ∈ form.map Field.name) (strict other : Bool) :
    blueprint.AdmitsMember (.engine strict) key value ↔
      blueprint.AdmitsMember (.engine other) key value := by
  obtain ⟨field, inForm, rfl⟩ := List.mem_map.mp isName
  obtain ⟨inner, property, fit⟩ := fits.property field inForm
  rw [Blueprint.admitsMember_iff fits.isObject, Blueprint.admitsMember_iff fits.isObject, property]
  exact fit.admits_iff strict other

theorem name_of_admitsMember (fits : form.Fits blueprint)
    (admits : blueprint.AdmitsMember (.engine true) key value) : key ∈ form.map Field.name := by
  rw [Blueprint.admitsMember_iff fits.isObject, fits.isClosed] at admits
  cases property : blueprint.propertyAt key with
  | some inner => exact fits.declared key (Blueprint.mem_declaredNames property)
  | none =>
      rw [property] at admits
      exact absurd rfl admits

/-- What a strict schema asks for besides is that every key is the name of a field. -/
theorem admits_strict_iff (fits : form.Fits blueprint) :
    blueprint.Admits (.engine true) (.object members) ↔
      blueprint.Admits (.engine false) (.object members) ∧
        ∀ key ∈ Members.keys members, key ∈ form.map Field.name := by
  rw [Blueprint.admits_members_iff fits.isObject, Blueprint.admits_members_iff fits.isObject]
  constructor
  · intro admits
    rcases admits with ⟨present, each⟩
    have named : ∀ member ∈ members, member.1 ∈ form.map Field.name := fun member entry =>
      fits.name_of_admitsMember (each member entry)
    refine ⟨⟨present, fun member entry => ?_⟩, List.forall_mem_map.mpr named⟩
    exact (fits.admitsMember_iff_of_name (named member entry) true false).mp (each member entry)
  · intro admits
    rcases admits with ⟨⟨present, each⟩, keys⟩
    refine ⟨present, fun member entry => ?_⟩
    have isName := keys member.1 (List.mem_map_of_mem entry)
    exact (fits.admitsMember_iff_of_name isName true false).mpr (each member entry)

/-- For a document that is read, what a strict schema asks for besides is that no field goes by its
second name. -/
theorem admits_strict_iff_of_read (fits : form.Fits blueprint) (proper : form.Proper)
    (accepted : form.readMembers members = .ok record) :
    blueprint.Admits (.engine true) (.object members) ↔
      blueprint.Admits (.engine false) (.object members) ∧
        ∀ key ∈ Members.keys members, key ∉ form.aliases := by
  rw [fits.admits_strict_iff]
  refine and_congr_right fun admits => ?_
  have keys := keys_of_readMembers accepted (fits.present_of_admits admits)
  constructor
  · intro named key listed
    exact not_mem_aliases_of_name proper (named key listed)
  · intro noAlias key listed
    exact (keys key listed).resolve_right (noAlias key listed)

end Form.Fits

namespace Item

/-- The names under which a lenient document may have fields that the schema of the kind does not
declare. -/
def aliases : ItemType → List String
  | .feature => ["story_points"]
  | .bug => []
  | .task => ["due_date", "estimated_hours", "actual_hours"]

theorem aliases_eq (kind : ItemType) : (Forms.ofItemType kind).aliases = aliases kind := by
  cases kind <;> decide

/-- Whether a document has no field under another name than the one that is declared. -/
def NoAlias (kind : ItemType) (document : Value) : Prop :=
  ∀ members, document = .object members → ∀ key ∈ Members.keys members, key ∉ aliases kind

/-- Whether all keys of a document are declared for its kind or are such other names. -/
def KeysKnown (kind : ItemType) (document : Value) : Prop :=
  ∀ members, document = .object members → ∀ key ∈ Members.keys members,
    key ∈ (Forms.ofItemType kind).map Field.name ∨ key ∈ aliases kind

section

variable (reads : readAs kind value = .ok item)

include reads

theorem admits_strict_iff :
    (Blueprint.registered (.ofItemType kind)).Admits (.engine true) value ↔
      (Blueprint.registered (.ofItemType kind)).Admits (.engine false) value ∧
        NoAlias kind value := by
  obtain ⟨rfl, members, rfl, accepted⟩ := readAs_eq_ok_iff.mp reads
  have noAlias : NoAlias item.kind (.object members) ↔
      ∀ key ∈ Members.keys members, key ∉ (Forms.ofItemType item.kind).aliases := by
    rw [aliases_eq]
    simp [NoAlias]
  rw [noAlias]
  exact (Forms.ofItemType_fits item.kind).admits_strict_iff_of_read
    (Forms.ofItemType_proper item.kind) accepted

theorem keysKnown_of_admits {strict : Bool}
    (admits : (Blueprint.registered (.ofItemType kind)).Admits (.engine strict) value) :
    KeysKnown kind value := by
  obtain ⟨rfl, members, rfl, accepted⟩ := readAs_eq_ok_iff.mp reads
  intro others same
  cases same
  rw [← aliases_eq]
  exact Form.keys_of_readMembers accepted
    ((Forms.ofItemType_fits item.kind).present_of_admits admits)

end

end Item

namespace Contract

/-- An item is read strictly when it is read leniently, as the same, and no field of it goes by its
second name. -/
theorem readItem_strict_iff : readItem (engine true) value = .ok item ↔
    readItem (engine false) value = .ok item ∧ Item.NoAlias item.kind value := by
  rw [readItem_eq_ok_iff, readItem_eq_ok_iff, and_right_comm]
  refine and_congr_left fun reads => ?_
  obtain ⟨members, rfl, tagged, readsAs⟩ := Item.read_eq_ok_iff.mp reads
  rw [checkItem_of_tagged tagged, checkItem_of_tagged tagged, check_iff_admits, check_iff_admits]
  exact Item.admits_strict_iff readsAs

theorem keysKnown_of_readItem {strict : Bool}
    (accepted : readItem (engine strict) value = .ok item) : Item.KeysKnown item.kind value := by
  obtain ⟨checked, reads⟩ := readItem_eq_ok_iff.mp accepted
  obtain ⟨members, rfl, tagged, readsAs⟩ := Item.read_eq_ok_iff.mp reads
  rw [checkItem_of_tagged tagged, check_iff_admits] at checked
  exact Item.keysKnown_of_admits readsAs checked

end Contract

namespace Project

variable {project : Project} {items : List Value} {list : Value}

/-- Whether the items in the lists of a project have a property that depends on their kind. -/
def EveryItem (holds : ItemType → Value → Prop) (members : Members) : Prop :=
  ∀ kind list items, members.lookup (ItemType.listName kind) = some list →
    list.asItems? = some items → ∀ item ∈ items, holds kind item

/-- Whether all keys of a project and of its parts are known. -/
structure KeysKnown (members : Members) : Prop where
  own : ∀ key ∈ Members.keys members, key ∈ fieldNames
  items : EveryItem Item.KeysKnown members
  metadata : ∀ metadata, members.lookup "metadata" = some (.object metadata) →
    ∀ key ∈ Members.keys metadata, key ∈ Forms.metadata.map Field.name

theorem readAs_of_readList
    (reads : readList kind kind.listName members = (project.items kind, []))
    (found : members.lookup kind.listName = some list) (isArray : list.asItems? = some items) :
    ∀ value ∈ items, ∃ item, Item.readAs kind value = .ok item := by
  intro value member
  obtain ⟨other, values, same, listed, read⟩ := readList_eq_iff.mp reads
  rw [found, Option.some.injEq] at same
  rw [← same, listOf?_of_asItems? isArray, Option.some.injEq] at listed
  rw [← listed] at read
  have among := List.mem_map_of_mem (f := Item.readAs kind) member
  rw [read] at among
  obtain ⟨item, -, readsAs⟩ := List.mem_map.mp among
  exact ⟨item, readsAs.symm⟩

theorem admits_of_lookup {strict : Bool}
    (admits : Blueprint.projectData.Admits (.engine strict) (.object members))
    (found : members.lookup kind.listName = some list) (isArray : list.asItems? = some items) :
    ∀ item ∈ items, (Blueprint.registered (.ofItemType kind)).Admits (.engine strict) item := by
  obtain ⟨-, each⟩ := (Blueprint.admits_members_iff rfl).mp admits
  have admitted := each _ (Members.mem_of_lookup found)
  rw [Blueprint.admitsMember_iff rfl, propertyAt_listName] at admitted
  exact (Blueprint.admits_list_iff isArray).mp admitted

theorem metadata_aliases : Forms.metadata.aliases = [] := by
  decide

theorem metadata_admits_strict {metadata : Members}
    (reads : Forms.metadata.readMembers metadata = .ok record)
    (admits : Blueprint.projectMetadata.Admits (.engine false) (.object metadata)) :
    Blueprint.projectMetadata.Admits (.engine true) (.object metadata) := by
  rw [Forms.metadata_fits.admits_strict_iff_of_read Forms.metadata_proper reads, metadata_aliases]
  exact ⟨admits, fun key _ => List.not_mem_nil⟩

theorem admits_strict_iff (distinct : Members.Distinct members)
    (reads : Project.read (.object members) = .ok project) :
    Blueprint.projectData.Admits (.engine true) (.object members) ↔
      Blueprint.projectData.Admits (.engine false) (.object members) ∧
        EveryItem Item.NoAlias members := by
  obtain ⟨_, same, lists, metadata, declared⟩ := read_iff_lists.mp reads
  cases same
  constructor
  · intro admits
    refine ⟨engine_of_strict (Blueprint.registered_portable .projectData) admits, ?_⟩
    intro kind list items found isArray item member
    obtain ⟨read, readsAs⟩ := readAs_of_readList (lists kind) found isArray item member
    exact ((Item.admits_strict_iff readsAs).mp (admits_of_lookup admits found isArray item
      member)).right
  · intro admits
    rcases admits with ⟨admits, noAlias⟩
    obtain ⟨present, each⟩ := (Blueprint.admits_members_iff rfl).mp admits
    refine (Blueprint.admits_members_iff rfl).mpr ⟨present, fun member entry => ?_⟩
    have found := Members.lookup_of_mem distinct entry
    have admitted := each member entry
    rcases mem_fieldNames_iff.mp (declared _ (List.mem_map_of_mem entry)) with
      ⟨kind, isList⟩ | isMetadata
    · rw [← isList] at found admitted ⊢
      rw [Blueprint.admitsMember_iff rfl, propertyAt_listName] at admitted ⊢
      obtain ⟨items, isArray, -⟩ := admitted
      refine (Blueprint.admits_list_iff isArray).mpr fun item member => ?_
      obtain ⟨read, readsAs⟩ := readAs_of_readList (lists kind) found isArray item member
      exact (Item.admits_strict_iff readsAs).mpr
        ⟨admits_of_lookup admits found isArray item member,
          noAlias kind _ items found isArray item member⟩
    · rw [isMetadata] at found admitted ⊢
      rw [Blueprint.admitsMember_iff rfl] at admitted ⊢
      obtain ⟨inner, isObject, readsInner⟩ := readMetadata_eq_iff.mp metadata
      rw [Option.some.inj (found.symm.trans isObject)] at admitted ⊢
      exact metadata_admits_strict readsInner admitted

/-- A project is read strictly when it is read leniently, as the same, and no field of an item goes
by its second name. -/
theorem readProject_strict_iff (distinct : Members.Distinct members) :
    Contract.readProject (Contract.engine true) (.object members) = .ok project ↔
      Contract.readProject (Contract.engine false) (.object members) = .ok project ∧
        EveryItem Item.NoAlias members := by
  rw [Contract.readProject_eq_ok_iff, Contract.readProject_eq_ok_iff, and_right_comm]
  refine and_congr_left fun reads => ?_
  rw [Contract.check_iff_admits, Contract.check_iff_admits]
  exact admits_strict_iff distinct reads

theorem keysKnown_of_readProject {strict : Bool}
    (accepted : Contract.readProject (Contract.engine strict) (.object members) = .ok project) :
    KeysKnown members := by
  obtain ⟨checked, reads⟩ := Contract.readProject_eq_ok_iff.mp accepted
  obtain ⟨_, same, lists, metadata, declared⟩ := read_iff_lists.mp reads
  cases same
  have admits := Contract.check_iff_admits.mp checked
  constructor
  · exact declared
  · intro kind list items found isArray item member
    obtain ⟨read, readsAs⟩ := readAs_of_readList (lists kind) found isArray item member
    exact Item.keysKnown_of_admits readsAs (admits_of_lookup admits found isArray item member)
  · intro inner found key listed
    obtain ⟨other, isObject, readsInner⟩ := readMetadata_eq_iff.mp metadata
    obtain rfl := Value.object.inj (Option.some.inj (found.symm.trans isObject))
    obtain ⟨-, each⟩ := (Blueprint.admits_members_iff rfl).mp admits
    have admitted := each _ (Members.mem_of_lookup found)
    rw [Blueprint.admitsMember_iff rfl] at admitted
    have known := Form.keys_of_readMembers readsInner
      (Forms.metadata_fits.present_of_admits admitted) key listed
    rw [metadata_aliases] at known
    exact known.resolve_right List.not_mem_nil

end Project

/-- What is read strictly is what is read leniently, as the same, and has no field under a second
name.  All keys of a document that is read are declared ones or such second names. -/
theorem reading_strict_iff :
    (∀ document item,
      (Contract.readItem (Contract.engine true) document = .ok item ↔
        Contract.readItem (Contract.engine false) document = .ok item ∧
          Item.NoAlias item.kind document) ∧
      (Contract.readItem (Contract.engine false) document = .ok item →
        Item.KeysKnown item.kind document)) ∧
    ∀ members project, Members.Distinct members →
      (Contract.readProject (Contract.engine true) (.object members) = .ok project ↔
        Contract.readProject (Contract.engine false) (.object members) = .ok project ∧
          Project.EveryItem Item.NoAlias members) ∧
      (Contract.readProject (Contract.engine false) (.object members) = .ok project →
        Project.KeysKnown members) :=
  ⟨fun _ _ => ⟨Contract.readItem_strict_iff, Contract.keysKnown_of_readItem⟩,
    fun _ _ distinct =>
      ⟨Project.readProject_strict_iff distinct, Project.keysKnown_of_readProject⟩⟩

theorem longProject_strict :
    Members.Distinct longProject ∧ Project.KeysKnown longProject ∧ ∃ project,
      Contract.readProject (Contract.engine true) (.object longProject) = .ok project ∧
        Contract.readProject (Contract.engine false) (.object longProject) = .ok project := by
  have distinct : Members.Distinct longProject := by decide
  obtain ⟨-, projects⟩ := reading_strict_iff
  obtain ⟨project, strictly⟩ := exists_ok_of_toOption
    (show (Contract.readProject (Contract.engine true)
      (.object longProject)).toOption.isSome = true by decide +kernel)
  obtain ⟨reads, known⟩ := projects longProject project distinct
  obtain ⟨leniently, -⟩ := reads.mp strictly
  exact ⟨distinct, known leniently, project, strictly, leniently⟩

/-- A task with its due date under the second name. -/
def aliasedTask : Members :=
  [("id", .text "t-1"), ("type", .text "task"), ("title", .text "Write docs"),
   ("description", .text ""), ("status", .text "todo"), ("priority", .text "low"),
   ("createdAt", .text "2024-05-01T12:00:00Z"), ("updatedAt", .text "2024-05-01T12:00:00Z"),
   ("subtasks", .array []), ("due_date", .text "2024-05-05T00:00:00Z")]

theorem aliasedTask_only_lenient :
    ("due_date" ∈ Members.keys aliasedTask ∧
      "due_date" ∉ (Forms.ofItemType .task).map Field.name) ∧
    (∃ item, Contract.readItem (Contract.engine false) (.object aliasedTask) = .ok item ∧
      (item.record.lookup "dueDate").isSome = true) ∧
    ¬ ∃ item, Contract.readItem (Contract.engine true) (.object aliasedTask) = .ok item := by
  refine ⟨by decide, ?_, ?_⟩
  · obtain ⟨item, read⟩ := exists_ok_of_toOption
      (show (Contract.readItem (Contract.engine false)
        (.object aliasedTask)).toOption.isSome = true by decide +kernel)
    have due : ((Contract.readItem (Contract.engine false) (.object aliasedTask)).toOption.bind
        fun item => item.record.lookup "dueDate").isSome = true := by decide +kernel
    rw [read] at due
    exact ⟨item, read, due⟩
  · have refused : (Contract.readItem (Contract.engine true)
        (.object aliasedTask)).toOption.isSome = false := by decide +kernel
    intro accepted
    obtain ⟨item, read⟩ := accepted
    rw [read] at refused
    cases refused

end WorkItems
