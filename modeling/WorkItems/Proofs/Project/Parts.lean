import WorkItems.Proofs.Item.Readable
import WorkItems.Proofs.Project.Report

namespace WorkItems

/-! A project document is the sum of its parts.

It is admitted when its lists and its metadata are there and each item is admitted on its own, and
it is read when each item is read on its own as one of the kind of its list.
-/

open Schema

variable {strict : Bool} {kind : ItemType} {value : Value} {values : List Value} {item : Item}
  {read : List Item} {members : Members} {project : Project} {record : Record}

/-- The tag of an admitted item is the one that its schema asks for. -/
theorem Item.tagged_of_admits
    (admits : (Blueprint.registered (.ofItemType kind)).Admits (.engine strict) value) :
    ∃ members, value = .object members ∧ Tagged members kind := by
  have fits := Forms.ofItemType_fits kind
  have required : "type" ∈ (Blueprint.registered (.ofItemType kind)).requiredNames := by
    cases kind <;> decide
  have property : (Blueprint.registered (.ofItemType kind)).propertyAt "type" =
      some (.constant (.text kind.text)) := by
    cases kind <;> rfl
  rw [Blueprint.admits_object_iff fits.isObject, fits.refusesNull] at admits
  rcases admits with ⟨-, impossible⟩ | ⟨members, rfl, present, each⟩
  · cases impossible
  · obtain ⟨tag, found⟩ := Option.isSome_iff_exists.mp (present "type" required)
    have admitted := each _ (Members.mem_of_lookup found)
    rw [Blueprint.admitsMember_iff fits.isObject, property] at admitted
    exact ⟨members, rfl, tagged_iff_lookup.mpr ⟨tag, found, Value.same_text.mp admitted⟩⟩

namespace Contract

/-- An item that has been checked as one of a kind is read on its own as it is read in a list. -/
theorem readItem_of_checked (checked : check (engine strict) (.item kind) value = .ok ()) :
    (readItem (engine strict) value = .ok item ∧ item.kind = kind) ↔
      Item.readAs kind value = .ok item := by
  obtain ⟨members, rfl, tagged⟩ := Item.tagged_of_admits (check_iff_admits.mp checked)
  rw [readItem_eq_ok_iff, checkItem_of_tagged tagged]
  constructor
  · intro accepted
    rcases accepted with ⟨⟨-, reads⟩, rfl⟩
    obtain ⟨-, -, -, readsAs⟩ := Item.read_eq_ok_iff.mp reads
    exact readsAs
  · intro readsAs
    obtain ⟨rfl, -⟩ := Item.readAs_eq_ok_iff.mp readsAs
    exact ⟨⟨checked, Item.read_eq_ok_iff.mpr ⟨members, rfl, tagged, readsAs⟩⟩, rfl⟩

theorem map_readItem_of_checked
    (checked : ∀ value ∈ values, check (engine strict) (.item kind) value = .ok ()) :
    (values.map (readItem (engine strict)) = read.map .ok ∧ ∀ item ∈ read, item.kind = kind) ↔
      values.map (Item.readAs kind) = read.map .ok := by
  induction values generalizing read with
  | nil => cases read <;> simp
  | cons value values ih =>
      obtain ⟨first, rest⟩ := List.forall_mem_cons.mp checked
      cases read with
      | nil => simp
      | cons item read =>
          simp only [List.map_cons, List.cons.injEq, List.forall_mem_cons,
            ← readItem_of_checked first, ← ih rest]
          exact and_and_and_comm

end Contract

theorem Form.read_eq_ok_iff {form : Form} {name : String} : form.read name value = .ok record ↔
    ∃ members, value = .object members ∧ form.readMembers members = .ok record := by
  cases value with
  | object members => simp [Form.read]
  | null | bool | number | text | term | array | tuple | foreign => simp [Form.read]

namespace Project

def items (project : Project) : ItemType → List Item
  | .feature => project.features
  | .bug => project.bugs
  | .task => project.tasks

theorem read_iff_lists : Project.read value = .ok project ↔
    ∃ members : Members, value = .object members ∧
      (∀ kind, readList kind kind.listName members = (project.items kind, [])) ∧
      readMetadata members = (project.metadata, []) ∧
      ∀ key ∈ Members.keys members, key ∈ fieldNames := by
  rw [read_eq_ok_iff]
  constructor
  · intro accepted
    rcases accepted with ⟨members, rfl, features, bugs, tasks, metadata, declared⟩
    refine ⟨members, rfl, fun kind => ?_, metadata, undeclared_eq_nil_iff.mp declared⟩
    cases kind with
    | feature => exact features
    | bug => exact bugs
    | task => exact tasks
  · intro accepted
    rcases accepted with ⟨members, rfl, lists, metadata, declared⟩
    exact ⟨members, rfl, lists .feature, lists .bug, lists .task, metadata,
      undeclared_eq_nil_iff.mpr declared⟩

/-- What is asked of the parts of an admitted project: that each is admitted on its own. -/
structure PartsAdmitted (strict : Bool) (members : Members) : Prop where
  lists : ∀ kind : ItemType, ∃ items, members.lookup kind.listName = some (.array items) ∧
    ∀ item ∈ items, Contract.check (Contract.engine strict) (.item kind) item = .ok ()
  metadata : ∃ metadata, members.lookup "metadata" = some metadata ∧
    Schema.validate strict Schema.projectMetadata metadata = .ok []
  keys : strict = true → ∀ key ∈ Members.keys members, key ∈ fieldNames

theorem validate_metadata_iff : Schema.validate strict Schema.projectMetadata value = .ok [] ↔
    Blueprint.projectMetadata.Admits (.engine strict) value :=
  Schema.validate_eq_nil_iff Blueprint.projectMetadata_portable.wellFormed

theorem parts_of_admits (plain : (Value.object members).Plain)
    (present : ∀ name ∈ Blueprint.projectData.requiredNames, members.hasKey name = true)
    (each : ∀ member ∈ members,
      Blueprint.projectData.AdmitsMember (.engine strict) member.1 member.2) :
    PartsAdmitted strict members where
  lists kind := by
    have required : kind.listName ∈ Blueprint.projectData.requiredNames := by
      cases kind <;> decide
    obtain ⟨list, found⟩ := Option.isSome_iff_exists.mp (present _ required)
    have among := Members.mem_of_lookup found
    have admits := each _ among
    rw [Blueprint.admitsMember_iff rfl, propertyAt_listName] at admits
    obtain ⟨items, isArray, -, admitted, -⟩ := admits
    obtain rfl := (plain.ofObject _ among).asItems_iff.mp isArray
    exact ⟨items, found, fun item member => Contract.check_iff_admits.mpr (admitted item member)⟩
  metadata := by
    obtain ⟨metadata, found⟩ := Option.isSome_iff_exists.mp (present "metadata" (by decide))
    have admits := each _ (Members.mem_of_lookup found)
    rw [Blueprint.admitsMember_iff rfl] at admits
    exact ⟨metadata, found, validate_metadata_iff.mpr admits⟩
  keys isStrict key listed := by
    obtain ⟨member, entry, rfl⟩ := List.mem_map.mp listed
    have admits := each member entry
    rw [Blueprint.admitsMember_iff rfl] at admits
    refine Decidable.byContradiction fun other => ?_
    rw [propertyAt_other other, isStrict] at admits
    exact admits rfl

theorem admits_of_parts (distinct : Members.Distinct members)
    (parts : PartsAdmitted strict members) :
    Blueprint.projectData.Admits (.engine strict) (.object members) := by
  rw [Blueprint.admits_members_iff rfl]
  refine ⟨fun name required => ?_, fun member entry => ?_⟩
  · rcases mem_fieldNames_iff.mp required with ⟨kind, rfl⟩ | rfl
    · obtain ⟨items, found, -⟩ := parts.lists kind
      exact Option.isSome_iff_exists.mpr ⟨_, found⟩
    · obtain ⟨metadata, found, -⟩ := parts.metadata
      exact Option.isSome_iff_exists.mpr ⟨metadata, found⟩
  · have given := Members.lookup_of_mem distinct entry
    rw [Blueprint.admitsMember_iff rfl]
    by_cases listed : member.1 ∈ fieldNames
    · rcases mem_fieldNames_iff.mp listed with ⟨kind, same⟩ | same
      · obtain ⟨items, found, checked⟩ := parts.lists kind
        rw [same, given, Option.some.injEq] at found
        rw [← same, propertyAt_listName, found]
        refine (Blueprint.admits_list_iff rfl).mpr fun item member => ?_
        exact Contract.check_iff_admits.mp (checked item member)
      · obtain ⟨metadata, found, valid⟩ := parts.metadata
        rw [← same, given, Option.some.injEq] at found
        rw [same, found]
        exact validate_metadata_iff.mp valid
    · rw [propertyAt_other listed]
      intro forbidden
      rw [Bool.and_eq_true] at forbidden
      exact listed (parts.keys forbidden.left _ (List.mem_map_of_mem entry))

theorem check_iff_parts (plain : value.Plain) :
    Contract.check (Contract.engine strict) .project value = .ok () ↔
      ∃ members, value = .object members ∧ PartsAdmitted strict members := by
  rw [Contract.check_iff_admits]
  constructor
  · intro admits
    rcases (Blueprint.admits_object_iff rfl).mp admits with
      ⟨-, impossible⟩ | ⟨members, rfl, present, each⟩
    · cases impossible
    · exact ⟨members, rfl, parts_of_admits plain present each⟩
  · intro admitted
    rcases admitted with ⟨members, rfl, parts⟩
    exact admits_of_parts plain.whole parts

/-- What a project has from the parts of a document: the items that are read on their own, each as
one of the kind of its list, and the metadata. -/
structure PartsRead (strict : Bool) (project : Project) (members : Members) : Prop where
  lists : ∀ kind : ItemType, ∃ items, members.lookup kind.listName = some (.array items) ∧
    items.map (Contract.readItem (Contract.engine strict)) = (project.items kind).map .ok ∧
      ∀ item ∈ project.items kind, item.kind = kind
  metadata : ∃ metadata, members.lookup "metadata" = some metadata ∧
    Forms.metadata.read "ProjectMetadata" metadata = .ok project.metadata
  keys : ∀ key ∈ Members.keys members, key ∈ fieldNames

theorem readMetadata_iff_form : readMetadata members = (record, []) ↔
    ∃ metadata, members.lookup "metadata" = some metadata ∧
      Forms.metadata.read "ProjectMetadata" metadata = .ok record := by
  rw [readMetadata_eq_iff]
  constructor
  · intro accepted
    rcases accepted with ⟨inner, found, reads⟩
    exact ⟨_, found, Form.read_eq_ok_iff.mpr ⟨inner, rfl, reads⟩⟩
  · intro accepted
    rcases accepted with ⟨metadata, found, reads⟩
    obtain ⟨inner, rfl, readsInner⟩ := Form.read_eq_ok_iff.mp reads
    exact ⟨inner, found, readsInner⟩

/-- The lists of an admitted project are read item by item. -/
theorem readList_iff_items (parts : PartsAdmitted strict members) :
    readList kind kind.listName members = (read, []) ↔
      ∃ items, members.lookup kind.listName = some (.array items) ∧
        items.map (Contract.readItem (Contract.engine strict)) = read.map .ok ∧
          ∀ item ∈ read, item.kind = kind := by
  obtain ⟨items, found, checked⟩ := parts.lists kind
  rw [readList_eq_iff, found]
  constructor
  · intro accepted
    rcases accepted with ⟨list, values, same, listed, reads⟩
    cases same
    cases listed
    exact ⟨items, rfl, (Contract.map_readItem_of_checked checked).mpr reads⟩
  · intro accepted
    rcases accepted with ⟨values, same, reads⟩
    cases same
    exact ⟨_, items, rfl, rfl, (Contract.map_readItem_of_checked checked).mp reads⟩

theorem readProject_iff_parts (plain : value.Plain) :
    Contract.readProject (Contract.engine strict) value = .ok project ↔
      Contract.check (Contract.engine strict) .project value = .ok () ∧
        ∃ members, value = .object members ∧ PartsRead strict project members := by
  rw [Contract.readProject_eq_ok_iff]
  refine and_congr_right fun checked => ?_
  obtain ⟨members, rfl, admitted⟩ := (check_iff_parts plain).mp checked
  rw [read_iff_lists]
  constructor
  · intro accepted
    rcases accepted with ⟨_, same, lists, metadata, declared⟩
    cases same
    exact ⟨members, rfl, fun kind => (readList_iff_items admitted).mp (lists kind),
      readMetadata_iff_form.mp metadata, declared⟩
  · intro accepted
    rcases accepted with ⟨_, same, parts⟩
    cases same
    exact ⟨members, rfl, fun kind => (readList_iff_items admitted).mpr (parts.lists kind),
      readMetadata_iff_form.mpr parts.metadata, parts.keys⟩

/-- A project document is admitted when each of its parts is admitted on its own, reports of every
part what is reported of it on its own behind its place, and is read when the items are read on
their own as of the kind of their list, which gives the same items in the same order. -/
theorem sum_of_parts (strict : Bool) (document : Value) (plain : document.Plain) :
    (Contract.check (Contract.engine strict) .project document = .ok () ↔
      ∃ members, document = .object members ∧ PartsAdmitted strict members) ∧
    (∀ subject data, Contract.check (Contract.engine strict) subject data =
      if (Contract.errors strict subject data).isEmpty then .ok ()
      else .error (.invalid subject (Contract.errors strict subject data))) ∧
    Contract.errors strict .project document = Project.errors strict document ∧
    ∀ project, Contract.readProject (Contract.engine strict) document = .ok project ↔
      Contract.check (Contract.engine strict) .project document = .ok () ∧
        ∃ members, document = .object members ∧ PartsRead strict project members :=
  ⟨check_iff_parts plain, fun _ _ => Contract.check_eq, errors_eq strict document,
    fun _ => readProject_iff_parts plain⟩

theorem longProject_task :
    (Value.object longProject).Plain ∧ ∃ project item,
      Contract.readProject (Contract.engine true) (.object longProject) = .ok project ∧
        Contract.readItem (Contract.engine true) (.object longTask) = .ok item ∧
          project.tasks = [item] := by
  obtain ⟨-, -, -, reads⟩ := sum_of_parts true (.object longProject) longProject_plain
  obtain ⟨project, read⟩ := exists_ok_of_toOption
    (show (Contract.readProject (Contract.engine true)
      (.object longProject)).toOption.isSome = true by decide +kernel)
  obtain ⟨-, members, same, parts⟩ := (reads project).mp read
  cases same
  obtain ⟨items, found, each, -⟩ := parts.lists .task
  obtain rfl : [.object longTask] = items := Value.array.inj (Option.some.inj found)
  obtain ⟨item, tasks, own⟩ := List.map_eq_singleton_iff.mp each.symm
  exact ⟨longProject_plain, project, item, read, own.symm, tasks⟩

end Project

end WorkItems
