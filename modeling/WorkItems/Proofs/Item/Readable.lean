import WorkItems.Proofs.Contract
import WorkItems.Proofs.Item.Admitted

namespace WorkItems

/-! Items and projects that the contract admits are read.

`Item.Readable` and `Project.Readable` say what the schemas leave open: whether texts are moments,
whether hours are in the range of doubles, and whether texts have a form in bytes.  Nothing else
keeps an admitted document from being read.
-/

open Schema

variable {strict : Bool} {value : Value}

/-- Whether the texts under some keys are moments. -/
def MomentsAt (keys : List String) (members : Members) : Prop :=
  ∀ key ∈ keys, ∀ text, members.lookup key = some (.text text) →
    ∃ moment, Moment.ofText text = .ok moment

/-- Whether the whole numbers under some keys are in the range of doubles. -/
def InRangeAt (keys : List String) (members : Members) : Prop :=
  ∀ key ∈ keys, ∀ number, members.lookup key = some (.int number) →
    number.natAbs < Double.rangeLimit

/-- Whether the texts under all keys but some have a form in bytes. -/
def EncodableBeside (keys : List String) (members : Members) : Prop :=
  ∀ key, key ∉ keys → ∀ value, members.lookup key = some value → value.Encodable

theorem MomentsAt.put {keys : List String} {members : Members} {key : String} {value : Value}
    (areMoments : MomentsAt keys members) (other : key ∉ keys) :
    MomentsAt keys (members.put key value) := by
  intro name listed text found
  rw [Members.lookup_put, if_neg (ne_of_mem_of_not_mem listed other)] at found
  exact areMoments name listed text found

theorem InRangeAt.put {keys : List String} {members : Members} {key : String} {value : Value}
    (inRange : InRangeAt keys members) (other : key ∉ keys) :
    InRangeAt keys (members.put key value) := by
  intro name listed number found
  rw [Members.lookup_put, if_neg (ne_of_mem_of_not_mem listed other)] at found
  exact inRange name listed number found

theorem EncodableBeside.of_object {keys : List String} {members : Members}
    (encodable : (Value.object members).Encodable) : EncodableBeside keys members :=
  fun _ _ _ found => encodable.ofObject _ (Members.mem_of_lookup found)

theorem Form.readable_of_names {form : Form} {members : Members}
    {moments hours free : List String}
    (areMoments : MomentsAt moments members) (inRange : InRangeAt hours members)
    (encodable : EncodableBeside free members)
    (momentNames : ∀ field ∈ form, field.type = .moment → field.name ∈ moments)
    (hoursNames : ∀ field ∈ form, field.type = .hours → field.name ∈ hours)
    (freeNames : ∀ field ∈ form, field.type.needsBytes = true → field.name ∉ free) :
    form.Readable members := by
  intro field inForm value found
  refine ⟨fun needsBytes => ?_, fun isMoment text isText => ?_, fun isHours number isInt => ?_⟩
  · exact encodable field.name (freeNames field inForm needsBytes) value found
  · exact areMoments field.name (momentNames field inForm isMoment) text (isText ▸ found)
  · exact inRange field.name (hoursNames field inForm isHours) number (isInt ▸ found)

/-- What schemas leave open about an item.  Only the assignee and the tags may have any text. -/
def Item.Readable (document : Value) : Prop :=
  ∀ members, document = .object members →
    MomentsAt ["createdAt", "updatedAt", "dueDate"] members ∧
      InRangeAt ["estimatedHours", "actualHours"] members ∧
        EncodableBeside ["assignee", "tags"] members

/-- What schemas leave open about a project. -/
def Project.Readable (document : Value) : Prop :=
  ∀ members, document = .object members →
    (∀ name ∈ ["features", "bugs", "tasks"], ∀ items, members.lookup name = some (.array items) →
      ∀ item ∈ items, Item.Readable item) ∧
    ∀ metadata, members.lookup "metadata" = some (.object metadata) →
      MomentsAt ["lastUpdated"] metadata ∧ EncodableBeside [] metadata

theorem Forms.momentNames (kind : ItemType) : ∀ field ∈ Forms.ofItemType kind,
    field.type = .moment → field.name ∈ ["createdAt", "updatedAt", "dueDate"] := by
  cases kind <;> simp [ofItemType, feature, bug, task, shared, plainField]

theorem Forms.hoursNames (kind : ItemType) : ∀ field ∈ Forms.ofItemType kind,
    field.type = .hours → field.name ∈ ["estimatedHours", "actualHours"] := by
  cases kind <;> simp [ofItemType, feature, bug, task, shared, plainField]

theorem Forms.freeNames (kind : ItemType) : ∀ field ∈ Forms.ofItemType kind,
    field.type.needsBytes = true → field.name ∉ ["assignee", "tags"] := by
  cases kind <;> decide

theorem Item.readAs_of_admits {kind : ItemType}
    (admits : (Blueprint.registered (.ofItemType kind)).Admits (.engine true) value)
    (plain : value.Plain) (readable : Item.Readable value) :
    ∃ item, Item.readAs kind value = .ok item := by
  have complete (members : Members) (same : value = .object members) :
      (Forms.ofItemType kind).Readable members := by
    obtain ⟨areMoments, inRange, encodable⟩ := readable members same
    exact Form.readable_of_names areMoments inRange encodable (Forms.momentNames kind)
      (Forms.hoursNames kind) (Forms.freeNames kind)
  obtain ⟨members, record, rfl, read⟩ := (Forms.ofItemType_fits kind).read_of_admits
    (Forms.ofItemType_proper kind) admits plain complete
  exact ⟨⟨kind, record⟩, Item.readAs_eq_ok_iff.mpr ⟨rfl, members, rfl, read⟩⟩

/-- An admitted item is read as what its tag says. -/
theorem Item.readItem_of_admits (plain : value.Plain)
    (accepted : Contract.checkItem (Contract.engine true) value = .ok ())
    (readable : Item.Readable value) (strict : Bool) :
    ∃ members item, value = .object members ∧
      members.lookup "type" = some (.text item.kind.text) ∧
      Contract.readItem (Contract.engine strict) value = .ok item := by
  obtain ⟨members, kind, rfl, tagged⟩ := Contract.tagged_of_checkItem accepted
  rw [Contract.checkItem_of_tagged tagged, Contract.check_eq_ok_iff] at accepted
  have admits := (validate_registered_iff (.ofItemType kind) true).mp accepted
  obtain ⟨item, read⟩ := Item.readAs_of_admits admits plain readable
  obtain ⟨rfl, -⟩ := Item.readAs_eq_ok_iff.mp read
  obtain ⟨tag, found, isText⟩ := Item.tagged_iff_lookup.mp tagged
  obtain rfl := (plain.ofObject _ (Members.mem_of_lookup found)).asText_iff.mp isText
  refine ⟨members, item, rfl, found, Contract.readItem_eq_ok_iff.mpr ⟨?_, ?_⟩⟩
  · rw [Contract.checkItem_of_tagged tagged, Contract.check_eq_ok_iff]
    exact (validate_registered_iff (.ofItemType item.kind) strict).mpr
      (engine_of_strict (Blueprint.registered_portable _) admits)
  · exact Item.read_eq_ok_iff.mpr ⟨members, rfl, tagged, read⟩

namespace Project

variable {members : Members}

theorem readList_of_admits {kind : ItemType} {name : String}
    (property : Blueprint.projectData.propertyAt name =
      some (.array (.registered (.ofItemType kind)) none none false))
    (required : name ∈ Blueprint.projectData.requiredNames)
    (admitted : Blueprint.projectData.AdmitsAll members) (plain : (Value.object members).Plain)
    (readable : ∀ items, members.lookup name = some (.array items) →
      ∀ item ∈ items, Item.Readable item) :
    ∃ items, readList kind name members = (items, []) := by
  obtain ⟨value, found⟩ := admitted.lookup_required required
  have whole := plain.ofObject _ (Members.mem_of_lookup found)
  obtain ⟨values, isArray, -, each, -⟩ := admitted.value_admitted property found
  obtain rfl := whole.asItems_iff.mp isArray
  obtain ⟨items, read⟩ := exists_map_ok fun value member =>
    Item.readAs_of_admits (each value member) (whole.ofArray value member)
      (readable values found value member)
  exact ⟨items, readList_eq_iff.mpr ⟨_, values, found, rfl, read⟩⟩

theorem readMetadata_of_admits (admitted : Blueprint.projectData.AdmitsAll members)
    (plain : (Value.object members).Plain)
    (readable : ∀ metadata, members.lookup "metadata" = some (.object metadata) →
      MomentsAt ["lastUpdated"] metadata ∧ EncodableBeside [] metadata) :
    ∃ record, readMetadata members = (record, []) := by
  obtain ⟨value, found⟩ := admitted.lookup_required
    (show "metadata" ∈ Blueprint.projectData.requiredNames by decide)
  have admits : Blueprint.projectMetadata.Admits (.engine true) value :=
    admitted.value_admitted rfl found
  have complete (metadata : Members) (same : value = .object metadata) :
      Forms.metadata.Readable metadata := by
    have noHours : InRangeAt [] metadata := by simp [InRangeAt]
    obtain ⟨areMoments, encodable⟩ := readable metadata (same ▸ found)
    refine Form.readable_of_names areMoments noHours encodable ?_ ?_ fun _ _ _ => List.not_mem_nil
    · simp [Forms.metadata, Forms.plainField]
    · simp [Forms.metadata, Forms.plainField]
  obtain ⟨metadata, record, rfl, read⟩ := Forms.metadata_fits.read_of_admits Forms.metadata_proper
    admits (plain.ofObject _ (Members.mem_of_lookup found)) complete
  exact ⟨record, readMetadata_eq_iff.mpr ⟨metadata, found, read⟩⟩

theorem readProject_of_admits (plain : value.Plain)
    (accepted : Contract.check (Contract.engine true) .project value = .ok ())
    (readable : Project.Readable value) (strict : Bool) :
    ∃ project, Contract.readProject (Contract.engine strict) value = .ok project := by
  have admits : Blueprint.projectData.Admits (.engine true) value :=
    (validate_registered_iff .projectData true).mp (Contract.check_eq_ok_iff.mp accepted)
  obtain ⟨members, rfl, admitted⟩ := Blueprint.admitsAll_of_closed rfl rfl rfl admits
  obtain ⟨lists, metadata⟩ := readable members rfl
  obtain ⟨features, readFeatures⟩ : ∃ items, readList .feature "features" members = (items, []) :=
    readList_of_admits rfl (by decide) admitted plain (lists "features" (by decide))
  obtain ⟨bugs, readBugs⟩ : ∃ items, readList .bug "bugs" members = (items, []) :=
    readList_of_admits rfl (by decide) admitted plain (lists "bugs" (by decide))
  obtain ⟨tasks, readTasks⟩ : ∃ items, readList .task "tasks" members = (items, []) :=
    readList_of_admits rfl (by decide) admitted plain (lists "tasks" (by decide))
  obtain ⟨record, read⟩ := readMetadata_of_admits admitted plain metadata
  have declared : ∀ key ∈ Members.keys members, key ∈ fieldNames := by
    intro key listed
    obtain ⟨member, entry, rfl⟩ := List.mem_map.mp listed
    exact admitted.key_declared entry
  refine ⟨⟨features, bugs, tasks, record⟩, Contract.readProject_eq_ok_iff.mpr ⟨?_, ?_⟩⟩
  · rw [Contract.check_eq_ok_iff]
    exact (validate_registered_iff .projectData strict).mpr
      (engine_of_strict (Blueprint.registered_portable _) admits)
  · exact read_eq_ok_iff.mpr ⟨members, rfl, readFeatures, readBugs, readTasks, read,
      undeclared_eq_nil_iff.mpr declared⟩

end Project

/-- What the strict schemas admit of plain documents is read, an item as what its tag says, as long
as their moments can be read, their hours are in the range of doubles and their texts have a form in
bytes. -/
theorem admitted_readable :
    (∀ document : Value, document.Plain →
      Contract.checkItem (Contract.engine true) document = .ok () → Item.Readable document →
        ∀ strict, ∃ members item, document = .object members ∧
          members.lookup "type" = some (.text item.kind.text) ∧
          Contract.readItem (Contract.engine strict) document = .ok item) ∧
      ∀ document : Value, document.Plain →
        Contract.check (Contract.engine true) .project document = .ok () →
          Project.Readable document →
            ∀ strict, ∃ project,
              Contract.readProject (Contract.engine strict) document = .ok project :=
  ⟨fun _ plain accepted readable => Item.readItem_of_admits plain accepted readable,
    fun _ plain accepted readable => Project.readProject_of_admits plain accepted readable⟩

/-- A task that takes more hours than a double can tell apart. -/
def longTask : Members :=
  [("id", .text "t-1"), ("type", .text "task"), ("title", .text "Write docs"),
   ("description", .text ""), ("status", .text "todo"), ("priority", .text "low"),
   ("assignee", .null), ("createdAt", .text "2024-05-01T12:00:00Z"),
   ("updatedAt", .text "2024-05-01"), ("dueDate", .null),
   ("estimatedHours", .int 1000000000000000000000000000001), ("subtasks", .array [.text "t-2"])]

def longProject : Members :=
  [("features", .array []), ("bugs", .array []), ("tasks", .array [.object longTask]),
   ("metadata", .object
     [("projectName", .text "garden"), ("version", .text "1.0.0"),
      ("lastUpdated", .text "1714564800")])]

theorem longTask_plain : (Value.object longTask).Plain := by
  simp [Value.Plain, longTask, Value.PlainPart, Members.Distinct, Value.int, Value.Every,
    Value.EveryItem, Value.EveryMember]

theorem longTask_encodable : (Value.object longTask).Encodable := by
  simp +decide [Value.Encodable, Value.EveryText, Value.asText?, longTask, Value.int,
    Value.Every, Value.EveryItem, Value.EveryMember]

theorem longTask_moments : MomentsAt ["createdAt", "updatedAt", "dueDate"] longTask := by
  simp only [MomentsAt, List.forall_mem_cons]
  refine ⟨?_, ?_, ?_, List.forall_mem_nil _⟩
  · rintro text ⟨⟩
    exact exists_ok_of_toOption (by decide +kernel)
  · rintro text ⟨⟩
    exact exists_ok_of_toOption (by decide +kernel)
  · rintro text ⟨⟩

theorem longTask_hours : InRangeAt ["estimatedHours", "actualHours"] longTask := by
  simp only [InRangeAt, List.forall_mem_cons]
  refine ⟨?_, ?_, List.forall_mem_nil _⟩
  · rintro number ⟨⟩
    decide +kernel
  · rintro number ⟨⟩

theorem longTask_readable : Item.Readable (.object longTask) := by
  rintro members ⟨⟩
  exact ⟨longTask_moments, longTask_hours, .of_object longTask_encodable⟩

theorem longProject_plain : (Value.object longProject).Plain := by
  simpa [Value.Plain, longProject, Value.PlainPart, Members.Distinct, Value.Every,
    Value.EveryItem, Value.EveryMember] using longTask_plain

theorem longProject_readable : Project.Readable (.object longProject) := by
  rintro members ⟨⟩
  constructor
  · simp only [List.forall_mem_cons]
    refine ⟨?_, ?_, ?_, List.forall_mem_nil _⟩
    · rintro items ⟨⟩
      exact List.forall_mem_nil _
    · rintro items ⟨⟩
      exact List.forall_mem_nil _
    · rintro items ⟨⟩
      exact List.forall_mem_singleton.mpr longTask_readable
  · rintro metadata ⟨⟩
    refine ⟨List.forall_mem_singleton.mpr ?_, .of_object ?_⟩
    · rintro text ⟨⟩
      exact exists_ok_of_toOption (by decide +kernel)
    · simp +decide [Value.Encodable, Value.EveryText, Value.Every, Value.EveryMember]

theorem longProject_read :
    (∃ members item, Value.object longTask = .object members ∧
      members.lookup "type" = some (.text item.kind.text) ∧
      Contract.readItem (Contract.engine false) (.object longTask) = .ok item) ∧
      ∃ project,
        Contract.readProject (Contract.engine false) (.object longProject) = .ok project := by
  obtain ⟨items, projects⟩ := admitted_readable
  exact ⟨items _ longTask_plain (eq_ok_of_toOption (by decide +kernel)) longTask_readable false,
    projects _ longProject_plain (eq_ok_of_toOption (by decide +kernel)) longProject_readable
      false⟩

/-- A task with a lone surrogate for a title. -/
def halfTask : Members :=
  longTask.put "title" (.text (.singleton (Text.ofCode 0xd800)))

/-- A title that has no form in bytes is admitted by the schema, and is still not read. -/
theorem halfTask_unreadable :
    (Value.object halfTask).Plain ∧
      Contract.checkItem (Contract.engine true) (.object halfTask) = .ok () ∧
      MomentsAt ["createdAt", "updatedAt", "dueDate"] halfTask ∧
      InRangeAt ["estimatedHours", "actualHours"] halfTask ∧
      ¬ ∃ item, Contract.readItem (Contract.engine true) (.object halfTask) = .ok item := by
  refine ⟨?_, eq_ok_of_toOption (by decide +kernel), longTask_moments.put (by decide),
    longTask_hours.put (by decide), ?_⟩
  · simp [Value.Plain, halfTask, longTask, Members.put, Value.PlainPart, Members.Distinct,
      Value.int, Value.Every, Value.EveryItem, Value.EveryMember]
  · rintro ⟨item, read⟩
    have refused : (Contract.readItem (Contract.engine true)
        (.object halfTask)).toOption.isSome = false := by decide +kernel
    rw [read] at refused
    cases refused

end WorkItems
