import WorkItems.Proofs.Schema.Agreement
import WorkItems.Proofs.Schema.Closed
import WorkItems.Proofs.Schema.Report

namespace WorkItems.Schema

/-! Extended schemas and their base.

Of an object that an extension admits, the base admits the members that it speaks about, as long as
the extension declares none of them anew and the base is not closed.  A closed base refuses those
that it requires without declaring them, and then it refuses every object.
-/

variable {properties added : List (String × Blueprint)} {required further : List String}
  {members : Members} {value : Value} {key : String} {strict closed : Bool} {reading : Reading}
  {blueprint : Blueprint}

namespace Blueprint

/-- The names that an object schema requires or declares. -/
def mentionedNames (blueprint : Blueprint) : List String :=
  blueprint.requiredNames ++ blueprint.declaredNames

/-- The part of an object that an object schema speaks about. -/
def partOf (blueprint : Blueprint) (members : Members) : Value :=
  .object (members.within blueprint.mentionedNames)

theorem partOf_plain (plain : (Value.object members).Plain) :
    (blueprint.partOf members).Plain := by
  obtain ⟨distinct, each⟩ := Value.every_object_iff.mp plain
  refine Value.every_object_iff.mpr ⟨Members.within_distinct distinct, fun member entry => ?_⟩
  exact each member (Members.mem_within.mp entry).left

theorem propertyAt_extension (declared : properties.lookup key = some blueprint)
    (untouched : ∀ name ∈ properties.map Prod.fst, added.lookup name = none) :
    (extension (.object properties required closed) further added).propertyAt key =
      some blueprint := by
  have kept : added.lookup key = none :=
    untouched key (List.mem_map_of_mem (Members.mem_of_lookup declared))
  rw [propertyAt, kept, Option.none_or]
  exact declared

/-- What an extension admits, an open base admits of what it speaks about. -/
theorem admits_partOf (untouched : ∀ name ∈ properties.map Prod.fst, added.lookup name = none)
    (admitted : (extension (.object properties required closed) further added).AdmitsAll members) :
    (object properties required false).Admits (.engine true)
      ((object properties required closed).partOf members) := by
  refine (admits_members_iff rfl).mpr ⟨fun name wanted => ?_, fun member entry => ?_⟩
  · have present : members.hasKey name = true :=
      admitted.required name (List.mem_append_left _ wanted)
    exact Members.hasKey_within (List.mem_append_left _ wanted) present
  · rw [admitsMember_iff rfl]
    cases declared : properties.lookup member.1 with
    | none =>
        rw [propertyAt, declared]
        exact Bool.false_ne_true
    | some inner =>
        rw [propertyAt, declared]
        exact admitted.member_admitted (Members.mem_within.mp entry).left
          (propertyAt_extension declared untouched)

/-- Keys that a list of properties leaves out. -/
def undeclaredIn (properties : List (String × Blueprint)) (members : Members) : List String :=
  members.keys.filter fun key => (properties.lookup key).isNone

theorem errorsOfMember_of_open (wellFormed : (object properties required true).WellFormed)
    {member : String × Value}
    (admits : (object properties required false).AdmitsMember (.engine strict) member.1 member.2) :
    (object properties required true).errorsOfMember strict member =
      if (strict && (properties.lookup member.1).isNone) = true then
        ["Unexpected field: " ++ member.1] else [] := by
  rw [admitsMember_iff rfl, propertyAt] at admits
  rw [errorsOfMember, propertyAt]
  cases declared : properties.lookup member.1 with
  | none => cases strict <;> rfl
  | some inner =>
      have property : (object properties required true).propertyAt member.1 = some inner := declared
      rw [declared] at admits
      have silent : inner.issues strict member.2 = [] :=
        (issues_eq_nil_iff (wellFormed.propertyAt property)).mpr admits
      simp [errorsUnder, silent]

/-- Where an object is admitted but for what is undeclared, a closed schema reports that alone. -/
theorem errors_of_open (wellFormed : (object properties required true).WellFormed)
    (admits : (object properties required false).Admits (.engine strict) (.object members)) :
    (object properties required true).errors strict (.object members) =
      if strict = true then
        (undeclaredIn properties members).map fun key => "Unexpected field: " ++ key
      else [] := by
  obtain ⟨present, each⟩ := (admits_members_iff rfl).mp admits
  have nothingMissing : required.filter (fun name => !members.hasKey name) = [] := by
    refine List.filter_eq_nil_iff.mpr fun name wanted => ?_
    rw [present name wanted]
    exact Bool.false_ne_true
  rw [errors_object wellFormed rfl rfl, requiredEntries, nothingMissing, List.map_nil,
    List.nil_append]
  clear present nothingMissing admits
  induction members with
  | nil => cases strict <;> rfl
  | cons member rest ih =>
      obtain ⟨first, later⟩ := List.forall_mem_cons.mp each
      rw [List.flatMap_cons, ih later, errorsOfMember_of_open wellFormed first]
      cases strict <;>
        cases declared : (properties.lookup member.1).isNone <;>
          simp [undeclaredIn, Members.keys, declared]

/-- A closed schema that requires a name without declaring it admits no value at all. -/
theorem not_admits_of_undeclared (shape : blueprint.isObject = true)
    (isClosed : blueprint.isClosed = true) (refusesNull : blueprint.allowsNull = false)
    (wanted : key ∈ blueprint.requiredNames) (undeclared : blueprint.propertyAt key = none)
    (asStrict : reading.strict = true) : ¬ blueprint.Admits reading value := by
  intro admits
  rw [admits_object_iff shape, refusesNull] at admits
  rcases admits with ⟨-, impossible⟩ | ⟨members, -, required, each⟩
  · cases impossible
  · obtain ⟨value, entry⟩ := Members.hasKey_iff.mp (required key wanted)
    have admits := (admitsMember_iff shape).mp (each _ entry)
    rw [undeclared, asStrict, isClosed] at admits
    exact admits rfl

end Blueprint

open Blueprint Draft7

theorem rules_closed : (Blueprint.object properties required true).rules =
    (Blueprint.object properties required false).rules ++
      [("additionalProperties", .bool false)] := by
  rw [rules_object, rules_object]
  simp

/-- Where an object is admitted but for what is undeclared, the issue of a closed schema is about
that alone. -/
theorem schemaIssues_of_open (portable : (Blueprint.object properties required false).Portable)
    (plain : value.Plain)
    (admits : (Blueprint.object properties required false).Admits .draft7 value) :
    schemaIssues (.object (Blueprint.object properties required true).rules) value =
      entryIssues (Blueprint.object properties required true).rules "additionalProperties"
        (.bool false) value := by
  have sameProperties : (Blueprint.object properties required true).rules.valueAt "properties" =
      (Blueprint.object properties required false).rules.valueAt "properties" := by
    rw [Members.valueAt, Members.valueAt, lookup_properties rfl, lookup_properties rfl,
      declaredRules_object, declaredRules_object]
  have others : (Blueprint.object properties required false).rules.flatMap (fun entry =>
      entryIssues (Blueprint.object properties required true).rules entry.1 entry.2 value) =
        [] := by
    simp only [entryIssues_congr sameProperties]
    rw [← rulesIssues_eq_flatMap]
    exact (schemaIssues_nil_iff portable plain).mpr admits
  rw [schemaIssues, rulesIssues_eq_flatMap, rules_closed, List.flatMap_append, ← rules_closed,
    others, List.nil_append, List.flatMap_singleton]

theorem validate_of_open (portable : (Blueprint.object properties required false).Portable)
    (plain : (Value.object members).Plain)
    (admits : (Blueprint.object properties required false).Admits .draft7 (.object members))
    (undeclared : undeclaredIn properties members = [key]) :
    Draft7.validate (.object (Blueprint.object properties required true).rules) (.object members) =
      [(Draft7.Issue.here (.undeclared [key])).text] := by
  have declares : ∀ name, Members.hasKey (Blueprint.object properties required true).declaredRules
      name = (properties.lookup name).isSome := fun name => by
    rw [declaredRules_object, Members.hasKey, lookup_propertyRules, Option.isSome_map]
  have keys : undeclaredKeys (Blueprint.object properties required true).rules members = [key] := by
    rw [undeclaredKeys, Members.valueAt, lookup_properties rfl]
    simp only [Option.getD_some, Value.asMembers?, declares, Option.not_isSome]
    rw [← undeclaredIn, undeclared, List.mergeSort_singleton]
  rw [Draft7.validate, schemaIssues_of_open portable plain admits]
  change (List.mergeSort (if (undeclaredKeys _ members).isEmpty then [] else [_]) _).map _ = _
  rw [keys]
  exact congrArg (List.map Draft7.Issue.text) (List.mergeSort_singleton _)

theorem undeclaredIn_eq_singleton (distinct : Members.Distinct members)
    (present : members.hasKey key = true)
    (only : ∀ name ∈ members.keys, (properties.lookup name).isNone = (name == key)) :
    undeclaredIn properties members = [key] := by
  have once : members.keys.count key = 1 :=
    List.count_eq_one_of_mem distinct (Members.hasKey_iff_mem_keys.mp present)
  rw [undeclaredIn, List.filter_congr only, List.filter_beq, once, List.replicate_one]

/-- Of an object that an extension admits, a closed base refuses just the member that it requires
without declaring it. -/
theorem partOf_refused {base : Blueprint} (isBase : base = .object properties required true)
    (portable : base.Portable) (untouched : ∀ name ∈ base.declaredNames, added.lookup name = none)
    (wanted : key ∈ base.requiredNames)
    (only : ∀ name ∈ base.mentionedNames, (base.propertyAt name).isNone = (name == key))
    (plain : (Value.object members).Plain)
    (admitted : (Blueprint.extension base further added).AdmitsAll members) :
    validate false (.object base.rules) (base.partOf members) = .ok [] ∧
      validate true (.object base.rules) (base.partOf members) =
        .ok ["Unexpected field: " ++ key] ∧
      Draft7.validate (.object base.rules) (base.partOf members) =
        [(Draft7.Issue.here (.undeclared [key])).text] := by
  subst isBase
  have openPortable : (Blueprint.object properties required false).Portable :=
    portable_object_iff.mpr (portable_object_iff.mp portable)
  have partPlain : ((Blueprint.object properties required true).partOf members).Plain :=
    partOf_plain plain
  have undeclared : undeclaredIn properties
      (members.within (Blueprint.object properties required true).mentionedNames) = [key] := by
    refine undeclaredIn_eq_singleton partPlain.whole ?_ fun name among => only name ?_
    · exact Members.hasKey_within (List.mem_append_left _ wanted)
        (admitted.required key (List.mem_append_left _ wanted))
    · obtain ⟨member, entry, rfl⟩ := List.mem_map.mp among
      exact (Members.mem_within.mp entry).right
  have strictly : (Blueprint.object properties required false).Admits (.engine true)
      ((Blueprint.object properties required true).partOf members) :=
    admits_partOf untouched admitted
  refine ⟨?_, ?_, ?_⟩
  · rw [partOf, validate_eq_ok portable.wellFormed,
      errors_of_open portable.wellFormed (engine_of_strict openPortable strictly)]
    rfl
  · rw [partOf, validate_eq_ok portable.wellFormed, errors_of_open portable.wellFormed strictly,
      undeclared]
    rfl
  · exact validate_of_open openPortable partPlain (draft7_of_engine openPortable strictly)
      undeclared

/-- Every item schema extends the base by properties of its own. -/
theorem registered_extension (kind : ItemType) : ∃ further added,
    Blueprint.registered (.ofItemType kind) = .extension .baseItem further added ∧
      ∀ name ∈ Blueprint.baseItem.declaredNames, added.lookup name = none := by
  cases kind with
  | feature => exact ⟨_, _, rfl, by decide⟩
  | bug => exact ⟨_, _, rfl, by decide⟩
  | task => exact ⟨_, _, rfl, by decide⟩

/-- No value is an item by the base alone, which requires a status and declares none. -/
theorem not_admits_baseItem (asStrict : reading.strict = true) :
    ¬ Blueprint.baseItem.Admits reading value :=
  not_admits_of_undeclared rfl rfl rfl (show "status" ∈ sharedRequired by decide) rfl asStrict

/-- Of an item that its schema accepts, the base accepts the part that it speaks about, except that
it refuses the status. -/
theorem baseItem_refuses_status (kind : ItemType) (document : Value) (plain : document.Plain)
    (accepted : validate true (SchemaName.ofItemType kind).schema document = .ok []) :
    ∃ members, document = .object members ∧
      validate false SchemaName.baseItem.schema (Blueprint.baseItem.partOf members) = .ok [] ∧
      validate true SchemaName.baseItem.schema (Blueprint.baseItem.partOf members) =
        .ok ["Unexpected field: status"] ∧
      Draft7.validate SchemaName.baseItem.schema (Blueprint.baseItem.partOf members) =
        ["<root>: Additional properties are not allowed ('status' was unexpected)"] := by
  obtain ⟨further, added, extended, untouched⟩ := registered_extension kind
  have admits := (validate_registered_iff (.ofItemType kind) true).mp accepted
  rw [extended] at admits
  obtain ⟨members, rfl, admitted⟩ := admitsAll_of_closed rfl rfl rfl admits
  have refused := partOf_refused rfl baseItem_portable untouched
    (show "status" ∈ sharedRequired by decide) (by decide) plain admitted
  have engineText : "Unexpected field: " ++ "status" = "Unexpected field: status" := by decide
  have draft7Text : (Draft7.Issue.here (.undeclared ["status"])).text =
      "<root>: Additional properties are not allowed ('status' was unexpected)" := by
    decide +kernel
  rw [engineText, draft7Text] at refused
  have base : SchemaName.baseItem.schema = .object Blueprint.baseItem.rules :=
    schema_eq_rules .baseItem
  rw [base]
  exact ⟨members, rfl, refused⟩

/-- An item of a kind with nothing in it that could be left out. -/
def smallItem (kind : ItemType) : Members :=
  [("id", .text "shed-1"), ("title", .text "Paint"), ("description", .text ""),
   ("priority", .text "low"), ("createdAt", .text "2024-05-01T12:00:00Z"),
   ("updatedAt", .text "2024-05-01T12:00:00Z"), ("type", .text kind.text)] ++
  match kind with
  | .feature =>
    [("status", .text "backlog"), ("acceptanceCriteria", .array [.text "It is green."])]
  | .bug =>
    [("status", .text "open"), ("severity", .text "low"), ("reproducible", .bool true),
     ("stepsToReproduce", .array [.text "Touch it."]), ("environment", .text "rain")]
  | .task => [("status", .text "todo"), ("subtasks", .array [])]

theorem smallItem_plain (kind : ItemType) : (Value.object (smallItem kind)).Plain := by
  cases kind <;>
    simp [Value.Plain, smallItem, Value.PlainPart, Members.Distinct, Value.Every,
      Value.EveryItem, Value.EveryMember]

theorem smallItem_accepted (kind : ItemType) :
    validate true (SchemaName.ofItemType kind).schema (.object (smallItem kind)) = .ok [] := by
  cases kind <;> exact eq_ok_of_toOption (by decide +kernel)

theorem smallTask_lacks_status :
    (Value.object (smallItem .task)).Plain ∧
      validate true SchemaName.task.schema (.object (smallItem .task)) = .ok [] ∧
      validate true SchemaName.baseItem.schema (Blueprint.baseItem.partOf (smallItem .task)) =
        .ok ["Unexpected field: status"] := by
  obtain ⟨members, same, -, refused, -⟩ := baseItem_refuses_status .task
    (.object (smallItem .task)) (smallItem_plain .task) (smallItem_accepted .task)
  obtain rfl := Value.object.inj same
  exact ⟨smallItem_plain .task, smallItem_accepted .task, refused⟩

theorem smallTask_not_described :
    validate true SchemaName.task.schema (.object (smallItem .task)) = .ok [] ∧
      validate true SchemaName.baseItem.schema (Blueprint.baseItem.partOf (smallItem .task)) ≠
        .ok [] ∧
      Draft7.validate SchemaName.baseItem.schema (Blueprint.baseItem.partOf (smallItem .task)) ≠
        [] := by
  refine ⟨smallItem_accepted .task, fun accepted => ?_, fun accepted => ?_⟩
  · exact not_admits_baseItem rfl ((validate_registered_iff .baseItem true).mp accepted)
  · have plain : (Blueprint.baseItem.partOf (smallItem .task)).Plain :=
      partOf_plain (smallItem_plain .task)
    exact not_admits_baseItem rfl ((draft7_registered_iff .baseItem plain).mp accepted)

/-- The base of all items is the only registered schema that accepts nothing. -/
theorem satisfiable_iff (name : SchemaName) :
    (∃ document : Value, document.Plain ∧ validate true name.schema document = .ok []) ↔
      name ≠ .baseItem := by
  constructor
  · intro satisfiable isBase
    obtain ⟨document, -, accepted⟩ := satisfiable
    subst isBase
    exact not_admits_baseItem rfl ((validate_registered_iff .baseItem true).mp accepted)
  · intro other
    cases name with
    | baseItem => exact absurd rfl other
    | feature => exact ⟨_, smallItem_plain .feature, smallItem_accepted .feature⟩
    | bug => exact ⟨_, smallItem_plain .bug, smallItem_accepted .bug⟩
    | task => exact ⟨_, smallItem_plain .task, smallItem_accepted .task⟩
    | projectData =>
        exact ⟨emptyProject, emptyProject_plain, eq_ok_of_toOption (by decide +kernel)⟩

end WorkItems.Schema
