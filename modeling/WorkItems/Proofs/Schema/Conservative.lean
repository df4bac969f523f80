import WorkItems.Proofs.Schema.Registered
import WorkItems.Proofs.Schema.Undeclared

namespace WorkItems.Schema

/-! Extensions of object schemas.

An object schema that the builders make has a fixed shape, whatever its properties are, and an
extension of it has the same shape with more names and more properties.  So a lenient walk under the
extension reports all that a walk under the base reports, in the same order, and in between what it
finds of the names and of the properties that have been added.
-/

variable {strict : Bool} {rules further declared properties members : Members}
  {names required : List String} {schema value : Value} {key : String}
  {issues : List Issue}

/-- The object schemas that the builders make: at once, by making another one nullable, and by
extending another one.  Their properties may be anything. -/
inductive ObjectSchema : Value → Prop where
  | object (properties : Members) (required : List String) (closed : Bool) :
    ObjectSchema (objectSchema properties (required.map .text) closed)
  | nullable {inner schema : Value} (ofInner : ObjectSchema inner)
    (built : Schema.nullable inner = .ok schema) : ObjectSchema schema
  | extension {base schema : Value} {properties : Members} (required : List String)
    (ofBase : ObjectSchema base)
    (built : Schema.extend base (.array (required.map .text)) (.object properties) = .ok schema) :
    ObjectSchema schema

/-- What the rules of an object schema are. -/
structure ObjectRules (rules : Members) (names : List String) (declared : Members) : Prop where
  typed : rules.valueAt "type" = .text "object" ∨
    rules.valueAt "type" = .array [.text "object", .text "null"]
  required : (rules.lookup "required").getD (.array []) = .array (names.map .text)
  properties : rules.lookup "properties" = some (.object declared)
  noEnum : rules.lookup "enum" = none
  noConst : rules.lookup "const" = none

theorem objectRules_object (properties : Members) (required : List String) (closed : Bool) :
    ObjectRules (membersIn (objectSchema properties (required.map .text) closed)) required
      properties := by
  cases required <;> cases closed <;> exact ⟨.inl rfl, rfl, rfl, rfl, rfl⟩

/-- The rules of an extension. -/
def extendedRules (rules : Members) (names required : List String)
    (declared properties : Members) : Members :=
  (rules.put "required" (.array ((names ++ required.filter fun name =>
    !names.contains name).map .text))).put "properties" (.object (declared.merge properties))

namespace ObjectRules

variable (shape : ObjectRules rules names declared)

include shape

theorem nullable (built : Schema.nullable (.object rules) = .ok schema) :
    ∃ others, schema = .object others ∧ ObjectRules others names declared := by
  have nulled : Schema.nullable (.object rules) =
      .ok (.object (rules.put "type" (.array [.text "object", .text "null"]))) := by
    rcases shape.typed with typed | typed <;>
      simp [Schema.nullable, membersOf, ok_bind, pure_eq_ok, typed, Value.asItems?, Value.isText,
        Value.asText?]
  rw [nulled, Except.ok.injEq] at built
  refine ⟨_, built.symm, .inr ?_, ?_, ?_, ?_, ?_⟩
  · rw [Members.valueAt_put, if_pos rfl]
  · rw [Members.lookup_put, if_neg (by decide), shape.required]
  · rw [Members.lookup_put, if_neg (by decide), shape.properties]
  · rw [Members.lookup_put, if_neg (by decide), shape.noEnum]
  · rw [Members.lookup_put, if_neg (by decide), shape.noConst]

theorem extend_eq (required : List String) (properties : Members) :
    Schema.extend (.object rules) (.array (required.map .text)) (.object properties) =
      .ok (.object (extendedRules rules names required declared properties)) := by
  have added := Blueprint.filterM_notInherited names required
  simp only [Schema.extend, membersOf, ok_bind, shape.required, shape.properties,
    Option.getD_some, elements, mappingOf, added, extendedRules, List.map_append]
  cases properties <;> rfl

omit shape in
theorem type_extendedRules (required : List String) (properties : Members) :
    (extendedRules rules names required declared properties).valueAt "type" =
      rules.valueAt "type" := by
  rw [extendedRules, Members.valueAt_put, if_neg (by decide), Members.valueAt_put,
    if_neg (by decide)]

theorem of_extension (required : List String) (properties : Members) :
    ObjectRules (extendedRules rules names required declared properties)
      (names ++ required.filter fun name => !names.contains name) (declared.merge properties) := by
  refine ⟨?_, ?_, ?_, ?_, ?_⟩
  · rw [type_extendedRules]
    exact shape.typed
  · rw [extendedRules, Members.lookup_put, if_neg (by decide), Members.lookup_put, if_pos rfl,
      Option.getD_some]
  · rw [extendedRules, Members.lookup_put, if_pos rfl]
  · rw [extendedRules, Members.lookup_put, if_neg (by decide), Members.lookup_put,
      if_neg (by decide), shape.noEnum]
  · rw [extendedRules, Members.lookup_put, if_neg (by decide), Members.lookup_put,
      if_neg (by decide), shape.noConst]

end ObjectRules

theorem ObjectSchema.exists_rules (made : ObjectSchema schema) :
    ∃ rules names declared, schema = .object rules ∧ ObjectRules rules names declared := by
  induction made with
  | object properties required closed => exact ⟨_, _, _, rfl, objectRules_object _ _ _⟩
  | nullable _ built ih =>
      obtain ⟨rules, names, declared, rfl, shape⟩ := ih
      obtain ⟨others, same, shapeToo⟩ := shape.nullable built
      exact ⟨others, names, declared, same, shapeToo⟩
  | extension required _ built ih =>
      obtain ⟨rules, names, declared, rfl, shape⟩ := ih
      rw [shape.extend_eq, Except.ok.injEq] at built
      exact ⟨_, _, _, built.symm, shape.of_extension _ _⟩

theorem ObjectSchema.of_build {blueprint : Blueprint} (shape : blueprint.isObject = true)
    (built : blueprint.build = .ok schema) : ObjectSchema schema := by
  induction blueprint using Blueprint.byParts generalizing schema with
  | object properties required closed _ =>
      obtain ⟨members, -, made⟩ := bind_eq_ok_iff.mp built
      cases made
      exact .object members required closed
  | nullable inner ih =>
      obtain ⟨ofInner, innerBuilt, made⟩ := bind_eq_ok_iff.mp built
      exact .nullable (ih shape innerBuilt) made
  | extension base required properties ih _ =>
      obtain ⟨ofBase, baseBuilt, rest⟩ := bind_eq_ok_iff.mp built
      obtain ⟨members, -, made⟩ := bind_eq_ok_iff.mp rest
      exact .extension required (ih shape baseBuilt) made
  | text | choice | flag | number | array | constant => cases shape

namespace ObjectRules

variable (shape : ObjectRules rules names declared)

include shape

theorem rootIssues_object : rootIssues strict rules (.object members) = together
    (.ok ((names.filter fun name => !members.hasKey name).map
      fun name => .here (.missing (.text name))))
    (gather (fun member => memberIssues strict rules member.1 member.2) members) := by
  have missing : missingIssues rules members = _ := missingIssues_eq shape.required
  rw [← missing, ← objectIssues_eq_together]
  rcases shape.typed with typed | typed
  · have isObject : (rules.valueAt "type").isText "object" = true := by rw [typed]; rfl
    exact Schema.rootIssues_object isObject
  · have other : ¬ (rules.valueAt "type").isText "object" = true := by rw [typed]; nofun
    have expected : expectedType rules = .text "object" := by rw [expectedType, typed]; rfl
    have isObject : (expectedType rules).isText "object" = true := by rw [expected]; rfl
    have unsettled : settled? rules (.object members) = none :=
      settled?_eq_none isObject rfl rfl (show "object" ≠ "integer" by decide)
    have own : ownIssues rules (.text "object") (.object members) =
        missingIssues rules members := by
      rw [ownIssues, enumIssues, constIssues, shape.noEnum, shape.noConst]
      change (missingIssues rules members >>= fun whole => pure ([] ++ [] ++ [] ++ whole)) = _
      cases missingIssues rules members <;> rfl
    rw [rootIssues_field other, fieldIssues_walk, unsettled, expected, objectIssues_eq_together]
    exact congrArg (together · _) own

/-- Of a value that is no object, nothing but its type is looked at. -/
theorem rootIssues_other (same : further.valueAt "type" = rules.valueAt "type")
    (other : ∀ members, value ≠ .object members) :
    rootIssues strict further value = rootIssues strict rules value := by
  rcases shape.typed with typed | typed
  · have isObject : (rules.valueAt "type").isText "object" = true := by rw [typed]; rfl
    rw [rootIssues_notObject (same ▸ isObject) other, rootIssues_notObject isObject other, same]
  · have notObject : ¬ (rules.valueAt "type").isText "object" = true := by rw [typed]; nofun
    have settled (entries : Members)
        (isNullable : entries.valueAt "type" = .array [.text "object", .text "null"]) :
        settled? entries value = some (if value.isNull then []
          else [.here (.wrongKind (.text "object") value.kind)]) := by
      have expected : expectedType entries = .text "object" := by
        rw [expectedType, isNullable]
        rfl
      have allows : acceptsNull entries = true := by
        rw [acceptsNull, isNullable]
        rfl
      rw [settled?, expected, allows]
      cases value with
      | object members => exact absurd rfl (other members)
      | foreign kind mark => cases kind <;> rfl
      | null | bool | number | text | term | array | tuple => rfl
    rw [rootIssues_field (same ▸ notObject), rootIssues_field notObject, fieldIssues_walk,
      fieldIssues_walk, settled rules typed, settled further (same.trans typed)]

theorem memberIssues_of_known {inner : Value} (known : declared.valueAt key = inner)
    (given : inner ≠ .null) : memberIssues strict rules key value =
      (fieldIssues strict inner value).map (List.map (.under (.key key))) := by
  refine memberIssues_declared ?_ (Value.isNull_eq_false_iff.mpr given)
  rw [Members.valueAt, shape.properties, Option.getD_some, propertySchema_eq, known]

theorem memberIssues_of_unknown (unknown : declared.valueAt key = .null) :
    memberIssues false rules key value = .ok [] := by
  have nothing : propertySchema (rules.valueAt "properties") key = .ok .null := by
    rw [Members.valueAt, shape.properties, Option.getD_some, propertySchema_eq, unknown]
  have free : forbidsUndeclared false rules = false :=
    Bool.eq_false_iff.mpr fun forbids => Bool.false_ne_true (forbidsUndeclared_iff.mp forbids).left
  rw [memberIssues_undeclared nothing, free, if_neg Bool.false_ne_true]

variable (distinct : Members.Distinct properties) (required)

include distinct

theorem memberIssues_kept (absent : properties.lookup key = none) :
    memberIssues false (extendedRules rules names required declared properties) key value =
      memberIssues false rules key value := by
  have shapeToo := shape.of_extension required properties
  have same : (declared.merge properties).valueAt key = declared.valueAt key := by
    rw [Members.valueAt_merge distinct, absent, Option.getD_none]
  by_cases unknown : declared.valueAt key = .null
  · rw [shapeToo.memberIssues_of_unknown (same.trans unknown),
      shape.memberIssues_of_unknown unknown]
  · rw [shapeToo.memberIssues_of_known same unknown, shape.memberIssues_of_known rfl unknown]

theorem memberIssues_added (given : properties.lookup key = some schema)
    (run : fieldIssues false schema value = .ok issues) :
    memberIssues false (extendedRules rules names required declared properties) key value =
      .ok (issues.map (.under (.key key))) := by
  have known : (declared.merge properties).valueAt key = schema := by
    rw [Members.valueAt_merge distinct, given, Option.getD_some]
  have present : schema ≠ .null := by
    rintro rfl
    cases value <;> cases run
  rw [(shape.of_extension required properties).memberIssues_of_known known present, run]
  rfl

variable (apart : Members.Apart declared properties)

include apart

omit distinct in
theorem memberIssues_open (given : properties.lookup key = some schema) :
    memberIssues false rules key value = .ok [] := by
  refine shape.memberIssues_of_unknown ?_
  rw [Members.valueAt, apart.symm.lookup_none given, Option.getD_none]

/-- Under the extension, all that the base reports is reported in the same order. -/
theorem rootIssues_sublist
    (run : rootIssues false (extendedRules rules names required declared properties) value =
      .ok issues) :
    ∃ fewer, rootIssues false rules value = .ok fewer ∧ fewer.Sublist issues := by
  rcases value.object_or_other with ⟨members, rfl⟩ | other
  · rw [(shape.of_extension required properties).rootIssues_object] at run
    obtain ⟨missing, found, missingRun, foundRun, rfl⟩ := together_eq_ok_iff.mp run
    obtain ⟨fewer, fewerRun, within⟩ : ∃ fewer, gather
        (fun member => memberIssues false rules member.1 member.2) members = .ok fewer ∧
          fewer.Sublist found := by
      -- The base does not look at what the extension checks under an added property.
      refine gather_sublist (fun member _ found run => ?_) foundRun
      cases given : properties.lookup member.1 with
      | none => exact ⟨found, (shape.memberIssues_kept required distinct given) ▸ run, .refl found⟩
      | some schema => exact ⟨[], shape.memberIssues_open apart given, List.nil_sublist found⟩
    rw [shape.rootIssues_object]
    refine ⟨_, together_eq_ok_iff.mpr ⟨_, fewer, rfl, fewerRun, rfl⟩, ?_⟩
    rw [← Except.ok.inj missingRun, List.filter_append, List.map_append]
    exact (List.sublist_append_left _ _).append within
  · rw [shape.rootIssues_other (type_extendedRules required properties) other] at run
    exact ⟨issues, run, .refl issues⟩

end ObjectRules

/-- Whether nothing that is given for an added property makes its check break down. -/
def ChecksAdditions (properties : Members) (value : Value) : Prop :=
  ∀ members : Members, value = .object members → ∀ member ∈ members, ∀ schema,
    properties.lookup member.1 = some schema →
      ∃ issues, fieldIssues false schema member.2 = .ok issues

/-- Whether a value has all added names, and what it has for the added properties is valid. -/
def MeetsAdditions (required : List String) (properties : Members) (value : Value) : Prop :=
  ∀ members : Members, value = .object members →
    (∀ name ∈ required, members.hasKey name = true) ∧
      ∀ member ∈ members, ∀ schema, properties.lookup member.1 = some schema →
        fieldIssues false schema member.2 = .ok []

namespace ObjectRules

variable (shape : ObjectRules rules names declared) (distinct : Members.Distinct properties)

include shape distinct

theorem exists_rootIssues (checks : ChecksAdditions properties value)
    (run : rootIssues false rules value = .ok issues) :
    ∃ found, rootIssues false (extendedRules rules names required declared properties) value =
      .ok found := by
  rcases value.object_or_other with ⟨members, rfl⟩ | other
  · rw [shape.rootIssues_object] at run
    obtain ⟨-, found, -, gathered, -⟩ := together_eq_ok_iff.mp run
    obtain ⟨own, each, -⟩ := gather_eq_ok_iff.mp gathered
    obtain ⟨all, gatheredToo⟩ : ∃ all, gather (fun member => memberIssues false
        (extendedRules rules names required declared properties) member.1 member.2) members =
          .ok all := by
      refine exists_gather fun member among => ?_
      cases given : properties.lookup member.1 with
      | none => exact ⟨own member, (shape.memberIssues_kept required distinct given).trans
          (each member among)⟩
      | some schema =>
          obtain ⟨inner, checked⟩ := checks members rfl member among schema given
          exact ⟨_, shape.memberIssues_added required distinct given checked⟩
    rw [(shape.of_extension required properties).rootIssues_object]
    exact ⟨_, together_eq_ok_iff.mpr ⟨_, all, rfl, gatheredToo, rfl⟩⟩
  · rw [shape.rootIssues_other (type_extendedRules required properties) other]
    exact ⟨issues, run⟩

theorem rootIssues_of_meets (apart : Members.Apart declared properties)
    (meets : MeetsAdditions required properties value) :
    rootIssues false (extendedRules rules names required declared properties) value =
      rootIssues false rules value := by
  rcases value.object_or_other with ⟨members, rfl⟩ | other
  · obtain ⟨present, valid⟩ := meets members rfl
    have nothing : (required.filter fun name => !names.contains name).filter
        (fun name => !Members.hasKey members name) = [] := by
      refine List.filter_eq_nil_iff.mpr fun name among => ?_
      rw [present name (List.mem_filter.mp among).left]
      exact Bool.false_ne_true
    rw [(shape.of_extension required properties).rootIssues_object, shape.rootIssues_object,
      List.filter_append, nothing, List.append_nil]
    refine congrArg _ (gather_congr fun member among => ?_)
    cases given : properties.lookup member.1 with
    | none => exact shape.memberIssues_kept required distinct given
    | some schema => rw [shape.memberIssues_added required distinct given
        (valid member among schema given), shape.memberIssues_open apart given, List.map_nil]
  · exact shape.rootIssues_other (type_extendedRules required properties) other

end ObjectRules

/-- The properties that a schema declares. -/
def declaredIn (schema : Value) : Members :=
  membersIn ((membersIn schema).valueAt "properties")

/-- An extension by names and by properties of new keys only adds to what a lenient check reports:
the errors under the base stand among those under the extension, in the same order, so the base
accepts what the extension accepts.  It breaks down only where the base does or an added property
does, and a value that meets all additions has the same errors under both. -/
theorem extension_conservative (made : ObjectSchema schema) (required : List String)
    (distinct : Members.Distinct properties)
    (apart : Members.Apart (declaredIn schema) properties) (value : Value) :
    ∃ extended, Schema.extend schema (.array (required.map .text)) (.object properties) =
        .ok extended ∧
      (∀ found, validate false extended value = .ok found →
        ∃ errors, validate false schema value = .ok errors ∧ errors.Sublist found) ∧
      (validate false extended value = .ok [] → validate false schema value = .ok []) ∧
      (∀ errors, validate false schema value = .ok errors → ChecksAdditions properties value →
        ∃ found, validate false extended value = .ok found) ∧
      (MeetsAdditions required properties value →
        validate false extended value = validate false schema value) := by
  obtain ⟨rules, names, declared, rfl, shape⟩ := made.exists_rules
  have same : declaredIn (.object rules) = membersIn (Members.valueAt rules "properties") :=
    rfl
  rw [same, Members.valueAt, shape.properties] at apart
  have label : rootLabel? (extendedRules rules names required declared properties) =
      rootLabel? rules := by
    rw [rootLabel?, ObjectRules.type_extendedRules, ← rootLabel?]
  have within : ∀ found, validate false
      (.object (extendedRules rules names required declared properties)) value = .ok found →
      ∃ errors, validate false (.object rules) value = .ok errors ∧ errors.Sublist found := by
    intro found run
    rw [validate_eq_told, label] at run
    obtain ⟨issues, issuesRun, rfl⟩ := map_eq_ok_iff.mp run
    obtain ⟨fewer, fewerRun, sublist⟩ := shape.rootIssues_sublist required distinct apart issuesRun
    exact ⟨fewer.map _, by rw [validate_eq_told, fewerRun]; rfl, sublist.map _⟩
  refine ⟨_, shape.extend_eq required properties, within, fun run => ?_,
    fun errors run checks => ?_, fun meets => ?_⟩
  · obtain ⟨errors, errorsRun, sublist⟩ := within [] run
    rw [errorsRun, List.sublist_nil.mp sublist]
  · rw [validate_eq_told] at run ⊢
    obtain ⟨issues, issuesRun, -⟩ := map_eq_ok_iff.mp run
    obtain ⟨found, foundRun⟩ := shape.exists_rootIssues distinct checks issuesRun
    rw [foundRun]
    exact ⟨_, rfl⟩
  · rw [validate_eq_told, validate_eq_told, label, shape.rootIssues_of_meets distinct apart meets]

/-- A note with an owner, which lacks some of what every item has. -/
def ownedNote (owner : Value) : Value :=
  .object [("owner", owner), ("title", .text ""), ("id", .text "n-1"),
    ("status", .text "todo"), ("priority", .text "low"), ("createdAt", .text "2024-05-01")]

def ownerProperty : Members :=
  [("owner", booleanSchema)]

theorem ownedNote_meets :
    MeetsAdditions ["title", "owner"] ownerProperty (ownedNote (.bool true)) := by
  intro members same
  cases same
  refine ⟨by decide, fun member among schema given => ?_⟩
  have isOwner : (member.1, schema) = ("owner", booleanSchema) :=
    List.mem_singleton.mp (Members.mem_of_lookup given)
  obtain ⟨key, rfl⟩ := Prod.mk.inj isOwner
  have found := Members.lookup_of_mem (by decide) among
  rw [key] at found
  have owns : Value.bool true = member.2 := Option.some.inj found
  rw [← owns]
  rfl

theorem ownedNote_conservative : ∃ extended,
    Schema.extend Schema.baseItem (.array (["title", "owner"].map .text))
      (.object ownerProperty) = .ok extended ∧
    (∃ found errors, validate false extended (ownedNote (.text "sam")) = .ok found ∧
      validate false Schema.baseItem (ownedNote (.text "sam")) = .ok errors ∧
      errors.Sublist found ∧ "owner: Expected boolean, got string" ∈ found) ∧
    validate false extended (ownedNote (.bool true)) =
      .ok ["Missing required field: description", "Missing required field: updatedAt",
        "title: Minimum length is 1"] := by
  have made : ObjectSchema Schema.baseItem := .of_build rfl (Blueprint.build_registered .baseItem)
  have distinct : Members.Distinct ownerProperty := by decide
  have apart : Members.Apart (declaredIn Schema.baseItem) ownerProperty := by decide
  have conservative (value : Value) :=
    extension_conservative made ["title", "owner"] distinct apart value
  obtain ⟨extended, built, within, -, -, -⟩ := conservative (ownedNote (.text "sam"))
  obtain ⟨_, builtToo, -, -, -, same⟩ := conservative (ownedNote (.bool true))
  obtain rfl := Except.ok.inj (built.symm.trans builtToo)
  refine ⟨extended, built, ?_, ?_⟩
  · have reports : ((Schema.extend Schema.baseItem (.array (["title", "owner"].map .text))
        (.object ownerProperty)).bind fun extended =>
          validate false extended (ownedNote (.text "sam"))).toOption.map
            (fun found => found.contains "owner: Expected boolean, got string") =
              some true := by
      decide +kernel
    rw [built] at reports
    obtain ⟨found, run, among⟩ := Option.map_eq_some_iff.mp reports
    obtain ⟨errors, errorsRun, sublist⟩ := within found (eq_ok_of_toOption run)
    exact ⟨found, errors, eq_ok_of_toOption run, errorsRun, sublist, List.contains_iff_mem.mp among⟩
  · rw [same ownedNote_meets]
    exact eq_ok_of_toOption (by decide +kernel)

end WorkItems.Schema
