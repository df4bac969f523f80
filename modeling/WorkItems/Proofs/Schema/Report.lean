import WorkItems.Proofs.Schema.Label

namespace WorkItems.Schema

/-! What a built schema reports.

Checking never fails under a schema that the builders make, so its errors are a function of the
value.  What is reported of an object or an array is put together from what is reported of its
parts, in the order of the data.
-/

variable {strict : Bool} {rules members : Members} {items : List Value} {value : Value}
  {label : String} {blueprint inner : Blueprint}

theorem itemsIssues_eq {found : Value → List Issue} (position : Nat)
    (each : ∀ item ∈ items, fieldIssues strict (.object rules) item = .ok (found item)) :
    itemsIssues strict (.object rules) position items =
      .ok ((items.zipIdx position).flatMap fun entry =>
        (found entry.1).map (.under (.index entry.2))) := by
  induction items generalizing position with
  | nil => rfl
  | cons item items ih =>
      obtain ⟨first, rest⟩ := List.forall_mem_cons.mp each
      rw [itemsIssues, ih (position + 1) rest]
      change (fieldIssues strict (.object rules) item >>= fun issues => _) = _
      rw [first]
      rfl

theorem membersIssues_eq {found : String × Value → List Issue}
    (each : ∀ member ∈ members, memberIssues strict rules member.1 member.2 = .ok (found member)) :
    membersIssues strict rules members = .ok (members.flatMap found) := by
  induction members with
  | nil => rfl
  | cons member members ih =>
      obtain ⟨first, rest⟩ := List.forall_mem_cons.mp each
      rw [membersIssues_cons, first, ih rest]
      rfl

namespace Blueprint

def issues (blueprint : Blueprint) (strict : Bool) (value : Value) : List Issue :=
  (fieldIssues strict (.object blueprint.rules) value).toOption.getD []

def errors (blueprint : Blueprint) (strict : Bool) (value : Value) : List String :=
  (validate strict (.object blueprint.rules) value).toOption.getD []

def errorsUnder (blueprint : Blueprint) (strict : Bool) (label : String) (value : Value) :
    List String :=
  (blueprint.issues strict value).map (Issue.textUnder label)

theorem fieldIssues_eq_ok (wellFormed : blueprint.WellFormed) :
    fieldIssues strict (.object blueprint.rules) value = .ok (blueprint.issues strict value) := by
  obtain ⟨found, run, -⟩ : Decides (fieldIssues strict (.object blueprint.rules) value) _ :=
    fieldIssues_decides wellFormed
  rw [issues, run]
  rfl

theorem issues_eq_nil_iff (wellFormed : blueprint.WellFormed) :
    blueprint.issues strict value = [] ↔ blueprint.Admits (.engine strict) value := by
  obtain ⟨found, run, empty⟩ : Decides (fieldIssues strict (.object blueprint.rules) value)
      (blueprint.Admits (.engine strict) value) := fieldIssues_decides wellFormed
  rw [issues, run]
  exact empty

theorem validate_eq_ok (wellFormed : blueprint.WellFormed) :
    validate strict (.object blueprint.rules) value = .ok (blueprint.errors strict value) := by
  obtain ⟨found, run, -⟩ : Decides (validate strict (.object blueprint.rules) value) _ :=
    validate_decides wellFormed
  rw [errors, run]
  rfl

theorem text_wrongKind {spelled : String} (name : String) (kind : Kind)
    (same : ": " ++ "Expected " ++ name ++ ", got " = spelled) :
    (Issue.here (.wrongKind (.text name) kind)).textUnder label =
      label ++ spelled ++ kind.name := by
  have parts : (Issue.here (.wrongKind (.text name) kind)).textUnder label =
      label ++ "" ++ ": " ++ ("Expected " ++ name ++ ", got " ++ kind.name) := rfl
  rw [parts, ← same, String.append_empty]
  simp only [String.append_assoc]

/-- The errors of a labelled value that has to be an object, given its errors as a whole. -/
def objectErrors (label : String) (whole : Value → List String) : Value → List String
  | .object members => (whole (.object members)).map fun error => label ++ "." ++ error
  | value => [label ++ ": Expected object, got " ++ value.kind.name]

theorem objectErrors_of_other {whole : Value → List String}
    (other : ∀ members, value ≠ .object members) :
    objectErrors label whole value = [label ++ ": Expected object, got " ++ value.kind.name] := by
  cases value with
  | object members => exact absurd rfl (other members)
  | null | bool | number | text | term | array | tuple | foreign => rfl

def issuesOfMember (blueprint : Blueprint) (strict : Bool) (member : String × Value) :
    List Issue :=
  match blueprint.propertyAt member.1 with
  | some inner => (inner.issues strict member.2).map (.under (.key member.1))
  | none => if strict && blueprint.isClosed then [.here (.undeclared member.1)] else []

def errorsOfMember (blueprint : Blueprint) (strict : Bool) (member : String × Value) :
    List String :=
  match blueprint.propertyAt member.1 with
  | some inner => inner.errorsUnder strict member.1 member.2
  | none => if strict && blueprint.isClosed then ["Unexpected field: " ++ member.1] else []

theorem text_issuesOfMember (member : String × Value) :
    (blueprint.issuesOfMember strict member).map Issue.text =
      blueprint.errorsOfMember strict member := by
  rw [issuesOfMember, errorsOfMember]
  cases blueprint.propertyAt member.1 with
  | some inner => exact List.map_map
  | none => cases strict && blueprint.isClosed <;> rfl

theorem memberIssues_eq (wellFormed : blueprint.WellFormed) (shape : blueprint.isObject = true)
    (member : String × Value) :
    memberIssues strict blueprint.rules member.1 member.2 =
      .ok (blueprint.issuesOfMember strict member) := by
  have schema : propertySchema (blueprint.rules.valueAt "properties") member.1 =
      .ok (((blueprint.propertyAt member.1).map fun inner => .object inner.rules).getD .null) := by
    rw [Members.valueAt, lookup_properties shape, Option.getD_some, propertySchema_eq,
      Members.valueAt, lookup_declaredRules wellFormed shape]
  rw [issuesOfMember]
  cases declared : blueprint.propertyAt member.1 with
  | some inner =>
      rw [declared, Option.map_some, Option.getD_some] at schema
      rw [memberIssues_declared schema rfl, fieldIssues_eq_ok (wellFormed.propertyAt declared)]
      rfl
  | none =>
      rw [declared] at schema
      rw [memberIssues_undeclared schema, forbidsUndeclared_rules shape]

section

variable (wellFormed : blueprint.WellFormed) (shape : blueprint.isObject = true)
  (refusesNull : blueprint.allowsNull = false)

include wellFormed shape refusesNull

theorem objectIssues_eq_ok : objectIssues strict blueprint.rules members =
    .ok (blueprint.issues strict (.object members)) := by
  have unlisted : enumIssues blueprint.rules (.object members) = .ok [] := by
    rw [enumIssues, lookup_listed (lists_of_isObject shape) (.inl rfl)]
  have different : constIssues blueprint.rules (.object members) = [] := by
    rw [constIssues, lookup_listed (lists_of_isObject shape) (.inr rfl)]
  have run : fieldIssues strict (.object blueprint.rules) (.object members) = .ok _ :=
    fieldIssues_eq_ok wellFormed
  rw [fieldIssues_object (isText_type_rules.mpr ⟨shape, refusesNull⟩), unlisted, different] at run
  rw [← run]
  cases objectIssues strict blueprint.rules members <;> rfl

theorem errors_eq_text : blueprint.errors strict (.object members) =
    (blueprint.issues strict (.object members)).map Issue.text := by
  rw [errors, validate_object (isText_type_rules.mpr ⟨shape, refusesNull⟩),
    objectIssues_eq_ok wellFormed shape refusesNull]
  rfl

/-- What an object reports as a field is what it reports as a whole, behind its label. -/
theorem errorsUnder_object : blueprint.errorsUnder strict label value =
    objectErrors label (blueprint.errors strict) value := by
  rcases value.object_or_other with ⟨members, rfl⟩ | other
  · rw [objectErrors, errors_eq_text wellFormed shape refusesNull]
    exact map_textUnder_objectIssues (objectIssues_eq_ok wellFormed shape refusesNull) label
  · have typed := isText_type_rules.mpr ⟨shape, refusesNull⟩
    rw [objectErrors_of_other other, errorsUnder, issues, fieldIssues_notObject typed other,
      expectedType_rules, typeName_of_isObject shape]
    exact congrArg (· :: []) (text_wrongKind "object" value.kind rfl)

/-- An object reports the names that it misses, in the order in which they are required, and then
the errors of its members. -/
theorem errors_object : blueprint.errors strict (.object members) =
    ((blueprint.requiredEntries.filter fun name => !members.hasKey name).map
      fun name => "Missing required field: " ++ name) ++
      members.flatMap (blueprint.errorsOfMember strict) := by
  have run : objectIssues strict blueprint.rules members = .ok _ :=
    objectIssues_eq_ok wellFormed shape refusesNull
  rw [objectIssues, missingIssues_eq (lookup_required shape),
    membersIssues_eq fun member _ => memberIssues_eq wellFormed shape member] at run
  rw [errors_eq_text wellFormed shape refusesNull, ← Except.ok.inj run, List.map_append,
    List.map_flatMap, List.map_map]
  simp only [text_issuesOfMember]
  rfl

omit wellFormed in
theorem errors_notObject (other : ∀ members, value ≠ .object members) :
    blueprint.errors strict value = ["Expected type object, got " ++ value.kind.name] := by
  have typed := isText_type_rules.mpr ⟨shape, refusesNull⟩
  have declared : blueprint.rules.valueAt "type" = .text "object" := by
    rw [Members.valueAt, lookup_type, typeEntry, typeName_of_isObject shape, refusesNull]
    rfl
  rw [errors, validate_notObject typed other, declared]
  rfl

end

/-- The errors of a labelled value that has to be an array, given those of a labelled item. -/
def listErrors (label : String) (each : String → Value → List String) (value : Value) :
    List String :=
  match value.asItems? with
  | some items =>
    items.zipIdx.flatMap fun entry => each (label ++ "[" ++ toString entry.2 ++ "]") entry.1
  | none => [label ++ ": Expected array, got " ++ value.kind.name]

/-- Without limits an array reports the errors of its items, each by its position. -/
theorem errorsUnder_array (wellFormed : inner.WellFormed) :
    (Blueprint.array inner none none false).errorsUnder strict label value =
      listErrors label (inner.errorsUnder strict) value := by
  have rules : (Blueprint.array inner none none false).rules = arrayRules inner.rules := rfl
  rw [listErrors, errorsUnder, issues, rules]
  cases isArray : value.asItems? with
  | some items =>
      have each : itemsIssues strict (.object inner.rules) 0 items = .ok _ :=
        itemsIssues_eq 0 fun item _ => fieldIssues_eq_ok wellFormed
      -- The label of an item is the label of the array with the position behind it.
      have placed : ∀ item position,
          ((inner.issues strict item).map (.under (.index position))).map
              (Issue.textUnder label) =
            inner.errorsUnder strict (label ++ "[" ++ toString position ++ "]") item := by
        intro item position
        rw [List.map_map]
        exact List.map_congr_left fun issue _ => Issue.textUnder_under_index label position issue
      rw [fieldIssues_array isArray, each]
      change (List.flatMap _ items.zipIdx).map (Issue.textUnder label) = _
      simp only [List.map_flatMap, placed]
  | none =>
      rw [fieldIssues_notArray isArray]
      exact congrArg (· :: []) (text_wrongKind "array" value.kind rfl)

end Blueprint

end WorkItems.Schema
