import WorkItems.Proofs.Contract
import WorkItems.Proofs.Schema.Registered
import WorkItems.Proofs.Schema.Report

namespace WorkItems

/-! What is reported of a project document.

The schema of projects holds the schemas of items, and checks each item at its place in a list; an
item on its own is checked as a whole.  Both report the same errors, and the place is only put in
front of them.
-/

open Schema

variable {strict : Bool} {subject : Subject} {value : Value}

/-- Where a project has its items of a kind. -/
def ItemType.listName : ItemType → String
  | .feature => "features"
  | .bug => "bugs"
  | .task => "tasks"

namespace Contract

def blueprintOf : Subject → Blueprint
  | .item kind => .registered (.ofItemType kind)
  | .project => .projectData

theorem blueprintOf_portable (subject : Subject) : (blueprintOf subject).Portable := by
  cases subject with
  | item kind => exact Blueprint.registered_portable _
  | project => exact Blueprint.projectData_portable

theorem schemaOf_eq (subject : Subject) :
    schemaOf subject = .object (blueprintOf subject).rules := by
  cases subject with
  | item kind => exact Blueprint.schema_eq_rules (.ofItemType kind)
  | project => exact Blueprint.schema_eq_rules .projectData

theorem check_iff_admits : check (engine strict) subject value = .ok () ↔
    (blueprintOf subject).Admits (.engine strict) value := by
  rw [check_eq_ok_iff, schemaOf_eq,
    Schema.validate_eq_nil_iff (blueprintOf_portable subject).wellFormed]

def errors (strict : Bool) (subject : Subject) (data : Value) : List String :=
  (Schema.validate strict (schemaOf subject) data).toOption.getD []

theorem errors_eq : errors strict subject value = (blueprintOf subject).errors strict value := by
  rw [errors, schemaOf_eq]
  rfl

theorem validate_eq_ok (strict : Bool) (subject : Subject) (data : Value) :
    Schema.validate strict (schemaOf subject) data = .ok (errors strict subject data) := by
  rw [errors_eq, schemaOf_eq]
  exact Blueprint.validate_eq_ok (blueprintOf_portable subject).wellFormed

/-- A check always comes to an end, with the errors that it finds. -/
theorem check_eq : check (engine strict) subject value =
    if (errors strict subject value).isEmpty then .ok ()
    else .error (.invalid subject (errors strict subject value)) := by
  rw [check, engine, validate_eq_ok]
  rfl

end Contract

namespace Project

def metadataErrors (strict : Bool) (metadata : Value) : List String :=
  (Schema.validate strict Schema.projectMetadata metadata).toOption.getD []

/-- What is reported of one member of a project document: of an item in a list, what is reported of
it on its own, behind its place. -/
def errorsOfMember (strict : Bool) (member : String × Value) : List String :=
  match ItemType.all.find? fun kind => kind.listName == member.1 with
  | some kind =>
    Blueprint.listErrors member.1
      (fun place => Blueprint.objectErrors place (Contract.errors strict (.item kind))) member.2
  | none =>
    if member.1 = "metadata" then
      Blueprint.objectErrors member.1 (metadataErrors strict) member.2
    else if strict then ["Unexpected field: " ++ member.1] else []

/-- What is reported of a project document, put together from what is reported of its parts. -/
def errors (strict : Bool) : Value → List String
  | .object members =>
    ((fieldNames.filter fun name => !Members.hasKey members name).map
      fun name => "Missing required field: " ++ name) ++ members.flatMap (errorsOfMember strict)
  | value => ["Expected type object, got " ++ value.kind.name]

theorem propertyAt_listName (kind : ItemType) : Blueprint.projectData.propertyAt kind.listName =
    some (.array (.registered (.ofItemType kind)) none none false) := by
  cases kind <;> rfl

theorem mem_fieldNames_iff {key : String} :
    key ∈ fieldNames ↔ (∃ kind : ItemType, kind.listName = key) ∨ key = "metadata" := by
  constructor
  · intro listed
    simp only [fieldNames, List.mem_cons, List.not_mem_nil, or_false] at listed
    rcases listed with rfl | rfl | rfl | rfl
    · exact .inl ⟨.feature, rfl⟩
    · exact .inl ⟨.bug, rfl⟩
    · exact .inl ⟨.task, rfl⟩
    · exact .inr rfl
  · intro known
    rcases known with ⟨kind, rfl⟩ | rfl
    · cases kind <;> decide
    · decide

theorem propertyAt_other {key : String} (other : key ∉ fieldNames) :
    Blueprint.projectData.propertyAt key = none := by
  refine List.lookup_eq_none_iff.mpr fun property declared => ?_
  rw [bne_iff_ne]
  rintro rfl
  exact other (List.mem_map_of_mem (f := Prod.fst) declared)

/-- An item in a list reports what it reports on its own, behind its place. -/
theorem errorsUnder_item (kind : ItemType) (place : String) :
    (Blueprint.registered (.ofItemType kind)).errorsUnder strict place value =
      Blueprint.objectErrors place (Contract.errors strict (.item kind)) value := by
  have wellFormed := (Blueprint.registered_portable (.ofItemType kind)).wellFormed
  have shape : (Blueprint.registered (.ofItemType kind)).isObject = true := by cases kind <;> rfl
  have refusesNull : (Blueprint.registered (.ofItemType kind)).allowsNull = false := by
    cases kind <;> rfl
  rw [Blueprint.errorsUnder_object wellFormed shape refusesNull]
  have whole : (Blueprint.registered (.ofItemType kind)).errors strict =
      Contract.errors strict (.item kind) := by
    funext item
    have own : Contract.errors strict (.item kind) item = _ := Contract.errors_eq
    exact own.symm
  rw [whole]

theorem errorsOfMember_eq (member : String × Value) :
    Blueprint.projectData.errorsOfMember strict member = errorsOfMember strict member := by
  rw [Blueprint.errorsOfMember, errorsOfMember]
  cases known : ItemType.all.find? fun kind => kind.listName == member.1 with
  | some kind =>
      have wellFormed := (Blueprint.registered_portable (.ofItemType kind)).wellFormed
      have found := List.find?_some known
      have same : kind.listName = member.1 := beq_iff_eq.mp found
      have each : (Blueprint.registered (.ofItemType kind)).errorsUnder strict = fun place =>
          Blueprint.objectErrors place (Contract.errors strict (.item kind)) :=
        funext fun place => funext fun item => errorsUnder_item kind place
      rw [← same, propertyAt_listName]
      simp only [Blueprint.errorsUnder_array wellFormed, each]
  | none =>
      by_cases metadata : member.1 = "metadata"
      · have declared : Blueprint.projectData.propertyAt "metadata" =
            some Blueprint.projectMetadata := rfl
        rw [metadata, declared, if_pos rfl]
        exact Blueprint.errorsUnder_object Blueprint.projectMetadata_portable.wellFormed rfl rfl
      · have other : member.1 ∉ fieldNames := by
          rw [mem_fieldNames_iff]
          rintro (⟨kind, same⟩ | isMetadata)
          · have among : kind ∈ ItemType.all := by cases kind <;> decide
            exact List.find?_eq_none.mp known kind among (beq_iff_eq.mpr same)
          · exact metadata isMetadata
        have closed : Blueprint.projectData.isClosed = true := rfl
        rw [propertyAt_other other, closed, Bool.and_true, if_neg metadata]

theorem errors_eq (strict : Bool) (document : Value) :
    Contract.errors strict .project document = errors strict document := by
  have wellFormed := Blueprint.projectData_portable.wellFormed
  rw [Contract.errors_eq]
  rcases document.object_or_other with ⟨members, rfl⟩ | other
  · change Blueprint.projectData.errors strict (.object members) = _
    have each : Blueprint.projectData.errorsOfMember strict = errorsOfMember strict :=
      funext errorsOfMember_eq
    rw [Blueprint.errors_object wellFormed rfl rfl, each]
    rfl
  · have reported : errors strict document =
        ["Expected type object, got " ++ document.kind.name] := by
      cases document with
      | object members => exact absurd rfl (other members)
      | null | bool | number | text | term | array | tuple | foreign => rfl
    rw [reported]
    exact Blueprint.errors_notObject rfl rfl other

end Project

end WorkItems
