import WorkItems.Proofs.Item.Alike
import WorkItems.Proofs.Item.Kept
import WorkItems.Proofs.Lifecycle.Copy
import WorkItems.Proofs.Lifecycle.Refusal
import WorkItems.Proofs.Schema.Walk

namespace WorkItems

/-! Identifiers of new items.

A new item has the identifier that is given for it, if that counts as something, and else one that
is made.  The documents of new items that are made under different identifiers are the same beside
the identifier, so a usable one has no part in any failure.
-/

open Schema

variable {strict : Bool} {now : Moment} {members given : Members} {item : Item} {field : Field}
  {value tag : Value} {engine : Contract.Engine} {identifier other : String} {kind : ItemType}
  {failure : Failure}

/-- What stands for a field in a document that is read has been admitted and read for it, whatever
other names the document has. -/
theorem Contract.held_of_readItem (inForm : field ∈ Forms.ofItemType item.kind)
    (stands : members.lookup field.name = some value) (present : value ≠ .null)
    (accepted : readItem (Contract.engine strict) (.object members) = .ok item) :
    ∃ held, field.type.blueprint.Admits (.engine strict) value ∧
      field.type.read value = .ok held ∧ item.record.lookup field.name = some held := by
  obtain ⟨checked, read⟩ := readItem_eq_ok_iff.mp accepted
  obtain ⟨_, same, tagged, readsAs⟩ := Item.read_eq_ok_iff.mp read
  cases same
  obtain ⟨-, _, same, reads⟩ := Item.readAs_eq_ok_iff.mp readsAs
  cases same
  have fits := Forms.ofItemType_fits item.kind
  rw [checkItem_of_tagged tagged, check_iff_admits] at checked
  obtain ⟨-, each⟩ := (Blueprint.admits_members_iff fits.isObject).mp checked
  obtain ⟨inner, property, fit⟩ := fits.property field inForm
  have admitted :=
    (Blueprint.admitsMember_iff fits.isObject).mp (each _ (Members.mem_of_lookup stands))
  rw [property] at admitted
  have own := (fit.admits_type admitted).resolve_left fun isNull => present isNull.left
  obtain ⟨held, taken, set⟩ := Field.type_read_of_read (Field.find?_of_lookup stands) present
    (Form.read_of_readMembers (Forms.ofItemType_proper item.kind).distinct reads inForm)
  exact ⟨held, own, taken, set⟩

namespace Lifecycle

/-- Whether an identifier passes every check on identifiers: the rules of all registered schemas
that have one, and the fields of all items. -/
structure Usable (identifier : String) : Prop where
  admitted : ∀ strict, ∀ name ≠ SchemaName.projectData, Schema.validate strict
    (declaredSchema (membersIn name.schema) "id") (.text identifier) = .ok []
  read : ∀ kind, ∃ field ∈ Forms.ofItemType kind, field.name = "id" ∧
    field.type.read (.text identifier) = .ok (.text identifier)

theorem declaredSchema_id : ∀ name ≠ SchemaName.projectData,
    declaredSchema (membersIn name.schema) "id" = .object Forms.identifier.blueprint.rules := by
  intro name notProject
  cases name with
  | projectData => exact absurd rfl notProject
  | baseItem | feature | bug | task => rfl

theorem usable_iff : Usable identifier ↔ Forms.identifier.Accepts identifier := by
  have declared : Blueprint.baseItem.propertyAt "id" = some Forms.identifier.blueprint := rfl
  have wellFormed : Forms.identifier.blueprint.WellFormed :=
    Blueprint.baseItem_portable.wellFormed.propertyAt declared
  constructor
  · intro usable
    obtain ⟨field, inForm, name, read⟩ := usable.read .task
    obtain rfl : field = idField :=
      (Forms.ofItemType_proper .task).eq_of_name inForm (idField_mem .task) name
    cases FieldType.holds_of_read read with
    | text accepts => exact accepts
  · intro accepts
    have alike : Forms.identifier.ReadAlike :=
      Forms.ofItemType_alike .task idField (idField_mem .task) _ rfl
    refine ⟨fun strict name notProject => ?_, fun kind => ?_⟩
    · rw [declaredSchema_id name notProject, validate_eq_nil_iff wellFormed]
      exact TextRule.admits_text_iff.mpr (alike.admits accepts)
    · exact ⟨idField, idField_mem kind, rfl, FieldType.read_toValue (.text accepts)⟩

/-- An item that is read has the identifier of its document. -/
theorem id_of_readItem (stands : members.lookup "id" = some value) (present : value ≠ .null)
    (accepted : Contract.readItem (Contract.engine strict) (.object members) = .ok item) :
    value.asText? = some item.id ∧ Usable item.id := by
  obtain ⟨held, admitted, read, set⟩ :=
    Contract.held_of_readItem (idField_mem item.kind) stands present accepted
  have admits : Forms.identifier.blueprint.Admits (.engine strict) value := admitted
  obtain ⟨text, isText, -⟩ := TextRule.admits_iff.mp admits
  obtain ⟨found, taken, rfl⟩ := atField_eq_ok_iff.mp read
  have accepts := TextRule.accepts_of_read taken
  obtain rfl := TextRule.eq_of_read isText taken
  have same : item.id = found := by
    have lookup : item.record.lookup "id" = some (.text found) := set
    rw [Item.id, Item.textAt, lookup]
  rw [same]
  exact ⟨isText, usable_iff.mpr accepts⟩

/-- A request for a new item. -/
structure Request where
  strict : Bool
  now : Moment
  tag : Value
  given : Members
  distinct : Members.Distinct given

namespace Request

def make (request : Request) (identifier : String) : Except Failure Item :=
  create (Contract.engine request.strict) request.now identifier request.tag (.object request.given)

/-- Whether an identifier is given that counts as something. -/
def isIdentified (request : Request) : Bool :=
  (request.given.valueAt "id").isTruthy

/-- What is put down as the identifier: what is given or else the one that has been made. -/
def identity (request : Request) (identifier : String) : Value :=
  if request.isIdentified then request.given.valueAt "id" else .text identifier

/-- The request without what is given as the identifier. -/
def anonymous (request : Request) : Request :=
  { request with
    given := request.given.without ["id"]
    distinct := Members.without_distinct request.distinct }

end Request

/-- The kind of the item that is asked for, unless the request is refused for its names. -/
def requestedKind (tag : Value) (given : Members) : Except Failure ItemType := do
  let kind ← knownKind tag.plainTerm
  refuseAny (.object given) stampedFields fun name =>
    name ++ " is assigned on creation and cannot be supplied"
  refuseOtherKind (.object given) kind
  pure kind

theorem create_object : create engine now identifier tag (.object given) = (do
    let kind ← requestedKind tag given
    Contract.readItem engine (.object (creation kind given now.text identifier))) := by
  simp only [create, requestedKind, membersOf, bind_assoc, pure_bind, ok_bind]

theorem requestedKind_without : requestedKind tag (given.without ["id"]) =
    requestedKind tag given := by
  have stamps : stampedFields.find? (given.without ["id"]).hasKey =
      stampedFields.find? given.hasKey := by
    simp [stampedFields, List.find?, Members.hasKey, Members.lookup_without]
  have kinds (kind : ItemType) : refuseOtherKind (.object (given.without ["id"])) kind =
      refuseOtherKind (.object given) kind := by
    simp [refuseOtherKind, mentions_eq, Members.hasKey, Members.lookup_without,
      Members.valueAt_without]
  simp only [requestedKind, refuseAny_object, stamps, kinds]

theorem creation_without (kind : ItemType) (given : Members) (now : Moment) (identifier : String) :
    (creation kind given now.text identifier).without ["id"] =
      stamp ((given.dropNulls.without ["id"]).put "type" (.text kind.text)) now := by
  have beside : (identify given identifier).without ["id"] = given.dropNulls.without ["id"] := by
    rw [identify]
    split
    · rfl
    · exact Members.without_put_of_mem List.mem_cons_self
  rw [creation_eq, stamp, Members.without_put (by decide), Members.without_put (by decide),
    Members.without_put (by decide), beside, stamp]

theorem creation_distinct (distinct : Members.Distinct given) :
    Members.Distinct (creation kind given now.text identifier) := by
  have identified : Members.Distinct (identify given identifier) := by
    rw [identify]
    split
    · exact Members.dropNulls_distinct distinct
    · exact Members.put_distinct (Members.dropNulls_distinct distinct)
  exact Members.put_distinct (Members.put_distinct (Members.put_distinct identified))

theorem lookup_creation_id (distinct : Members.Distinct given) :
    (creation kind given now.text identifier).lookup "id" = some
      (if (given.valueAt "id").isTruthy then given.valueAt "id" else .text identifier) := by
  have other (name : String) (differs : "id" ≠ name) (members : Members) (text : String) :
      (members.put name (.text text)).lookup "id" = members.lookup "id" := by
    rw [Members.lookup_put, if_neg differs]
  rw [creation_eq, stamp, other _ (by decide), other _ (by decide), other _ (by decide), identify,
    Members.valueAt_dropNulls distinct]
  cases counts : (given.valueAt "id").isTruthy with
  | false =>
      rw [if_neg Bool.false_ne_true, if_neg Bool.false_ne_true, Members.lookup_put, if_pos rfl]
  | true =>
      rw [if_pos rfl, if_pos rfl, ← Members.valueAt_dropNulls distinct, Members.valueAt]
      rw [← Members.valueAt_dropNulls distinct, Members.valueAt] at counts
      cases found : given.dropNulls.lookup "id" with
      | some value => rfl
      | none =>
          rw [found] at counts
          cases counts

/-- Under different identifiers the documents of a new item are the same beside them. -/
theorem creation_sameBeside {givenToo : Members} (distinct : Members.Distinct given)
    (distinctToo : Members.Distinct givenToo)
    (same : given.without ["id"] = givenToo.without ["id"])
    (vacant : (given.valueAt "id").isTruthy = false)
    (vacantToo : (givenToo.valueAt "id").isTruthy = false)
    (usable : Usable identifier) (usableToo : Usable other) :
    idField.SameBeside (creation kind given now.text identifier)
      (creation kind givenToo now.text other) (.text identifier) (.text other) where
  sets := ⟨creation_distinct distinct, .text (usable_iff.mp usable), by
    exact (lookup_creation_id distinct).trans (by rw [vacant]; rfl)⟩
  setsToo := ⟨creation_distinct distinctToo, .text (usable_iff.mp usableToo), by
    exact (lookup_creation_id distinctToo).trans (by rw [vacantToo]; rfl)⟩
  same := by
    have beside : given.dropNulls.without ["id"] = givenToo.dropNulls.without ["id"] := by
      rw [← Members.dropNulls_without, same, Members.dropNulls_without]
    change (creation kind given now.text identifier).without ["id"] =
      (creation kind givenToo now.text other).without ["id"]
    rw [creation_without, creation_without, beside]

namespace Request

variable {request : Request}

theorem make_eq : request.make identifier = (do
    let kind ← requestedKind request.tag request.given
    Contract.readItem (Contract.engine request.strict)
      (.object (creation kind request.given request.now.text identifier))) :=
  create_object

theorem identity_of_vacant (vacant : request.isIdentified = false) (identifier : String) :
    request.identity identifier = .text identifier := by
  rw [identity, vacant, if_neg Bool.false_ne_true]

theorem identity_of_identified (identified : request.isIdentified = true) (identifier : String) :
    request.identity identifier = request.given.valueAt "id" := by
  rw [identity, identified, if_pos rfl]

theorem identity_ne_null (request : Request) (identifier : String) :
    request.identity identifier ≠ .null := by
  cases identified : request.isIdentified with
  | false =>
      rw [identity_of_vacant identified]
      exact nofun
  | true =>
      rw [identity_of_identified identified]
      intro isNull
      rw [isIdentified, isNull] at identified
      cases identified

/-- A new item has the identifier that is put down for it. -/
theorem id_of_make (made : request.make identifier = .ok item) :
    (request.identity identifier).asText? = some item.id ∧ Usable item.id := by
  rw [make_eq] at made
  obtain ⟨kind, -, accepted⟩ := bind_eq_ok_iff.mp made
  exact id_of_readItem (lookup_creation_id request.distinct)
    (request.identity_ne_null identifier) accepted

/-- Where an identifier is given that counts, the one that has been made is not looked at. -/
theorem make_of_identified (identified : request.isIdentified = true)
    (identifier other : String) : request.make identifier = request.make other := by
  have same (kind : ItemType) : creation kind request.given request.now.text identifier =
      creation kind request.given request.now.text other := by
    have counts := identified
    rw [isIdentified, ← Members.valueAt_dropNulls request.distinct] at counts
    rw [creation_eq, creation_eq, identify, identify, if_pos counts, if_pos counts]
  simp only [make_eq, same]

/-- Where none is given that counts, it is as if none were given at all. -/
theorem make_anonymous (vacant : request.isIdentified = false) (usable : Usable identifier) :
    request.make identifier = request.anonymous.make identifier := by
  have vacantToo : (request.anonymous.given.valueAt "id").isTruthy = false := by
    have left : request.anonymous.given.valueAt "id" = .null :=
      (Members.valueAt_without _ _ _).trans (if_pos List.mem_cons_self)
    rw [left]
    rfl
  have same (kind : ItemType) :
      Contract.readItem (Contract.engine request.strict)
        (.object (creation kind request.given request.now.text identifier)) =
      Contract.readItem (Contract.engine request.strict)
        (.object (creation kind request.anonymous.given request.now.text identifier)) :=
    Contract.readItem_of_sameBeside (create_tagged request.given request.now.text identifier)
      (by decide) (idField_mem kind)
      (creation_sameBeside request.distinct request.anonymous.distinct
        Members.without_without.symm vacant vacantToo usable usable)
  rw [make_eq, make_eq]
  change _ = (do
    let kind ← requestedKind request.tag (request.given.without ["id"])
    _)
  rw [requestedKind_without]
  simp only [same]
  rfl

/-- A usable identifier has no part in a failure. -/
theorem make_error (usable : Usable identifier) (usableToo : Usable other)
    (refused : request.make identifier = .error failure) : request.make other = .error failure := by
  cases identified : request.isIdentified with
  | true => exact (make_of_identified identified other identifier).trans refused
  | false =>
      rw [make_eq] at refused ⊢
      cases asked : requestedKind request.tag request.given with
      | error found =>
          rw [asked] at refused
          exact refused
      | ok kind =>
          rw [asked, ok_bind] at refused
          exact Contract.readItem_error_of_sameBeside
            (create_tagged request.given request.now.text identifier) (by decide)
            (idField_mem kind) (creation_sameBeside request.distinct request.distinct rfl
              identified identified usable usableToo) refused

/-- What can be made under some identifier can be made under every usable one. -/
theorem exists_make (usable : Usable other) (made : request.make identifier = .ok item) :
    ∃ item, request.make other = .ok item := by
  cases identified : request.isIdentified with
  | true => exact ⟨item, (make_of_identified identified other identifier).trans made⟩
  | false =>
      obtain ⟨isText, usableToo⟩ := id_of_make made
      rw [identity_of_vacant identified] at isText
      have same : identifier = item.id := Option.some.inj isText
      cases outcome : request.make other with
      | ok item => exact ⟨item, rfl⟩
      | error failure =>
          have refused := make_error usable (same ▸ usableToo) outcome
          rw [made] at refused
          cases refused

end Request

/-- The text of a number of 128 bits is a usable identifier; it is read as the number, and texts
compare as their numbers do.  What can be made at all can be made under it, what fails under it
fails in the same way under every usable identifier, and a new item for which no identifier is given
has just this one, so that items made under the texts of different numbers differ in it. -/
theorem generated_identifiers {number : Nat} (fits : number < 2 ^ 128) :
    Usable (Ulid.text number) ∧ Ulid.number? (Ulid.text number) = some number ∧
    (∀ another < 2 ^ 128, (Ulid.text number = Ulid.text another ↔ number = another) ∧
      (Ulid.text number < Ulid.text another ↔ number < another)) ∧
    ∀ request : Request,
      (∀ identifier item, request.make identifier = .ok item →
        ∃ item, request.make (Ulid.text number) = .ok item) ∧
      (∀ failure, request.make (Ulid.text number) = .error failure →
        ∀ identifier, Usable identifier → request.make identifier = .error failure) ∧
      ∀ item, request.isIdentified = false → request.make (Ulid.text number) = .ok item →
        item.id = Ulid.text number ∧
        ∀ another < 2 ^ 128, another ≠ number → ∀ (later : Request) (other : Item),
          later.isIdentified = false → later.make (Ulid.text another) = .ok other →
            other.id ≠ item.id := by
  have usable := usable_iff.mpr (Ulid.text_accepted number)
  have own {request : Request} {item : Item} {text : String} (vacant : request.isIdentified = false)
      (made : request.make text = .ok item) : item.id = text := by
    obtain ⟨isText, -⟩ := Request.id_of_make made
    rw [Request.identity_of_vacant vacant] at isText
    exact (Option.some.inj isText).symm
  refine ⟨usable, Ulid.number?_text fits, fun another fitsToo =>
    ⟨Ulid.text_inj fits fitsToo, Ulid.text_lt_iff fits fitsToo⟩, fun request =>
    ⟨fun identifier item => Request.exists_make usable, fun failure refused identifier usableToo =>
      Request.make_error usable usableToo refused, fun item vacant made =>
    ⟨own vacant made, fun another fitsToo differs later other vacantToo madeToo => ?_⟩⟩⟩
  rw [own vacant made, own vacantToo madeToo]
  exact fun same => differs ((Ulid.text_inj fitsToo fits).mp same)

def taskRequest : Request where
  strict := true
  now := noon
  tag := .text "task"
  given := membersIn newTask
  distinct := by decide

/-- Under the text of the greatest number. -/
theorem taskRequest_generated : 2 ^ 128 - 1 < 2 ^ 128 ∧ ∃ item,
    taskRequest.make "7ZZZZZZZZZZZZZZZZZZZZZZZZZ" = .ok item ∧
      item.id = "7ZZZZZZZZZZZZZZZZZZZZZZZZZ" ∧
      Ulid.number? "7ZZZZZZZZZZZZZZZZZZZZZZZZZ" = some (2 ^ 128 - 1) := by
  have greatest : Ulid.text (2 ^ 128 - 1) = "7ZZZZZZZZZZZZZZZZZZZZZZZZZ" := by decide +kernel
  have fits : 2 ^ 128 - 1 < 2 ^ 128 := by decide
  obtain ⟨-, back, -, made⟩ := generated_identifiers fits
  obtain ⟨item, first⟩ := exists_ok_of_toOption
    (show (taskRequest.make "t-1").toOption.isSome = true by decide +kernel)
  obtain ⟨always, -, identified⟩ := made taskRequest
  obtain ⟨item, success⟩ := always "t-1" item first
  obtain ⟨same, -⟩ := identified item rfl success
  rw [greatest] at back same success
  exact ⟨fits, item, success, same, back⟩

/-- An identifier that is given is kept, or the request is refused for it, as long as it counts as
something.  A null, an empty text, a zero and everything else that does not count is taken as if no
identifier were given. -/
theorem given_identifier (request : Request) :
    (request.isIdentified = true → ∀ identifier,
      (∀ other, request.make identifier = request.make other) ∧
      ∀ item, request.make identifier = .ok item →
        (request.given.valueAt "id").asText? = some item.id) ∧
    (request.isIdentified = false → ∀ identifier, Usable identifier →
      request.make identifier = request.anonymous.make identifier ∧
      ∀ item, request.make identifier = .ok item → item.id = identifier) := by
  refine ⟨fun identified identifier => ⟨fun other => ?_, fun item made => ?_⟩,
    fun vacant identifier usable => ⟨?_, fun item made => ?_⟩⟩
  · exact Request.make_of_identified identified identifier other
  · obtain ⟨isText, -⟩ := Request.id_of_make made
    rwa [Request.identity_of_identified identified] at isText
  · exact Request.make_anonymous vacant usable
  · obtain ⟨isText, -⟩ := Request.id_of_make made
    rw [Request.identity_of_vacant vacant] at isText
    exact (Option.some.inj isText).symm

/-- The request with an identifier of its own. -/
def Request.under (request : Request) (value : Value) : Request :=
  { request with
    given := request.given.put "id" value
    distinct := Members.put_distinct request.distinct }

theorem taskRequest_identified : ∃ item,
    (taskRequest.under (.text "t-1")).make (Ulid.text 33) = .ok item ∧ item.id = "t-1" := by
  obtain ⟨item, made⟩ := exists_ok_of_toOption
    (show ((taskRequest.under (.text "t-1")).make (Ulid.text 33)).toOption.isSome = true by
      decide +kernel)
  obtain ⟨kept, -⟩ := given_identifier (taskRequest.under (.text "t-1"))
  obtain ⟨-, same⟩ := kept rfl (Ulid.text 33)
  exact ⟨item, made, (Option.some.inj (same item made)).symm⟩

/-- An empty text that is given as the identifier is replaced without a word. -/
theorem empty_identifier_replaced : ∃ (request : Request) (supplied : Value) (item : Item),
    request.given.lookup "id" = some supplied ∧ supplied.isNull = false ∧
      request.make (Ulid.text 33) = .ok item ∧ supplied.asText? ≠ some item.id := by
  have replaced : ((taskRequest.under (.text "")).make (Ulid.text 33)).toOption.map Item.id =
      some (Ulid.text 33) := by
    decide +kernel
  obtain ⟨item, made, same⟩ := Option.map_eq_some_iff.mp replaced
  refine ⟨taskRequest.under (.text ""), .text "", item, rfl, rfl, eq_ok_of_toOption made, ?_⟩
  rw [same]
  decide +kernel

end Lifecycle

end WorkItems
