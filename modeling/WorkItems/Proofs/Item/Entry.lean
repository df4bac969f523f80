import Mathlib.Data.List.Nodup
import WorkItems.Proofs.Item.Admitted
import WorkItems.Proofs.Item.Written

namespace WorkItems

/-! Documents that are checked and read field by field.

A schema and the form that fits it accept a document without nulls and with declared keys when they
accept what stands there for each field; no field looks at another one.
-/

open Schema

variable {strict : Bool} {value : Value} {held : FieldValue} {outcome : Option FieldValue}

def Presence.default? : Presence → Option FieldValue
  | .withDefault held => some held
  | _ => none

/-- Nothing but the tag and the tags has a value of its own. -/
theorem Forms.default?_eq (kind : ItemType) : ∀ field ∈ ofItemType kind, field.name ≠ "type" →
    field.presence.default? = if field.name = "tags" then some (.texts []) else none := by
  cases kind <;>
    simp [ofItemType, feature, bug, task, shared, plainField, Presence.default?]

def FieldValue.orNull (outcome : Option FieldValue) : Value :=
  outcome.elim .null FieldValue.toValue

/-- What a field may be given and what it then holds, where null is for nothing given. -/
inductive Field.Takes (strict : Bool) (blueprint : Blueprint) (field : Field) :
    Value → Option FieldValue → Prop where
  | unset (free : field.name ∉ blueprint.requiredNames) :
    Takes strict blueprint field .null field.presence.default?
  | set {value : Value} {held : FieldValue}
    (admitted : field.type.blueprint.Admits (.engine strict) value)
    (read : field.type.read value = .ok held) : Takes strict blueprint field value (some held)

theorem Form.valueAt_toMembers (record : Record) (name : String) :
    record.toMembers.valueAt name = FieldValue.orNull (record.lookup name) := by
  rw [Members.valueAt, lookup_toMembers]
  cases record.lookup name <;> rfl

namespace Field

variable {field : Field} {blueprint inner : Blueprint}

theorem Fits.admits_of_type (fits : field.Fits inner)
    (admits : field.type.blueprint.Admits (.engine strict) value) :
    inner.Admits (.engine strict) value := by
  cases fits with
  | plain => exact admits
  | nullable optional => exact .inl admits
  | constant only =>
      rw [only] at admits
      obtain ⟨option, among, isText⟩ := admits
      obtain rfl := List.mem_singleton.mp among
      exact Value.same_text.mpr isText

theorem Takes.of_holds (alike : ∀ rule ∈ field.type.textRule?, rule.ReadAlike)
    (holds : field.type.Holds held) : field.Takes strict blueprint held.toValue (some held) :=
  .set (FieldType.admits_toValue alike holds) (FieldType.read_toValue holds)

theorem Takes.of_null (takes : field.Takes strict blueprint .null outcome) :
    field.name ∉ blueprint.requiredNames ∧ outcome = field.presence.default? := by
  cases takes with
  | unset free => exact ⟨free, rfl⟩
  | set admitted => exact absurd admitted field.type.not_admits_null

theorem Takes.of_value (takes : field.Takes strict blueprint value outcome)
    (present : value ≠ .null) : ∃ held, field.type.blueprint.Admits (.engine strict) value ∧
      field.type.read value = .ok held ∧ outcome = some held := by
  cases takes with
  | unset => exact absurd rfl present
  | set admitted read => exact ⟨_, admitted, read, rfl⟩

theorem Takes.unique {other : Option FieldValue}
    (takes : field.Takes strict blueprint value outcome)
    (again : field.Takes strict blueprint value other) : outcome = other := by
  cases takes with
  | unset => exact again.of_null.right.symm
  | set admitted read =>
      have present : value ≠ .null := fun isNull => field.type.not_admits_null (isNull ▸ admitted)
      obtain ⟨held, -, readToo, rfl⟩ := again.of_value present
      exact congrArg some (Except.ok.inj (read.symm.trans readToo))

end Field

namespace Form

variable {form : Form} {blueprint : Blueprint} {field : Field} {members : Members}
  {found : Field → Option FieldValue} {record : Record}

/-- Whether members are given for fields of a form, and each once. -/
structure Declares (form : Form) (members : Members) : Prop where
  distinct : Members.Distinct members
  declared : ∀ key ∈ members.keys, key ∈ form.map Field.name

instance (form : Form) (members : Members) : Decidable (form.Declares members) :=
  decidable_of_iff (Members.Distinct members ∧ ∀ key ∈ members.keys, key ∈ form.map Field.name)
    ⟨fun both => ⟨both.left, both.right⟩, fun declares => ⟨declares.distinct, declares.declared⟩⟩

structure Covers (form : Form) (members : Members) : Prop extends form.Declares members where
  noNull : ∀ member ∈ members, member.2 ≠ .null

theorem Declares.without (declares : form.Declares members) (names : List String) :
    form.Declares (members.without names) where
  distinct := Members.without_distinct declares.distinct
  declared key listed := by
    obtain ⟨member, entry, rfl⟩ := List.mem_map.mp listed
    exact declares.declared _ (List.mem_map_of_mem (List.mem_filter.mp entry).left)

theorem Declares.merge {changes : Members} (declares : form.Declares members)
    (others : form.Declares changes) : form.Declares (members.merge changes) where
  distinct := Members.merge_distinct declares.distinct
  declared key listed :=
    (Members.mem_keys_merge.mp listed).elim (declares.declared key) (others.declared key)

theorem Declares.dropNulls (declares : form.Declares members) : form.Covers members.dropNulls where
  distinct := Members.dropNulls_distinct declares.distinct
  declared key listed := by
    obtain ⟨member, entry, rfl⟩ := List.mem_map.mp listed
    exact declares.declared _ (List.mem_map_of_mem (List.mem_filter.mp entry).left)
  noNull member entry isNull := by
    have present := (List.mem_filter.mp entry).right
    rw [isNull] at present
    cases present

theorem Covers.put {name : String} (covers : form.Covers members)
    (declared : name ∈ form.map Field.name) (present : value ≠ .null) :
    form.Covers (members.put name value) where
  distinct := Members.put_distinct covers.distinct
  declared key listed := by
    rcases Members.mem_keys_put.mp listed with rfl | kept
    · exact declared
    · exact covers.declared key kept
  noNull member entry := by
    have given := Members.lookup_of_mem (Members.put_distinct covers.distinct) entry
    rw [Members.lookup_put] at given
    by_cases same : member.1 = name
    · rw [if_pos same, Option.some.injEq] at given
      exact given ▸ present
    · rw [if_neg same] at given
      exact covers.noNull _ (Members.mem_of_lookup given)

theorem Covers.exists_field (covers : form.Covers members) {member : String × Value}
    (entry : member ∈ members) : ∃ field ∈ form, field.name = member.1 ∧
      members.lookup field.name = some member.2 := by
  obtain ⟨field, inForm, same⟩ := List.mem_map.mp (covers.declared _ (List.mem_map_of_mem entry))
  exact ⟨field, inForm, same, same ▸ Members.lookup_of_mem covers.distinct entry⟩

theorem Declares.find?_of_absent (declares : form.Declares members) (proper : form.Proper)
    (inForm : field ∈ form) (absent : members.lookup field.name = none) :
    field.find? members = none := by
  refine Field.find?_eq_none absent ?_
  -- The second name of a field is its own or no name of the form.
  rcases proper.secondNames field inForm with same | foreign
  · rw [same, absent]
  · exact Members.lookup_eq_none_iff.mpr fun among => foreign (declares.declared _ among)

theorem Proper.eq_of_name {other : Field} (proper : form.Proper) (inForm : field ∈ form)
    (otherToo : other ∈ form) (same : field.name = other.name) : field = other :=
  List.inj_on_of_nodup_map proper.distinct inForm otherToo same

namespace Fits

variable (fits : form.Fits blueprint) (proper : form.Proper)

include fits proper

theorem not_required_of_optional (inForm : field ∈ form) (optional : field.presence = .optional) :
    field.name ∉ blueprint.requiredNames := by
  intro required
  obtain ⟨other, otherToo, same, set⟩ := fits.required field.name required
  rw [proper.eq_of_name otherToo inForm same, optional] at set
  cases set

theorem takes_own (alike : form.ReadAlike) (filled : form.Filled found) (inForm : field ∈ form) :
    field.Takes strict blueprint (FieldValue.orNull (found field)) (found field) := by
  obtain ⟨holds, unset⟩ := filled field inForm
  cases given : found field with
  | some held => exact .of_holds (alike field inForm) (holds held given)
  | none =>
      have optional := unset given
      have taken : field.Takes strict blueprint .null field.presence.default? :=
        .unset (fits.not_required_of_optional proper inForm optional)
      rw [optional] at taken
      exact taken

/-- A field takes what stands for it in a document that is admitted and read, also a null. -/
theorem takes_of_read (declares : form.Declares members)
    (admits : blueprint.Admits (.engine strict) (.object members)) (inForm : field ∈ form)
    (read : field.read members = .ok outcome) :
    field.Takes strict blueprint (members.valueAt field.name) outcome := by
  obtain ⟨required, each⟩ := (Blueprint.admits_members_iff fits.isObject).mp admits
  rw [Members.valueAt]
  cases given : members.lookup field.name with
  | none =>
      have free : field.name ∉ blueprint.requiredNames := by
        intro needed
        have present := required _ needed
        rw [Members.hasKey, given] at present
        cases present
      have default : outcome = field.presence.default? := by
        rw [Field.read, declares.find?_of_absent proper inForm given] at read
        cases presence : field.presence with
        | required =>
            rw [presence] at read
            cases read
        | optional | withDefault =>
            rw [presence] at read
            exact (Except.ok.inj read).symm
      exact default ▸ .unset free
  | some value =>
      obtain ⟨inner, property, fit⟩ := fits.property field inForm
      have admitted :=
        (Blueprint.admitsMember_iff fits.isObject).mp (each _ (Members.mem_of_lookup given))
      rw [property] at admitted
      have found := Field.find?_of_lookup given
      rcases fit.admits_type admitted with ⟨rfl, optional⟩ | admitted
      · rw [Field.read_null found optional] at read
        have taken : field.Takes strict blueprint .null field.presence.default? :=
          .unset (fits.not_required_of_optional proper inForm optional)
        rw [optional] at taken
        exact Except.ok.inj read ▸ taken
      · have present : value ≠ .null := fun isNull =>
          field.type.not_admits_null (isNull ▸ admitted)
        obtain ⟨held, reads, rfl⟩ := Field.type_read_of_read found present read
        exact .set admitted reads

variable (covers : form.Covers members)

include covers

theorem read_of_takes (inForm : field ∈ form)
    (takes : field.Takes strict blueprint (members.valueAt field.name) outcome) :
    field.read members = .ok outcome := by
  rw [Members.valueAt] at takes
  cases given : members.lookup field.name with
  | some value =>
      rw [given] at takes
      have present := covers.noNull _ (Members.mem_of_lookup given)
      obtain ⟨held, -, read, rfl⟩ := takes.of_value present
      exact Field.read_of_find (Field.find?_of_lookup given) present read
  | none =>
      rw [given] at takes
      obtain ⟨free, rfl⟩ := takes.of_null
      have absent := covers.toDeclares.find?_of_absent proper inForm given
      cases presence : field.presence with
      | required => exact absurd (fits.present field inForm (by rw [presence]; rfl)) free
      | optional => exact Field.read_absent absent presence
      | withDefault held => exact Field.read_default absent presence

omit proper in
theorem admits_of_takes (takes : ∀ field ∈ form,
      field.Takes strict blueprint (members.valueAt field.name) (found field)) :
    blueprint.Admits (.engine strict) (.object members) := by
  rw [Blueprint.admits_object_iff fits.isObject]
  refine .inr ⟨members, rfl, fun name required => ?_, fun member entry => ?_⟩
  · obtain ⟨field, inForm, rfl, -⟩ := fits.required name required
    have taken := takes field inForm
    rw [Members.valueAt] at taken
    cases given : members.lookup field.name with
    | some value =>
        rw [Members.hasKey, given]
        rfl
    | none =>
        rw [given] at taken
        exact absurd required taken.of_null.left
  · obtain ⟨field, inForm, same, given⟩ := covers.exists_field entry
    obtain ⟨inner, property, fit⟩ := fits.property field inForm
    have taken := takes field inForm
    rw [Members.valueAt, given] at taken
    obtain ⟨held, admitted, -⟩ := taken.of_value (covers.noNull member entry)
    exact Blueprint.admitsMember_of_property fits.isObject (same ▸ property)
      (fit.admits_of_type admitted)

/-- A document is accepted when every field takes what stands there for it. -/
theorem accepted_iff :
    (blueprint.Admits (.engine strict) (.object members) ∧
        form.readMembers members = .ok record) ↔
      ∃ found, record = form.recordOf found ∧ ∀ field ∈ form,
        field.Takes strict blueprint (members.valueAt field.name) (found field) := by
  constructor
  · intro accepted
    rcases accepted with ⟨admits, reads⟩
    obtain ⟨found, -, same⟩ := filled_of_readMembers proper reads
    refine ⟨found, same, fun field inForm => ?_⟩
    have read := read_of_readMembers proper.distinct reads inForm
    rw [same, lookup_recordOf found proper.distinct inForm] at read
    exact fits.takes_of_read proper covers.toDeclares admits inForm read
  · intro taken
    rcases taken with ⟨found, rfl, takes⟩
    refine ⟨fits.admits_of_takes covers takes, readMembers_of_reads
      (fun field inForm => fits.read_of_takes proper covers inForm (takes field inForm))
      fun member entry => ?_⟩
    obtain ⟨field, inForm, same, given⟩ := covers.exists_field entry
    exact ⟨field, inForm, same ▸ Field.claims_of_lookup given⟩

end Fits

end Form

end WorkItems
