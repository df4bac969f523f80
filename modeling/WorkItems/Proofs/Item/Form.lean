import Mathlib.Data.List.Nodup
import WorkItems.Proofs.Item.FieldType
import WorkItems.Proofs.Members

namespace WorkItems

/-! Records of forms.

What has been read is a record of its form: fields hold what their types allow, and only optional
ones are not set.  The document form of such a record is read as the same record again.
-/

namespace Field

variable {field : Field} {members : Members} {name : String} {value : Value} {held : FieldValue}
  {outcome : Option FieldValue}

theorem find?_of_lookup (given : members.lookup field.name = some value) :
    field.find? members = some (field.name, value) := by
  rw [find?, given]

theorem find?_eq_none (absent : members.lookup field.name = none)
    (absentToo : members.lookup field.secondName = none) : field.find? members = none := by
  rw [find?, absent, absentToo]
  rfl

theorem find?_put_other {key : String} (differs : field.name ≠ key)
    (differsToo : field.secondName ≠ key) :
    field.find? (members.put key value) = field.find? members := by
  rw [find?, find?, Members.lookup_put, if_neg differs, Members.lookup_put, if_neg differsToo]

theorem claims_of_lookup (given : members.lookup field.name = some value) :
    field.claims members field.name = true := by
  rw [claims, find?_of_lookup given]
  exact beq_self_eq_true field.name

theorem eq_of_claims {key : String} (claims : field.claims members key = true) :
    key = field.name ∨ key = field.secondName := by
  rw [Field.claims, find?] at claims
  cases given : members.lookup field.name with
  | some value =>
      rw [given] at claims
      exact .inl (beq_iff_eq.mp claims).symm
  | none =>
      rw [given] at claims
      cases givenToo : members.lookup field.secondName with
      | some value =>
          rw [givenToo] at claims
          exact .inr (beq_iff_eq.mp claims).symm
      | none =>
          rw [givenToo] at claims
          cases claims

theorem read_of_find (given : field.find? members = some (name, value)) (present : value ≠ .null)
    (accepted : field.type.read value = .ok held) : field.read members = .ok (some held) := by
  rw [read, given]
  cases value with
  | null => exact absurd rfl present
  | bool | number | text | term | array | tuple | object | foreign =>
      cases field.presence <;> simp only [accepted]

/-- What has been read from a value that is not null is what the type makes of it. -/
theorem type_read_of_read (given : field.find? members = some (name, value))
    (present : value ≠ .null) (accepted : field.read members = .ok outcome) :
    ∃ held, field.type.read value = .ok held ∧ outcome = some held := by
  cases read : field.type.read value with
  | ok held =>
      rw [read_of_find given present read] at accepted
      exact ⟨held, rfl, (Except.ok.inj accepted).symm⟩
  | error issues =>
      rw [Field.read, given] at accepted
      cases value with
      | null => exact absurd rfl present
      | bool | number | text | term | array | tuple | object | foreign =>
          cases field.presence <;> simp [read] at accepted

theorem read_null (given : field.find? members = some (name, .null))
    (optional : field.presence = .optional) : field.read members = .ok none := by
  rw [read, given, optional]

theorem read_absent (absent : field.find? members = none)
    (optional : field.presence = .optional) : field.read members = .ok none := by
  rw [read, absent, optional]

theorem read_default (absent : field.find? members = none)
    (default : field.presence = .withDefault held) : field.read members = .ok (some held) := by
  rw [read, absent, default]

/-- What has been read for a field is right for its type, and only an optional field may be left
without a value. -/
theorem holds_of_read
    (default : ∀ held, field.presence = .withDefault held → field.type.Holds held)
    (accepted : field.read members = .ok outcome) :
    (∀ held ∈ outcome, field.type.Holds held) ∧
      (outcome = none → field.presence = .optional) := by
  rw [read] at accepted
  split at accepted
  · cases accepted
  · rename_i optional
    cases accepted
    exact ⟨by simp, fun _ => optional⟩
  · rename_i value given
    cases accepted
    refine ⟨fun held same => ?_, fun impossible => by cases impossible⟩
    cases same
    exact default _ given
  · rename_i optional
    cases accepted
    exact ⟨by simp, fun _ => optional⟩
  · split at accepted
    · rename_i held read
      cases accepted
      refine ⟨fun other same => ?_, fun impossible => by cases impossible⟩
      cases same
      exact FieldType.holds_of_read read
    · cases accepted

theorem issues_of_read {issues : List FieldIssue} (refused : field.read members = .error issues) :
    issues ≠ [] := by
  rw [read] at refused
  split at refused
  · cases refused
    exact List.cons_ne_nil _ _
  · cases refused
  · cases refused
  · cases refused
  · split at refused
    · cases refused
    · rename_i found read
      cases refused
      exact fun none => FieldType.issues_of_read read (List.map_eq_nil_iff.mp none)

end Field

/-- What a field holds is never null in a document. -/
theorem FieldValue.toValue_ne_null (held : FieldValue) : held.toValue ≠ .null := by
  cases held <;> exact fun impossible => nomatch impossible

namespace Form

variable {form : Form} {members : Members} {found : Field → Option FieldValue} {field : Field}
  {name : String} {held : FieldValue}

/-- The record of what the fields of a form hold; a field that holds nothing is left out. -/
def recordOf (form : Form) (found : Field → Option FieldValue) : Record :=
  form.filterMap fun field => (found field).map fun held => (field.name, held)

/-- Whether all fields hold what their types allow, and only optional ones hold nothing. -/
def Filled (form : Form) (found : Field → Option FieldValue) : Prop :=
  ∀ field ∈ form, (∀ held ∈ found field, field.type.Holds held) ∧
    (found field = none → field.presence = .optional)

/-- Fields have names of their own, no second name is the name of a field unless it is that
field, and every default is right for its field. -/
structure Proper (form : Form) : Prop where
  distinct : (form.map Field.name).Nodup
  secondNames : ∀ field ∈ form,
    field.secondName = field.name ∨ field.secondName ∉ form.map Field.name
  defaults : ∀ field ∈ form, ∀ held, field.presence = .withDefault held → field.type.Holds held

/-- No other field goes by the name of a field. -/
theorem Proper.names_ne {other : Field} (proper : form.Proper) (declared : field ∈ form)
    (among : other ∈ form) (differs : other ≠ field) :
    other.name ≠ field.name ∧ other.secondName ≠ field.name := by
  have name : other.name ≠ field.name :=
    fun same => differs (List.inj_on_of_nodup_map proper.distinct among declared same)
  refine ⟨name, ?_⟩
  rcases proper.secondNames other among with same | foreign
  · exact same ▸ name
  · exact fun same => foreign (same ▸ List.mem_map_of_mem declared)

theorem recordOf_cons_some (given : found field = some held) :
    recordOf (field :: form) found = (field.name, held) :: form.recordOf found := by
  rw [recordOf, List.filterMap_cons, given]
  rfl

theorem recordOf_cons_none (absent : found field = none) :
    recordOf (field :: form) found = form.recordOf found := by
  rw [recordOf, List.filterMap_cons, absent]
  rfl

theorem mem_recordOf : (name, held) ∈ form.recordOf found ↔
    ∃ field ∈ form, found field = some held ∧ field.name = name := by
  simp [recordOf]

theorem lookup_recordOf_none (undeclared : name ∉ form.map Field.name) :
    (form.recordOf found).lookup name = none := by
  rw [List.lookup_eq_none_iff]
  intro entry member
  obtain ⟨field, declared, -, same⟩ := mem_recordOf.mp member
  rw [bne_iff_ne]
  intro equal
  exact undeclared (by rw [equal, ← same]; exact List.mem_map_of_mem declared)

/-- A record has for every field what the field holds. -/
theorem lookup_recordOf (found : Field → Option FieldValue)
    (distinct : (form.map Field.name).Nodup) (declared : field ∈ form) :
    (form.recordOf found).lookup field.name = found field := by
  induction form with
  | nil => cases declared
  | cons first form ih =>
      obtain ⟨fresh, rest⟩ := List.nodup_cons.mp distinct
      rcases List.mem_cons.mp declared with rfl | later
      · cases given : found field with
        | some held => rw [recordOf_cons_some given, Members.lookup_cons, if_pos rfl]
        | none => rw [recordOf_cons_none given, lookup_recordOf_none fresh]
      · have different : field.name ≠ first.name := fun same =>
          fresh (same ▸ List.mem_map_of_mem later)
        cases given : found first with
        | some held =>
            rw [recordOf_cons_some given, Members.lookup_cons, if_neg different, ih rest later]
        | none => rw [recordOf_cons_none given, ih rest later]

theorem lookup_toMembers (record : Record) (name : String) :
    record.toMembers.lookup name = (record.lookup name).map FieldValue.toValue :=
  Members.lookup_map_value record FieldValue.toValue name

theorem readFields_of_reads (reads : ∀ field ∈ form, field.read members = .ok (found field)) :
    readFields members form = (form.recordOf found, []) := by
  induction form with
  | nil => rfl
  | cons field form ih =>
      have first := reads field List.mem_cons_self
      have rest := ih fun other member => reads other (List.mem_cons_of_mem _ member)
      rw [readFields, rest, first]
      cases given : found field with
      | some held => rw [recordOf_cons_some given]
      | none => rw [recordOf_cons_none given]

theorem reads_of_readFields (accepted : (readFields members form).2 = []) :
    ∀ field ∈ form, ∃ outcome, field.read members = .ok outcome := by
  induction form with
  | nil => simp
  | cons first form ih =>
      rw [readFields] at accepted
      cases read : first.read members with
      | error issues =>
          rw [read] at accepted
          exact absurd (List.append_eq_nil_iff.mp accepted).left (Field.issues_of_read read)
      | ok outcome =>
          have rest : (readFields members form).2 = [] := by
            rw [read] at accepted
            cases outcome <;> exact accepted
          exact List.forall_mem_cons.mpr ⟨⟨outcome, read⟩, ih rest⟩

theorem exists_found (reads : ∀ field ∈ form, ∃ outcome, field.read members = .ok outcome) :
    ∃ found : Field → Option FieldValue,
      ∀ field ∈ form, field.read members = .ok (found field) := by
  refine ⟨fun field => (field.read members).toOption.join, fun field declared => ?_⟩
  obtain ⟨outcome, read⟩ := reads field declared
  simp only [read]
  rfl

theorem undeclared_eq_nil_iff : form.undeclared members = [] ↔
    ∀ member ∈ members, ∃ field ∈ form, field.claims members member.1 = true := by
  simp [undeclared]

theorem readMembers_eq_ok_iff {record : Record} : form.readMembers members = .ok record ↔
    (readFields members form).1 = record ∧ (readFields members form).2 = [] ∧
      form.undeclared members = [] := by
  rw [readMembers, accept_eq_ok_iff, List.append_eq_nil_iff, and_comm]

theorem issues_of_readMembers {issues : List FieldIssue}
    (refused : form.readMembers members = .error issues) : issues ≠ [] := by
  rw [readMembers, accept_eq_error_iff] at refused
  exact refused.right ▸ refused.left

theorem readMembers_of_reads (reads : ∀ field ∈ form, field.read members = .ok (found field))
    (claimed : ∀ member ∈ members, ∃ field ∈ form, field.claims members member.1 = true) :
    form.readMembers members = .ok (form.recordOf found) := by
  rw [readMembers_eq_ok_iff, readFields_of_reads reads]
  exact ⟨rfl, rfl, undeclared_eq_nil_iff.mpr claimed⟩

/-- What has been read for a field stands under its name. -/
theorem read_of_readMembers {record : Record} (distinct : (form.map Field.name).Nodup)
    (accepted : form.readMembers members = .ok record) (declared : field ∈ form) :
    field.read members = .ok (record.lookup field.name) := by
  obtain ⟨rfl, noIssue, -⟩ := readMembers_eq_ok_iff.mp accepted
  obtain ⟨found, reads⟩ := exists_found (reads_of_readFields noIssue)
  rw [readFields_of_reads reads, lookup_recordOf found distinct declared]
  exact reads field declared

/-- What has been read is the record of a form that is filled. -/
theorem filled_of_readMembers {record : Record} (proper : form.Proper)
    (accepted : form.readMembers members = .ok record) :
    ∃ found, form.Filled found ∧ record = form.recordOf found := by
  obtain ⟨rfl, noIssue, -⟩ := readMembers_eq_ok_iff.mp accepted
  obtain ⟨found, reads⟩ := exists_found (reads_of_readFields noIssue)
  refine ⟨found, fun field declared => ?_, congrArg Prod.fst (readFields_of_reads reads)⟩
  exact Field.holds_of_read (proper.defaults field declared) (reads field declared)

/-- In the document form of a record every field is found under its name or not at all. -/
theorem read_toMembers (proper : form.Proper) (filled : form.Filled found)
    (declared : field ∈ form) :
    field.read (form.recordOf found).toMembers = .ok (found field) := by
  have kept := lookup_recordOf found proper.distinct declared
  have written := lookup_toMembers (form.recordOf found) field.name
  rw [kept] at written
  cases given : found field with
  | some held =>
      rw [given] at written
      exact Field.read_of_find (Field.find?_of_lookup written) held.toValue_ne_null
        (FieldType.read_toValue ((filled field declared).left held given))
  | none =>
      rw [given] at written
      refine Field.read_absent (Field.find?_eq_none written ?_)
        ((filled field declared).right given)
      rcases proper.secondNames field declared with same | foreign
      · rw [same, written]
        rfl
      · rw [lookup_toMembers, lookup_recordOf_none foreign]
        rfl

/-- The document form of a record is read as the record. -/
theorem readMembers_toMembers (proper : form.Proper) (filled : form.Filled found) :
    form.readMembers (form.recordOf found).toMembers = .ok (form.recordOf found) := by
  refine readMembers_of_reads (fun field declared => read_toMembers proper filled declared) ?_
  intro member entry
  obtain ⟨⟨name, held⟩, among, rfl⟩ := List.mem_map.mp entry
  obtain ⟨field, declared, given, rfl⟩ := mem_recordOf.mp among
  have written := lookup_toMembers (form.recordOf found) field.name
  rw [lookup_recordOf found proper.distinct declared, given] at written
  exact ⟨field, declared, Field.claims_of_lookup written⟩

/-- What has been read can be read again with another value for a field that goes by one name, as
long as the type of the field takes the value. -/
theorem readMembers_put_iff {record : Record} {value : Value} (proper : form.Proper)
    (declared : field ∈ form) (oneName : field.secondName = field.name) (present : value ≠ .null)
    (accepted : form.readMembers members = .ok record) :
    (∃ record, form.readMembers (members.put field.name value) = .ok record) ↔
      ∃ held, field.type.read value = .ok held := by
  have stands : (members.put field.name value).lookup field.name = some value := by
    rw [Members.lookup_put, if_pos rfl]
  have given := Field.find?_of_lookup stands
  have others : ∀ other ∈ form, other ≠ field →
      other.find? (members.put field.name value) = other.find? members := by
    intro other among differs
    obtain ⟨name, secondName⟩ := proper.names_ne declared among differs
    exact Field.find?_put_other name secondName
  obtain ⟨-, noIssue, claimed⟩ := readMembers_eq_ok_iff.mp accepted
  constructor
  · rintro ⟨record, replaced⟩
    have read := read_of_readMembers proper.distinct replaced declared
    obtain ⟨held, taken, -⟩ := Field.type_read_of_read given present read
    exact ⟨held, taken⟩
  · rintro ⟨held, taken⟩
    have reads : ∀ other ∈ form, ∃ outcome,
        other.read (members.put field.name value) = .ok outcome := by
      intro other among
      by_cases same : other = field
      · subst same
        exact ⟨held, Field.read_of_find given present taken⟩
      · obtain ⟨outcome, read⟩ := reads_of_readFields noIssue other among
        rw [Field.read] at read
        exact ⟨outcome, by rw [Field.read, others other among same, read]⟩
    obtain ⟨found, reads⟩ := exists_found reads
    refine ⟨_, readMembers_of_reads reads fun member entry => ?_⟩
    rcases Members.mem_of_mem_put entry with rfl | kept
    · exact ⟨field, declared, Field.claims_of_lookup stands⟩
    · obtain ⟨other, among, claims⟩ := undeclared_eq_nil_iff.mp claimed member kept
      by_cases same : other = field
      · subst same
        have name : member.1 = other.name := (Field.eq_of_claims claims).elim id (·.trans oneName)
        exact ⟨other, declared, name ▸ Field.claims_of_lookup stands⟩
      · exact ⟨other, among, by rw [Field.claims, others other among same, ← Field.claims, claims]⟩

end Form

end WorkItems
