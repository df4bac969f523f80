import WorkItems.Proofs.Item.Fit
import WorkItems.Proofs.Project.Report

namespace WorkItems

/-! Documents that differ in one field.

When a field has something that it may hold in two documents, and beside it they have the same in
the same order, nothing is said of the field in either, so whatever else is wrong is told alike.
-/

open Schema

variable {strict : Bool} {members others : Members} {names : List String} {blueprint : Blueprint}
  {form : Form} {field another : Field} {held other : FieldValue} {reasons : List FieldIssue}
  {kind : ItemType} {failure : Failure}

/-- Whether a field has in a document what it would write itself. -/
structure Field.Sets (field : Field) (members : Members) (held : FieldValue) : Prop where
  distinct : Members.Distinct members
  holds : field.type.Holds held
  found : members.lookup field.name = some held.toValue

/-- Whether a field is set in two documents that are the same beside it. -/
structure Field.SameBeside (field : Field) (members others : Members) (held other : FieldValue) :
    Prop where
  sets : field.Sets members held
  setsToo : field.Sets others other
  same : members.without [field.name] = others.without [field.name]

namespace Field

theorem Sets.eq_of_mem (sets : field.Sets members held) {member : String × Value}
    (among : member ∈ members) (own : member.1 ∈ [field.name]) :
    member = (field.name, held.toValue) := by
  have key := List.mem_singleton.mp own
  have found := Members.lookup_of_mem sets.distinct among
  rw [key, sets.found, Option.some.injEq] at found
  exact Prod.ext key found.symm

theorem SameBeside.lookup_other (beside : field.SameBeside members others held other)
    {name : String} (differs : name ≠ field.name) : members.lookup name = others.lookup name :=
  Members.lookup_of_without beside.same (mt List.mem_singleton.mp differs)

end Field

namespace Schema.Blueprint

/-- Members of which nothing is said may be exchanged. -/
theorem errors_of_without (wellFormed : blueprint.WellFormed) (shape : blueprint.isObject = true)
    (refusesNull : blueprint.allowsNull = false)
    (same : members.without names = others.without names)
    (present : ∀ name ∈ names, members.hasKey name = others.hasKey name)
    (idle : ∀ member ∈ members, member.1 ∈ names → blueprint.errorsOfMember strict member = [])
    (idleToo : ∀ member ∈ others, member.1 ∈ names →
      blueprint.errorsOfMember strict member = []) :
    blueprint.errors strict (.object members) = blueprint.errors strict (.object others) := by
  have keys (name : String) : members.hasKey name = others.hasKey name := by
    by_cases left : name ∈ names
    · exact present name left
    · rw [Members.hasKey, Members.lookup_of_without same left, Members.hasKey]
  rw [errors_object wellFormed shape refusesNull, errors_object wellFormed shape refusesNull,
    ← Members.flatMap_without idle, ← Members.flatMap_without idleToo, same]
  simp only [keys]

end Schema.Blueprint

namespace Form.Fits

variable (fits : form.Fits blueprint) (wellFormed : blueprint.WellFormed) (inForm : field ∈ form)

include fits wellFormed inForm

theorem errorsOfMember_eq_nil (alike : form.ReadAlike) (holds : field.type.Holds held) :
    blueprint.errorsOfMember strict (field.name, held.toValue) = [] := by
  obtain ⟨inner, property, fit⟩ := fits.property field inForm
  have admits : inner.Admits (.engine strict) held.toValue :=
    (fit.admits_toValue_iff holds).mpr
      (FieldType.admitsTexts_of_alike holds (alike field inForm))
  have nothing := (Blueprint.issues_eq_nil_iff (wellFormed.propertyAt property)).mpr admits
  rw [Blueprint.errorsOfMember]
  simp only [property, Blueprint.errorsUnder, nothing, List.map_nil]

theorem errors_of_sameBeside (alike : form.ReadAlike)
    (beside : field.SameBeside members others held other) :
    blueprint.errors strict (.object members) = blueprint.errors strict (.object others) := by
  refine Blueprint.errors_of_without wellFormed fits.isObject fits.refusesNull beside.same
    (fun name own => ?_) (fun member among own => ?_) fun member among own => ?_
  · rw [List.mem_singleton.mp own, Members.hasKey, beside.sets.found, Members.hasKey,
      beside.setsToo.found, Option.isSome_some, Option.isSome_some]
  · rw [beside.sets.eq_of_mem among own]
    exact fits.errorsOfMember_eq_nil wellFormed inForm alike beside.sets.holds
  · rw [beside.setsToo.eq_of_mem among own]
    exact fits.errorsOfMember_eq_nil wellFormed inForm alike beside.setsToo.holds

end Form.Fits

/-- What is found wrong with a single field. -/
def Field.issues (field : Field) (members : Members) : List FieldIssue :=
  match field.read members with
  | .ok _ => []
  | .error found => found

namespace Form

theorem readFields_issues : (readFields members form).2 = form.flatMap (·.issues members) := by
  induction form with
  | nil => rfl
  | cons first form ih =>
      rw [readFields, List.flatMap_cons, ← ih, Field.issues]
      cases first.read members with
      | error found => rfl
      | ok outcome => cases outcome <;> rfl

theorem readFields_congr (same : ∀ field ∈ form, field.find? members = field.find? others) :
    readFields members form = readFields others form := by
  induction form with
  | nil => rfl
  | cons first form ih =>
      obtain ⟨own, rest⟩ := List.forall_mem_cons.mp same
      rw [readFields, readFields, ih rest, Field.read, own, ← Field.read]

section

variable (proper : form.Proper) (inForm : field ∈ form)
  (beside : field.SameBeside members others held other)

include proper inForm beside

theorem find?_of_sameBeside (anotherToo : another ∈ form) (differs : another ≠ field) :
    another.find? members = another.find? others := by
  obtain ⟨name, secondName⟩ := proper.names_ne inForm anotherToo differs
  rw [Field.find?, Field.find?, beside.lookup_other name, beside.lookup_other secondName]

theorem claims_of_sameBeside (anotherToo : another ∈ form) (key : String) :
    another.claims members key = another.claims others key := by
  rw [Field.claims, Field.claims]
  by_cases same : another = field
  · rw [same, Field.find?_of_lookup beside.sets.found, Field.find?_of_lookup beside.setsToo.found]
  · rw [find?_of_sameBeside proper inForm beside anotherToo same]

theorem issues_of_sameBeside (anotherToo : another ∈ form) :
    another.issues members = another.issues others := by
  rw [Field.issues, Field.issues]
  by_cases same : another = field
  · have read := Field.read_of_find (Field.find?_of_lookup beside.sets.found)
      held.toValue_ne_null (FieldType.read_toValue beside.sets.holds)
    have readToo := Field.read_of_find (Field.find?_of_lookup beside.setsToo.found)
      other.toValue_ne_null (FieldType.read_toValue beside.setsToo.holds)
    rw [same, read, readToo]
  · rw [Field.read, find?_of_sameBeside proper inForm beside anotherToo same, ← Field.read]

theorem undeclared_of_sameBeside : form.undeclared members = form.undeclared others := by
  have claimed {entries : Members} {value : FieldValue} (sets : field.Sets entries value) :
      ∀ member ∈ entries, member.1 ∈ [field.name] →
        (!form.any fun field => field.claims entries member.1) = false := by
    intro member _ own
    rw [List.mem_singleton.mp own, Bool.not_eq_false', List.any_eq_true]
    exact ⟨field, inForm, Field.claims_of_lookup sets.found⟩
  rw [undeclared, undeclared, ← Members.filter_without (claimed beside.sets),
    ← Members.filter_without (claimed beside.setsToo), beside.same]
  refine congrArg _ (List.filter_congr fun member _ => congrArg _ ?_)
  rw [Bool.eq_iff_iff, List.any_eq_true, List.any_eq_true]
  refine exists_congr fun another => and_congr_right fun anotherToo => ?_
  rw [claims_of_sameBeside proper inForm beside anotherToo]

theorem readMembers_error_of_sameBeside (refused : form.readMembers members = .error reasons) :
    form.readMembers others = .error reasons := by
  rw [readMembers, accept_eq_error_iff, readFields_issues] at refused ⊢
  rw [← undeclared_of_sameBeside proper inForm beside, ← List.flatMap_congr
    fun another anotherToo => issues_of_sameBeside proper inForm beside anotherToo]
  exact refused

end

theorem readMembers_of_sameBeside (proper : form.Proper) (inForm : field ∈ form)
    (beside : field.SameBeside members others held held) :
    form.readMembers members = form.readMembers others := by
  have found : ∀ another ∈ form, another.find? members = another.find? others := by
    intro another anotherToo
    by_cases same : another = field
    · rw [same, Field.find?_of_lookup beside.sets.found, Field.find?_of_lookup beside.setsToo.found]
    · exact find?_of_sameBeside proper inForm beside anotherToo same
  rw [readMembers, readMembers, readFields_congr found,
    undeclared_of_sameBeside proper inForm beside]

end Form

theorem Item.read_of_tagged (tagged : Tagged members kind) : read (.object members) =
    match (Forms.ofItemType kind).readMembers members with
    | .ok record => .ok ⟨kind, record⟩
    | .error issues => .error (issues.map (.under (.key kind.text))) := by
  obtain ⟨tag, found, isText⟩ := tagged_iff_lookup.mp tagged
  have reads : readAs kind (.object members) =
      ((Forms.ofItemType kind).readMembers members >>= fun record => pure ⟨kind, record⟩) := rfl
  simp only [read, found, ItemType.ofTag_eq_some_iff.mpr isText, reads]
  cases (Forms.ofItemType kind).readMembers members <;> rfl

namespace Contract

theorem readItem_of_tagged {engine : Engine} (tagged : Item.Tagged members kind) :
    readItem engine (.object members) = (do
      check engine (.item kind) (.object members)
      match (Forms.ofItemType kind).readMembers members with
      | .ok record => pure ⟨kind, record⟩
      | .error issues => throw (.unreadableItem
          (issues.map fun issue => (issue.under (.key kind.text)).text))) := by
  rw [readItem, checkItem_of_tagged tagged, Item.read_of_tagged tagged]
  cases (Forms.ofItemType kind).readMembers members with
  | ok record => rfl
  | error issues =>
      simp only [List.map_map]
      rfl

variable (tagged : Item.Tagged members kind) (notTag : field.name ≠ "type")
  (inForm : field ∈ Forms.ofItemType kind)

include tagged notTag

theorem tagged_of_sameBeside (beside : field.SameBeside members others held other) :
    Item.Tagged others kind := by
  rw [Item.Tagged, Members.valueAt, ← beside.lookup_other notTag.symm, ← Members.valueAt]
  exact tagged

include inForm

omit tagged notTag in
theorem check_of_sameBeside (beside : field.SameBeside members others held other) :
    check (engine strict) (.item kind) (.object members) =
      check (engine strict) (.item kind) (.object others) := by
  have same : errors strict (.item kind) (.object members) =
      errors strict (.item kind) (.object others) := by
    rw [errors_eq, errors_eq]
    exact (Forms.ofItemType_fits kind).errors_of_sameBeside
      (Blueprint.registered_portable _).wellFormed inForm (Forms.ofItemType_alike kind) beside
  rw [check_eq, check_eq, same]

/-- What is refused for one of two such documents is refused for the other. -/
theorem readItem_error_of_sameBeside (beside : field.SameBeside members others held other)
    (refused : readItem (engine strict) (.object members) = .error failure) :
    readItem (engine strict) (.object others) = .error failure := by
  rw [readItem_of_tagged (tagged_of_sameBeside tagged notTag beside),
    ← check_of_sameBeside inForm beside]
  rw [readItem_of_tagged tagged] at refused
  cases checked : check (engine strict) (.item kind) (.object members) with
  | error found =>
      rw [checked] at refused
      exact refused
  | ok _ =>
      rw [checked, ok_bind] at refused
      rw [ok_bind]
      cases reads : (Forms.ofItemType kind).readMembers members with
      | ok record =>
          rw [reads] at refused
          cases refused
      | error issues =>
          rw [reads] at refused
          rw [Form.readMembers_error_of_sameBeside (Forms.ofItemType_proper kind) inForm beside
            reads]
          exact refused

theorem readItem_of_sameBeside (beside : field.SameBeside members others held held) :
    readItem (engine strict) (.object members) = readItem (engine strict) (.object others) := by
  rw [readItem_of_tagged tagged, readItem_of_tagged (tagged_of_sameBeside tagged notTag beside),
    check_of_sameBeside inForm beside,
    Form.readMembers_of_sameBeside (Forms.ofItemType_proper kind) inForm beside]

end Contract

end WorkItems
