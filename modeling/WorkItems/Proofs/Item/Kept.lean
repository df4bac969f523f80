import WorkItems.Proofs.Item.Entry
import WorkItems.Proofs.Item.Readable
import WorkItems.Proofs.Number.Exact
import WorkItems.Proofs.Project.Report
import WorkItems.Proofs.Value.Equality

namespace WorkItems

/-! What becomes of the data of a document that is read.

A field other than a moment is written the way it was given, as far as JSON can tell: what a schema
admits is read without any change but for its spelling.  A field that is null or absent is not
written at all, except that tags are an empty list then.
-/

open Schema

variable {strict : Bool} {rule : TextRule} {type : FieldType} {value : Value} {held : FieldValue}
  {items : List Value} {members : Members} {item : Item} {name : String}

theorem Lenient.agrees_of_readWhole {number : Number} {whole : Int}
    (read : readWhole (.number number) = .ok whole) : (Number.int whole).agrees number = true := by
  cases number with
  | int given =>
      obtain rfl : given = whole := Except.ok.inj read
      exact Number.agrees_refl _
  | double given =>
      rw [readWhole] at read
      cases finite : given.isFinite with
      | false =>
          rw [finite] at read
          cases read
      | true =>
          rw [finite] at read
          cases converted : given.toInt? with
          | none =>
              rw [converted] at read
              cases read
          | some found =>
              rw [converted] at read
              obtain rfl : found = whole := Except.ok.inj read
              exact (Number.agrees_placed rfl).mpr (Double.place?_of_toInt converted)

theorem Lenient.agrees_of_readDouble {number : Number} {double : Double}
    (read : readDouble (.number number) = .ok double)
    (isExact : ∀ whole, number = .int whole → Double.Exact whole) :
    (Number.double double).agrees number = true := by
  cases number with
  | double given =>
      obtain rfl : given = double := Except.ok.inj read
      exact Number.agrees_refl _
  | int whole =>
      rw [readDouble] at read
      cases finite : (Double.ofInt whole).isFinite with
      | false =>
          rw [finite] at read
          cases read
      | true =>
          rw [finite] at read
          obtain rfl : Double.ofInt whole = double := Except.ok.inj read
          have placed := (isExact whole rfl).place?_ofInt
          exact Number.agrees_symm ((Number.agrees_placed rfl).mpr placed)

theorem TextRule.eq_of_read {text found : String} (isText : value.asText? = some text)
    (read : rule.read value = .ok found) : found = text := by
  obtain ⟨given, isGiven, checked⟩ := bind_eq_ok_iff.mp read
  rw [Lenient.readText, textOf?_of_asText? isText] at isGiven
  obtain rfl := Except.ok.inj isGiven
  exact (check_eq_ok_iff.mp checked).right.symm

theorem eachSame_of_read {found : List String}
    (each : ∀ item ∈ items, rule.blueprint.Admits (.engine strict) item)
    (read : items.map rule.read = found.map .ok) :
    Value.EachSame (found.map .text) items := by
  induction items generalizing found with
  | nil =>
      obtain rfl := List.map_eq_nil_iff.mp read.symm
      exact .nil
  | cons item items ih =>
      obtain ⟨first, rest⟩ := List.forall_mem_cons.mp each
      cases found with
      | nil => cases read
      | cons text found =>
          obtain ⟨head, tail⟩ := List.cons.inj read
          obtain ⟨given, isText, -⟩ := TextRule.admits_iff.mp first
          obtain rfl := TextRule.eq_of_read isText head
          exact .cons ((Value.same_of_text rfl).mpr isText) (ih rest tail)

/-- What is read of an admitted value other than a moment is the same value. -/
theorem FieldType.same_of_read (admits : type.blueprint.Admits (.engine strict) value)
    (read : type.read value = .ok held) (notMoment : type ≠ .moment)
    (isExact : type = .hours → ∀ whole, value = .int whole → Double.Exact whole) :
    held.toValue.same value = true := by
  cases type with
  | text rule =>
      obtain ⟨text, isText, -⟩ := TextRule.admits_iff.mp admits
      obtain ⟨found, accepted, rfl⟩ := atField_eq_ok_iff.mp read
      obtain rfl := TextRule.eq_of_read isText accepted
      exact (Value.same_of_text rfl).mpr isText
  | choice options =>
      obtain ⟨option, -, isText⟩ := admits
      obtain ⟨found, accepted, rfl⟩ := atField_eq_ok_iff.mp read
      obtain ⟨isFound, -⟩ := readChoice_eq_ok_iff.mp accepted
      rw [textOf?_of_asText? isText] at isFound
      exact (Value.same_of_text rfl).mpr (isText.trans isFound)
  | texts rule least distinct =>
      obtain ⟨items, isArray, -, each, -⟩ := admits
      rw [FieldType.read] at read
      cases outcome : readTexts rule least distinct value with
      | error issues =>
          rw [outcome] at read
          cases read
      | ok found =>
          rw [outcome] at read
          obtain rfl := Except.ok.inj read
          obtain ⟨given, isGiven, accepted, -⟩ := readTexts_eq_ok_iff.mp outcome
          rw [listOf?_of_asItems? isArray, Option.some.injEq] at isGiven
          subst isGiven
          exact (Value.same_of_items rfl).mpr
            ⟨items, isArray, eachSame_of_read each (readEach_eq_iff.mp accepted)⟩
  | flag =>
      obtain ⟨flag, rfl⟩ := admits
      obtain rfl : .flag flag = held := Except.ok.inj read
      exact beq_self_eq_true flag
  | points =>
      obtain ⟨number, rfl, -⟩ := admits
      obtain ⟨points, accepted, rfl⟩ := atField_eq_ok_iff.mp read
      obtain ⟨whole, isWhole, inRange⟩ := bind_eq_ok_iff.mp accepted
      obtain rfl : whole = points := Except.ok.inj (refuse_eq_ok_iff.mp inRange).right
      exact Lenient.agrees_of_readWhole isWhole
  | hours =>
      obtain ⟨number, rfl, -⟩ := admits
      obtain ⟨hours, accepted, rfl⟩ := atField_eq_ok_iff.mp read
      obtain ⟨double, isDouble, inRange⟩ := bind_eq_ok_iff.mp accepted
      obtain rfl : double = hours := Except.ok.inj (refuse_eq_ok_iff.mp inRange).right
      exact Lenient.agrees_of_readDouble isDouble fun whole same =>
        isExact rfl whole (congrArg Value.number same)
  | moment => exact absurd rfl notMoment

section

variable (declares : (Forms.ofItemType item.kind).Declares members)
  (accepted : Contract.readItem (Contract.engine strict) (.object members) = .ok item)
include declares accepted

theorem Contract.takes_of_readItem : ∀ field ∈ Forms.ofItemType item.kind,
    field.Takes strict (.registered (.ofItemType item.kind)) (members.valueAt field.name)
      (item.record.lookup field.name) := by
  intro field inForm
  obtain ⟨checked, read⟩ := readItem_eq_ok_iff.mp accepted
  obtain ⟨others, same, tagged, readsAs⟩ := Item.read_eq_ok_iff.mp read
  cases same
  rw [checkItem_of_tagged tagged, check_iff_admits] at checked
  obtain ⟨-, others, same, reads⟩ := Item.readAs_eq_ok_iff.mp readsAs
  cases same
  have proper := Forms.ofItemType_proper item.kind
  exact (Forms.ofItemType_fits item.kind).takes_of_read proper declares checked inForm
    (Form.read_of_readMembers proper.distinct reads inForm)

theorem lookup_of_given (present : members.valueAt name ≠ .null) :
    ∃ field ∈ Forms.ofItemType item.kind, field.name = name ∧ ∃ held,
      field.type.blueprint.Admits (.engine strict) (members.valueAt name) ∧
      field.type.read (members.valueAt name) = .ok held ∧ item.record.lookup name = some held := by
  have listed : name ∈ (Forms.ofItemType item.kind).map Field.name := by
    by_contra undeclared
    have absent := Members.lookup_eq_none_iff.mpr (undeclared ∘ declares.declared name)
    rw [Members.valueAt, absent] at present
    exact present rfl
  obtain ⟨field, inForm, rfl⟩ := List.mem_map.mp listed
  have takes := Contract.takes_of_readItem declares accepted field inForm
  exact ⟨field, inForm, rfl, takes.of_value present⟩

theorem lookup_of_null (isNull : members.valueAt name = .null) :
    item.record.lookup name = if name = "tags" then some (.texts []) else none := by
  by_cases listed : name ∈ (Forms.ofItemType item.kind).map Field.name
  · obtain ⟨field, inForm, rfl⟩ := List.mem_map.mp listed
    have takes := Contract.takes_of_readItem declares accepted field inForm
    rw [isNull] at takes
    have untagged : field.name ≠ "type" := by
      intro same
      obtain ⟨-, read⟩ := Contract.readItem_eq_ok_iff.mp accepted
      obtain ⟨others, sameMembers, tagged, -⟩ := Item.read_eq_ok_iff.mp read
      cases sameMembers
      rw [Item.Tagged, ← same, isNull] at tagged
      cases tagged
    rw [takes.of_null.right, Forms.default?_eq item.kind field inForm untagged]
  · have hasTags : "tags" ∈ (Forms.ofItemType item.kind).map Field.name := by
      cases item.kind <;> decide
    have filled := Item.filled_of_read (Contract.readItem_eq_ok_iff.mp accepted).right
    have other : name ≠ "tags" := fun same => listed (same ▸ hasTags)
    rw [filled.lookup_undeclared listed, if_neg other]

/-- An item that is read from declared members is written with the same data, moments apart: it has
what they have and is not null, each value the same, and besides at most an empty list of tags. -/
theorem reading_kept (isExact : ∀ name ∈ ["estimatedHours", "actualHours"], ∀ hours : Int,
      members.lookup name = some (.int hours) → Double.Exact hours) :
    (∀ name, item.toMembers.hasKey name = true ↔ members.valueAt name ≠ .null ∨ name = "tags") ∧
      (∀ name, name ∉ ["createdAt", "updatedAt", "dueDate"] → members.valueAt name ≠ .null →
        (item.toMembers.valueAt name).same (members.valueAt name) = true) ∧
      (members.valueAt "tags" = .null → item.toMembers.lookup "tags" = some (.array [])) := by
  refine ⟨fun name => ?_, fun name notMoment present => ?_, fun isNull => ?_⟩
  · rw [Members.hasKey, Item.lookup_toMembers, Option.isSome_map]
    by_cases isNull : members.valueAt name = .null
    · rw [lookup_of_null declares accepted isNull]
      by_cases tags : name = "tags" <;> simp [tags, isNull]
    · obtain ⟨-, -, -, held, -, -, found⟩ := lookup_of_given declares accepted isNull
      simp [found, isNull]
  · obtain ⟨field, inForm, rfl, held, admits, read, found⟩ :=
      lookup_of_given declares accepted present
    rw [Members.valueAt, Item.lookup_toMembers, found]
    refine FieldType.same_of_read admits read (fun isMoment => ?_) fun isHours hours given => ?_
    · exact notMoment (Forms.momentNames item.kind field inForm isMoment)
    · refine isExact _ (Forms.hoursNames item.kind field inForm isHours) hours ?_
      rw [Members.valueAt] at given
      cases stands : members.lookup field.name with
      | none =>
          rw [stands] at given
          cases given
      | some value =>
          rw [stands] at given
          exact congrArg some given
  · rw [Item.lookup_toMembers, lookup_of_null declares accepted isNull]
    rfl

end

/-- A task with a whole number of hours, and with nulls in two places. -/
def shortTask : Members :=
  Members.put longTask "estimatedHours" (.int 3)

theorem shortTask_kept : ∃ item,
    (Forms.ofItemType item.kind).Declares shortTask ∧
      Contract.readItem (Contract.engine false) (.object shortTask) = .ok item ∧
      Double.Exact 3 ∧ item.toMembers.hasKey "assignee" = false ∧
      (item.toMembers.valueAt "estimatedHours").same (.int 3) = true ∧
      item.toMembers.lookup "tags" = some (.array []) := by
  have ofKind : (Contract.readItem (Contract.engine false) (.object shortTask)).toOption.map
      Item.kind = some .task := by
    decide +kernel
  obtain ⟨item, read, kind⟩ := Option.map_eq_some_iff.mp ofKind
  have accepted := eq_ok_of_toOption read
  have declares : (Forms.ofItemType item.kind).Declares shortTask := by
    rw [kind]
    decide
  have three : Double.Exact 3 := .of_toInt (show (Double.ofInt 3).toInt? = some 3 by decide +kernel)
  obtain ⟨keys, values, tags⟩ := reading_kept declares accepted (by
    intro name listed hours given
    rcases List.mem_pair.mp listed with rfl | rfl
    · obtain rfl : 3 = hours := Number.int.inj (Value.number.inj (Option.some.inj given))
      exact three
    · cases given)
  have unassigned : item.toMembers.hasKey "assignee" = false := by
    refine Bool.eq_false_iff.mpr fun has => ?_
    rcases (keys "assignee").mp has with present | same
    · exact present rfl
    · exact absurd same (by decide)
  exact ⟨item, declares, accepted, three, unassigned,
    values "estimatedHours" (by decide) nofun, tags rfl⟩

end WorkItems
