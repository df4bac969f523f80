import WorkItems.Proofs.Lifecycle.Update
import WorkItems.Proofs.Project.Parts

namespace WorkItems

/-! One tag, one kind.

The schemas of the kinds, the dispatch on the tag, the tests for a kind and the reading of an item
all go by the tag alone, so they say the same of every value.
-/

variable {strict : Bool} {kind : ItemType} {data : Value} {members : Members} {item : Item}

theorem ItemType.text_injective {other : ItemType} (same : other.text = kind.text) :
    other = kind := by
  have known := ofText?_text other
  rw [same, ofText?_text] at known
  exact (Option.some.inj known).symm

/-- No term of another vocabulary has the text of a kind. -/
theorem Term.eq_itemType_of_text {term : Term} (named : term.text = kind.text) :
    term = .itemType kind := by
  have others : ∀ other ∈ Term.all, ∀ kind ∈ ItemType.all, other.text = kind.text →
      other = .itemType kind := by
    decide
  have listed : term ∈ Term.all := by
    cases term with
    | itemType term | priority term | severity term | featureStatus term | bugStatus term
      | taskStatus term => cases term <;> decide
  exact others term listed kind (by cases kind <;> decide) named

namespace ItemTag

/-- Whether a value is tagged with a kind and the test for this kind alone holds of it. -/
structure Tells (kind : ItemType) (value : Value) : Prop where
  tag : ofValue value = .text kind.text
  tests : ∀ other, isKind other value = true ↔ other = kind

theorem tells_of_tagged (tagged : Item.Tagged members kind) : Tells kind (.object members) := by
  have tag : ofValue (.object members) = .text kind.text := by
    rw [Item.Tagged] at tagged
    rw [ofValue]
    cases given : members.valueAt "type" with
    | text written =>
        rw [given] at tagged
        rw [Option.some.inj tagged]
    | term term =>
        rw [given] at tagged
        rw [Term.eq_itemType_of_text (Option.some.inj tagged)]
    | null | bool | number | array | tuple | object | foreign =>
        rw [given] at tagged
        cases tagged
  refine ⟨tag, fun other => ?_⟩
  rw [isKind, tag, Value.isText_iff, Value.asText?, Option.some.injEq]
  exact ⟨fun same => (ItemType.text_injective same).symm, fun same => same ▸ rfl⟩

end ItemTag

namespace Contract

theorem tagged_of_check (checked : check (engine strict) (.item kind) data = .ok ()) :
    ∃ members, data = .object members ∧ Item.Tagged members kind :=
  Item.tagged_of_admits (check_iff_admits.mp checked)

theorem check_unique {other : ItemType}
    (checked : check (engine strict) (.item kind) data = .ok ())
    (again : check (engine strict) (.item other) data = .ok ()) : kind = other := by
  obtain ⟨members, rfl, tagged⟩ := tagged_of_check checked
  obtain ⟨_, same, taggedToo⟩ := tagged_of_check again
  cases same
  exact tagged.unique taggedToo

theorem checkItem_iff_check : checkItem (engine strict) data = .ok () ↔
    ∃ kind, check (engine strict) (.item kind) data = .ok () := by
  constructor
  · intro accepted
    obtain ⟨members, kind, rfl, tagged⟩ := tagged_of_checkItem accepted
    exact ⟨kind, (checkItem_of_tagged tagged).symm.trans accepted⟩
  · intro accepted
    rcases accepted with ⟨kind, checked⟩
    obtain ⟨members, rfl, tagged⟩ := tagged_of_check checked
    exact (checkItem_of_tagged tagged).trans checked

/-- What a refused item is told: that items of its kind are checked, and what is wrong with it. -/
theorem finding_of_checkItem {failure : Failure} (tagged : Item.Tagged members kind)
    (refused : checkItem (engine strict) (.object members) = .error failure) :
    failure.finding? = some ⟨kind.title ++ " validation failed",
      errors strict (.item kind) (.object members)⟩ := by
  rw [checkItem_of_tagged tagged, check_eq] at refused
  split at refused
  · cases refused
  · cases refused
    rfl

theorem tells_of_check (checked : check (engine strict) (.item kind) data = .ok ()) :
    ItemTag.Tells kind data := by
  obtain ⟨members, rfl, tagged⟩ := tagged_of_check checked
  exact ItemTag.tells_of_tagged tagged

theorem kind_of_readItem (checked : check (engine strict) (.item kind) data = .ok ())
    (accepted : readItem (engine strict) data = .ok item) :
    item.kind = kind ∧ item.record.lookup "type" = some (.text kind.text) ∧
      ItemTag.Tells kind item.toValue := by
  obtain ⟨members, rfl, tagged⟩ := tagged_of_check checked
  obtain ⟨-, read⟩ := readItem_eq_ok_iff.mp accepted
  obtain ⟨_, same, taggedToo, -⟩ := Item.read_eq_ok_iff.mp read
  cases same
  obtain rfl := tagged.unique taggedToo
  have filled := Item.filled_of_read read
  exact ⟨rfl, filled.lookup_type, ItemTag.tells_of_tagged filled.tagged⟩

/-- A value is an item of one kind at most.  It is accepted as an item when it is accepted as one of
a kind, and a tag of a known kind decides which; the tag, the tests for a kind and the item that is
read agree with the kind that accepts it. -/
theorem one_kind (strict : Bool) (data : Value) :
    (∀ kind other, check (engine strict) (.item kind) data = .ok () →
      check (engine strict) (.item other) data = .ok () → kind = other) ∧
    (checkItem (engine strict) data = .ok () ↔
      ∃ kind, check (engine strict) (.item kind) data = .ok ()) ∧
    (∀ members kind, data = .object members → Item.Tagged members kind →
      checkItem (engine strict) data = check (engine strict) (.item kind) data ∧
      ∀ failure, checkItem (engine strict) data = .error failure →
        failure.finding? = some ⟨kind.title ++ " validation failed",
          errors strict (.item kind) data⟩) ∧
    ∀ kind, check (engine strict) (.item kind) data = .ok () →
      ItemTag.Tells kind data ∧
      ∀ item, readItem (engine strict) data = .ok item →
        item.kind = kind ∧ item.record.lookup "type" = some (.text kind.text) ∧
          ItemTag.Tells kind item.toValue := by
  refine ⟨fun kind other => check_unique, checkItem_iff_check, ?_, ?_⟩
  · rintro members kind rfl tagged
    exact ⟨checkItem_of_tagged tagged, fun failure => finding_of_checkItem tagged⟩
  · exact fun kind checked => ⟨tells_of_check checked, fun item => kind_of_readItem checked⟩

theorem longTask_kind : ∃ item,
    readItem (engine true) (.object longTask) = .ok item ∧ item.kind = .task ∧
      ItemTag.isKind .bug item.toValue = false := by
  obtain ⟨-, -, -, agree⟩ := one_kind true (.object longTask)
  have checked : check (engine true) (.item .task) (.object longTask) = .ok () :=
    eq_ok_of_toOption (by decide +kernel)
  obtain ⟨item, accepted⟩ := exists_ok_of_toOption
    (show (readItem (engine true) (.object longTask)).toOption.isSome = true by decide +kernel)
  obtain ⟨-, each⟩ := agree .task checked
  obtain ⟨isTask, -, tells⟩ := each item accepted
  refine ⟨item, accepted, isTask, Bool.eq_false_iff.mpr fun isBug => ?_⟩
  exact nomatch (tells.tests .bug).mp isBug

end Contract

end WorkItems
