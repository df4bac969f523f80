import WorkItems.Proofs.Item.Entry
import WorkItems.Proofs.Lifecycle.Update
import WorkItems.Proofs.Project.Report

namespace WorkItems

/-! What an update comes to, field by field.

The document of an update has what is given there for a changed field and what the item had there
for any other.  So an update of declared fields either is refused or makes the one item in which
each changed field takes its change, the others are kept, and the clock is stamped.
-/

open Schema

variable {item updated : Item} {strict : Bool} {now : Moment} {changes members : Members}
  {kind : ItemType} {field : Field} {name : String} {found : Field → Option FieldValue}
  {form : Form}

theorem Form.recordOf_distinct (distinct : (form.map Field.name).Nodup) :
    Members.Distinct (form.recordOf found) := by
  induction form with
  | nil => exact List.nodup_nil
  | cons field form ih =>
      obtain ⟨fresh, rest⟩ := List.nodup_cons.mp distinct
      cases given : found field with
      | none =>
          rw [recordOf_cons_none given]
          exact ih rest
      | some held =>
          rw [recordOf_cons_some given]
          refine List.nodup_cons.mpr ⟨fun again => ?_, ih rest⟩
          obtain ⟨⟨name, other⟩, among, rfl⟩ := List.mem_map.mp again
          obtain ⟨later, inForm, -, same⟩ := mem_recordOf.mp among
          exact fresh (List.mem_map.mpr ⟨later, inForm, same⟩)

namespace Item.Filled

theorem covers (filled : item.Filled) : (Forms.ofItemType item.kind).Covers item.toMembers where
  distinct := by
    obtain ⟨found, -, same⟩ := filled
    have distinct : Members.Distinct ((Forms.ofItemType item.kind).recordOf found) :=
      Form.recordOf_distinct (Forms.ofItemType_proper item.kind).distinct
    rw [← same] at distinct
    simpa [Members.Distinct, toMembers, Record.toMembers, Function.comp_def] using distinct
  declared key listed := (filled.wellWritten.keys key listed).left
  noNull member entry := by
    obtain ⟨⟨name, held⟩, -, rfl⟩ := List.mem_map.mp entry
    exact held.toValue_ne_null

theorem takes_own (filled : item.Filled) (declared : field ∈ Forms.ofItemType item.kind) :
    field.Takes strict (.registered (.ofItemType item.kind))
      (FieldValue.orNull (item.record.lookup field.name)) (item.record.lookup field.name) := by
  obtain ⟨found, complete, same⟩ := filled
  have proper := Forms.ofItemType_proper item.kind
  rw [same, Form.lookup_recordOf found proper.distinct declared]
  exact (Forms.ofItemType_fits item.kind).takes_own proper (Forms.ofItemType_alike item.kind)
    complete declared

end Item.Filled

theorem Contract.readItem_iff_takes (tagged : Item.Tagged members kind)
    (covers : (Forms.ofItemType kind).Covers members) :
    readItem (engine strict) (.object members) = .ok updated ↔
      updated.kind = kind ∧ ∃ found, updated.record = (Forms.ofItemType kind).recordOf found ∧
        ∀ field ∈ Forms.ofItemType kind, field.Takes strict (.registered (.ofItemType kind))
          (members.valueAt field.name) (found field) := by
  rw [readItem_eq_ok_iff, checkItem_of_tagged tagged, check_iff_admits,
    ← (Forms.ofItemType_fits kind).accepted_iff (Forms.ofItemType_proper kind) covers]
  constructor
  · intro read
    rcases read with ⟨admits, read⟩
    obtain ⟨_, same, taggedToo, readsAs⟩ := Item.read_eq_ok_iff.mp read
    cases same
    obtain rfl := taggedToo.unique tagged
    obtain ⟨-, _, same, reads⟩ := Item.readAs_eq_ok_iff.mp readsAs
    cases same
    exact ⟨rfl, admits, reads⟩
  · intro read
    rcases read with ⟨rfl, admits, reads⟩
    exact ⟨admits, Item.read_eq_ok_iff.mpr ⟨members, rfl, tagged,
      Item.readAs_eq_ok_iff.mpr ⟨rfl, members, rfl, reads⟩⟩⟩

namespace Lifecycle

theorem valueAt_revision_stamp (item : Item) (changes : Members) (now : Moment) :
    (revision item changes now.text).valueAt "updatedAt" = (FieldValue.moment now).toValue := by
  rw [revision, Members.valueAt_put, if_pos rfl]
  rfl

section

variable (filled : item.Filled) (declares : (Forms.ofItemType item.kind).Declares changes)

include filled

theorem valueAt_revision (distinct : Members.Distinct changes) (now : String)
    (other : name ≠ "updatedAt") : (revision item changes now).valueAt name =
      (changes.lookup name).getD (FieldValue.orNull (item.record.lookup name)) := by
  rw [revision, Members.valueAt_put, if_neg other,
    Members.valueAt_dropNulls (Members.merge_distinct filled.covers.distinct),
    Members.valueAt_merge distinct, Item.toMembers, Form.valueAt_toMembers]

include declares

theorem revision_covers (now : String) :
    (Forms.ofItemType item.kind).Covers (revision item changes now) :=
  (filled.covers.toDeclares.merge declares).dropNulls.put
    (List.mem_map_of_mem (Forms.stamp_declared item.kind).right) nofun

end

theorem revision_tagged (filled : item.Filled) (unnamed : changes.lookup "type" = none)
    (now : String) : Item.Tagged (revision item changes now) item.kind := by
  rw [Item.Tagged, revision, Members.valueAt_put, if_neg (by decide),
    Members.valueAt_dropNulls (Members.merge_distinct filled.covers.distinct), Members.valueAt,
    Members.lookup_merge_of_absent unnamed, ← Members.valueAt, Item.toMembers,
    Form.valueAt_toMembers, filled.lookup_type]
  rfl

/-- Whether an item is what changes make of another one. -/
structure Revises (strict : Bool) (now : Moment) (changes : Members) (item updated : Item) :
    Prop where
  unnamed : ∀ name ∈ immutableFields, changes.lookup name = none
  allowed : Allowed item changes
  kind : updated.kind = item.kind
  filled : updated.Filled
  stamped : updated.record.lookup "updatedAt" = some (.moment now)
  changed : ∀ field ∈ Forms.ofItemType item.kind, field.name ≠ "updatedAt" →
    ∀ value, changes.lookup field.name = some value →
      field.Takes strict (.registered (.ofItemType item.kind)) value
        (updated.record.lookup field.name)
  kept : ∀ name, name ≠ "updatedAt" → changes.lookup name = none →
    updated.record.lookup name = item.record.lookup name

theorem takes_stamp (declared : field ∈ Forms.ofItemType kind) (stamp : field.name = "updatedAt")
    (now : Moment) : field.Takes strict (.registered (.ofItemType kind))
      (FieldValue.moment now).toValue (some (.moment now)) := by
  obtain rfl : field = ⟨"updatedAt", "updated_at", .moment, .required⟩ :=
    (Forms.ofItemType_proper kind).eq_of_name declared (Forms.stamp_declared kind).right stamp
  exact .of_holds nofun (.moment now)

section

variable (filled : item.Filled) (declares : (Forms.ofItemType item.kind).Declares changes)

include filled declares

theorem revises_of_update
    (made : update (Contract.engine strict) now item (.object changes) = .ok updated) :
    Revises strict now changes item updated := by
  obtain ⟨unnamed, allowed, read⟩ := update_eq_ok_iff.mp made
  have tagged := revision_tagged filled (unnamed "type" (by decide)) now.text
  obtain ⟨sameKind, found, same, takes⟩ := (Contract.readItem_iff_takes tagged
    (revision_covers filled declares now.text)).mp read
  have proper := Forms.ofItemType_proper item.kind
  have complete : updated.Filled := Item.filled_of_read (Contract.readItem_eq_ok_iff.mp read).right
  have taken : ∀ field ∈ Forms.ofItemType item.kind,
      field.Takes strict (.registered (.ofItemType item.kind))
        ((revision item changes now.text).valueAt field.name)
        (updated.record.lookup field.name) := by
    intro field declared
    rw [same, Form.lookup_recordOf found proper.distinct declared]
    exact takes field declared
  refine ⟨unnamed, allowed, sameKind, complete, ?_, fun field declared other value given => ?_,
    fun name other absent => ?_⟩
  · have declared := (Forms.stamp_declared item.kind).right
    have stamp := taken _ declared
    rw [valueAt_revision_stamp] at stamp
    exact stamp.unique (takes_stamp declared rfl now)
  · have change := taken field declared
    rwa [valueAt_revision filled declares.distinct now.text other, given] at change
  · by_cases listed : name ∈ (Forms.ofItemType item.kind).map Field.name
    · obtain ⟨field, declared, rfl⟩ := List.mem_map.mp listed
      have own := taken field declared
      rw [valueAt_revision filled declares.distinct now.text other, absent] at own
      exact own.unique (filled.takes_own declared)
    · rw [filled.lookup_undeclared listed]
      exact complete.lookup_undeclared (sameKind ▸ listed)

theorem update_iff_revises :
    update (Contract.engine strict) now item (.object changes) = .ok updated ↔
      Revises strict now changes item updated := by
  refine ⟨revises_of_update filled declares, fun revises => ?_⟩
  have tagged := revision_tagged filled (revises.unnamed "type" (by decide))
    now.text
  obtain ⟨found, complete, same⟩ := revises.filled
  rw [revises.kind] at complete same
  refine update_eq_ok_iff.mpr ⟨revises.unnamed, revises.allowed,
    (Contract.readItem_iff_takes tagged (revision_covers filled declares now.text)).mpr
      ⟨revises.kind, found, same, fun field declared => ?_⟩⟩
  have kept := Form.lookup_recordOf found (Forms.ofItemType_proper item.kind).distinct declared
  rw [← kept, ← same]
  by_cases stamp : field.name = "updatedAt"
  · rw [stamp, valueAt_revision_stamp, revises.stamped]
    exact takes_stamp declared stamp now
  · rw [valueAt_revision filled declares.distinct now.text stamp]
    cases given : changes.lookup field.name with
    | some value => exact revises.changed field declared stamp value given
    | none =>
        rw [revises.kept field.name stamp given]
        exact filled.takes_own declared

end

end Lifecycle

end WorkItems
