import WorkItems.Proofs.Item.Estimates
import WorkItems.Proofs.Lifecycle.Revision
import WorkItems.Proofs.Lifecycle.Run

namespace WorkItems

/-! What an update does to the document form of an item.

The document form is taken as the mapping that it stands for, key by key: the clock is stamped, what
is not among the changes stays as it was, and what is has the written form of what its field reads.
-/

variable {item updated : Item} {strict : Bool} {now : Moment} {changes : Members} {kind : ItemType}

namespace Lifecycle

/-- What is written of an updated item, beside what was written before.  Nothing but tags has a
value again after it has been cleared. -/
structure Effect (now : Moment) (changes : Members) (item updated : Item) : Prop where
  kind : updated.kind = item.kind
  declares : (Forms.ofItemType item.kind).Declares updated.toMembers
  stamped : updated.toMembers.lookup "updatedAt" = some (.text now.text)
  kept : ∀ name, name ≠ "updatedAt" → changes.lookup name = none →
    updated.toMembers.lookup name = item.toMembers.lookup name
  cleared : ∀ name, name ≠ "updatedAt" → changes.lookup name = some .null →
    updated.toMembers.lookup name = if name = "tags" then some (.array []) else none
  written : ∀ field ∈ Forms.ofItemType item.kind, field.name ≠ "updatedAt" →
    ∀ value, changes.lookup field.name = some value → value ≠ .null →
      ∃ held, field.type.read value = .ok held ∧
        updated.toMembers.lookup field.name = some held.toValue

theorem Revises.cleared (revises : Revises strict now changes item updated) {field : Field}
    (declared : field ∈ Forms.ofItemType item.kind) (other : field.name ≠ "updatedAt")
    (isNull : changes.lookup field.name = some .null) :
    updated.record.lookup field.name =
      if field.name = "tags" then some (.texts []) else none := by
  obtain ⟨-, default⟩ := (revises.changed field declared other .null isNull).of_null
  have untagged : field.name ≠ "type" := by
    intro same
    rw [same, revises.unnamed "type" (by decide)] at isNull
    cases isNull
  rw [default, Forms.default?_eq item.kind field declared untagged]

/-- An update of an item that there is does what its changes say and nothing else. -/
theorem effect_of_update (produced : Produced item)
    (declares : (Forms.ofItemType item.kind).Declares changes)
    (made : update (Contract.engine strict) now item (.object changes) = .ok updated) :
    Effect now changes item updated := by
  have revises := revises_of_update produced.filled declares made
  constructor
  case kind => exact revises.kind
  case declares => exact revises.kind ▸ revises.filled.covers.toDeclares
  case stamped =>
    rw [Item.lookup_toMembers, revises.stamped]
    rfl
  case kept =>
    intro name other absent
    rw [Item.lookup_toMembers, revises.kept name other absent, Item.lookup_toMembers]
  case cleared =>
    intro name other isNull
    have named : name ∈ changes.keys := by
      by_contra absent
      rw [Members.lookup_eq_none_iff.mpr absent] at isNull
      cases isNull
    obtain ⟨field, declared, rfl⟩ := List.mem_map.mp (declares.declared name named)
    rw [Item.lookup_toMembers, revises.cleared declared other isNull]
    split <;> rfl
  case written =>
    intro field declared other value given present
    obtain ⟨held, -, read, set⟩ :=
      (revises.changed field declared other value given).of_value present
    rw [Item.lookup_toMembers, set]
    exact ⟨held, read, rfl⟩

/-- A task that is due on the day after it was made. -/
def docsTask : Item where
  kind := .task
  record :=
    [("id", .text "t-1"), ("title", .text "Write docs"), ("description", .text ""),
     ("status", .text "todo"), ("priority", .text "low"), ("assignee", .text "sam"),
     ("tags", .texts ["docs"]), ("createdAt", .moment noon), ("updatedAt", .moment noon),
     ("type", .text "task"), ("dueDate", .moment nextDay), ("subtasks", .texts [])]

theorem docsTask_produced : Produced docsTask := by
  have reread : (Contract.readItem (Contract.engine true) docsTask.toValue).toOption.map
      (fun item => (item.kind, item.record)) = some (docsTask.kind, docsTask.record) := by
    decide +kernel
  obtain ⟨⟨kind, record⟩, read, same⟩ := Option.map_eq_some_iff.mp reread
  cases same
  exact .read (eq_ok_of_toOption read)

def postponed : Members :=
  [("dueDate", .text "2024-06-01"), ("assignee", .null), ("tags", .null),
   ("updatedAt", .text "never")]

theorem docsTask_postponed : ∃ updated,
    update (Contract.engine true) nextDay docsTask (.object postponed) = .ok updated ∧
      Effect nextDay postponed docsTask updated := by
  have succeeds : (update (Contract.engine true) nextDay docsTask
      (.object postponed)).toOption.isSome = true := by
    decide +kernel
  obtain ⟨updated, made⟩ := exists_ok_of_toOption succeeds
  exact ⟨updated, made, effect_of_update docsTask_produced (by decide) made⟩

end Lifecycle

end WorkItems
