import WorkItems.Contract
import WorkItems.Proofs.Item.Reading
import WorkItems.Proofs.Schema.Agreement

namespace WorkItems.Contract

/-! When the contract admits data, and when it reads them.

Checks are put in terms of what the schema engine says, and readings in terms of a check and a
reading of fields.
-/

variable {engine : Engine} {subject : Subject} {data : Value} {item : Item} {project : Project}
  {strict : Bool} {kind : ItemType} {members : Members}

theorem check_eq_ok_iff :
    check (Contract.engine strict) subject data = .ok () ↔
      Schema.validate strict (schemaOf subject) data = .ok [] := by
  rw [check, bind_eq_ok_iff, Contract.engine]
  cases Schema.validate strict (schemaOf subject) data with
  | error fault => simp
  | ok errors => cases errors <;> simp [pure_eq_ok]

/-- An item is checked by the schema of the kind that its tag says. -/
theorem checkItem_of_tagged (tagged : Item.Tagged members kind) :
    checkItem engine (.object members) = check engine (.item kind) (.object members) := by
  rw [checkItem]
  simp only [ItemType.ofTag_eq_some_iff.mpr tagged]

theorem tagged_of_checkItem (accepted : checkItem engine data = .ok ()) :
    ∃ members kind, data = .object members ∧ Item.Tagged members kind := by
  cases data with
  | object members =>
      cases known : (Members.valueAt members "type").asText?.bind ItemType.ofText? with
      | none =>
          simp only [checkItem, known] at accepted
          cases accepted
      | some kind => exact ⟨members, kind, rfl, ItemType.ofTag_eq_some_iff.mp known⟩
  | null | bool | number | text | term | array | tuple | foreign => cases accepted

theorem readItem_eq_ok_iff : readItem engine data = .ok item ↔
    checkItem engine data = .ok () ∧ Item.read data = .ok item := by
  rw [readItem, check_bind_eq_ok_iff]
  cases Item.read data with
  | error issues => simp
  | ok found => simp [pure_eq_ok]

theorem readProject_eq_ok_iff : readProject engine data = .ok project ↔
    check engine .project data = .ok () ∧ Project.read data = .ok project := by
  rw [readProject, check_bind_eq_ok_iff]
  cases Project.read data with
  | error issues => simp
  | ok found => simp [pure_eq_ok]

end WorkItems.Contract
