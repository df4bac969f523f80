import WorkItems.Proofs.Lifecycle.Effect

namespace WorkItems

/-! Updates of different fields.

Changes without a common key come to the same together, one after the other, and in the other order.
What either of them does is said field by field, and only the status is looked at before; it is
changed by one of the two at most.
-/

variable {item middle updated : Item} {strict : Bool} {now : Moment}
  {first second changes : Members} {name : String}

/-- There is an item that has the fields of some names from another item of its kind. -/
theorem Item.Filled.exists_mixed (filled : item.Filled) (other : updated.Filled)
    (same : updated.kind = item.kind) (taken : String → Prop) [DecidablePred taken] :
    ∃ mixed : Item, mixed.kind = item.kind ∧ mixed.Filled ∧ ∀ name, mixed.record.lookup name =
      if taken name then updated.record.lookup name else item.record.lookup name := by
  obtain ⟨found, complete, own⟩ := filled
  obtain ⟨otherFound, otherComplete, otherOwn⟩ := other
  rw [same] at otherComplete otherOwn
  let mixed (field : Field) := if taken field.name then otherFound field else found field
  refine ⟨⟨item.kind, (Forms.ofItemType item.kind).recordOf mixed⟩, rfl,
    ⟨mixed, fun field declared => ?_, rfl⟩, fun name => ?_⟩
  · by_cases chosen : taken field.name
    · simpa only [mixed, if_pos chosen] using otherComplete field declared
    · simpa only [mixed, if_neg chosen] using complete field declared
  · rw [own, otherOwn]
    by_cases listed : name ∈ (Forms.ofItemType item.kind).map Field.name
    · obtain ⟨field, declared, rfl⟩ := List.mem_map.mp listed
      simp only [Form.lookup_recordOf _ (Forms.ofItemType_proper item.kind).distinct declared,
        mixed]
    · simp only [Form.lookup_recordOf_none listed, ite_self]

theorem Item.status_of_lookup
    (same : updated.record.lookup "status" = item.record.lookup "status") :
    updated.status = item.status := by
  rw [status, status, textAt, textAt, same]

namespace Lifecycle

theorem Allowed.of_item (allowed : Allowed item changes) (kind : updated.kind = item.kind)
    (status : updated.record.lookup "status" = item.record.lookup "status") :
    Allowed updated changes := by
  rw [Allowed, kind, Item.status_of_lookup status]
  exact allowed

namespace Revises

/-- Only the mapping matters that changes stand for. -/
theorem congr {other : Members} (same : ∀ name, changes.lookup name = other.lookup name)
    (revises : Revises strict now changes item updated) :
    Revises strict now other item updated where
  unnamed name immutable := (same name).symm.trans (revises.unnamed name immutable)
  allowed wanted given := revises.allowed wanted ((same "status").trans given)
  kind := revises.kind
  filled := revises.filled
  stamped := revises.stamped
  changed field declared notStamp value given :=
    revises.changed field declared notStamp value ((same field.name).trans given)
  kept name notStamp absent := revises.kept name notStamp ((same name).trans absent)

section

variable (distinct : Members.Distinct second) (apart : Members.Apart first second)

include distinct apart

theorem join (one : Revises strict now first item middle)
    (other : Revises strict now second middle updated) :
    Revises strict now (first.merge second) item updated := by
  constructor
  case unnamed =>
    intro name immutable
    exact (Members.lookup_merge_eq_none_iff distinct).mpr
      ⟨one.unnamed name immutable, other.unnamed name immutable⟩
  case allowed =>
    intro wanted given
    rcases (Members.lookup_merge_eq_some_iff distinct).mp given with changed | ⟨-, changed⟩
    · -- The first changes leave the status as it is.
      have kept := one.kept "status" (by decide) (apart.symm.lookup_none changed)
      exact other.allowed.of_item one.kind.symm kept.symm wanted changed
    · exact one.allowed wanted changed
  case kind => exact other.kind.trans one.kind
  case filled => exact other.filled
  case stamped => exact other.stamped
  case changed =>
    intro field declared notStamp value given
    rcases (Members.lookup_merge_eq_some_iff distinct).mp given with changed | ⟨absent, changed⟩
    · exact one.kind ▸ other.changed field (one.kind ▸ declared) notStamp value changed
    · rw [other.kept field.name notStamp absent]
      exact one.changed field declared notStamp value changed
  case kept =>
    intro name notStamp absent
    obtain ⟨absentOne, absentOther⟩ := (Members.lookup_merge_eq_none_iff distinct).mp absent
    exact (other.kept name notStamp absentOther).trans (one.kept name notStamp absentOne)

/-- Between an item and what both changes make of it is the item that has just the first ones. -/
theorem split (filled : item.Filled)
    (both : Revises strict now (first.merge second) item updated) :
    ∃ middle, Revises strict now first item middle ∧ Revises strict now second middle updated := by
  have unnamed (name : String) (immutable : name ∈ immutableFields) :=
    (Members.lookup_merge_eq_none_iff distinct).mp (both.unnamed name immutable)
  have ofFirst {name : String} {value : Value} (given : first.lookup name = some value) :
      (first.merge second).lookup name = some value :=
    (Members.lookup_merge_eq_some_iff distinct).mpr (.inr ⟨apart.lookup_none given, given⟩)
  have ofSecond {name : String} {value : Value} (given : second.lookup name = some value) :
      (first.merge second).lookup name = some value :=
    (Members.lookup_merge_eq_some_iff distinct).mpr (.inl given)
  obtain ⟨middle, kind, complete, look⟩ := filled.exists_mixed both.filled both.kind
    fun name => name = "updatedAt" ∨ first.lookup name ≠ none
  have kept {name : String} (notStamp : name ≠ "updatedAt") (absent : first.lookup name = none) :
      middle.record.lookup name = item.record.lookup name := by
    rw [look, if_neg (not_or.mpr ⟨notStamp, not_not_intro absent⟩)]
  refine ⟨middle, ?_, ?_⟩
  · constructor
    case unnamed => exact fun name immutable => (unnamed name immutable).left
    case allowed => exact fun wanted given => both.allowed wanted (ofFirst given)
    case kind => exact kind
    case filled => exact complete
    case stamped => rw [look, if_pos (.inl rfl), both.stamped]
    case changed =>
      intro field declared notStamp value given
      rw [look, if_pos (.inr (by rw [given]; nofun))]
      exact both.changed field declared notStamp value (ofFirst given)
    case kept => exact fun name notStamp absent => kept notStamp absent
  · constructor
    case unnamed => exact fun name immutable => (unnamed name immutable).right
    case allowed =>
      intro wanted given
      have same := kept (by decide) (apart.symm.lookup_none given)
      have allowed : Allowed item second := fun wanted given =>
        both.allowed wanted (ofSecond given)
      exact allowed.of_item kind same wanted given
    case kind => exact both.kind.trans kind.symm
    case filled => exact both.filled
    case stamped => exact both.stamped
    case changed =>
      rw [kind]
      exact fun field declared notStamp value given =>
        both.changed field declared notStamp value (ofSecond given)
    case kept =>
      intro name notStamp absent
      by_cases given : first.lookup name = none
      · rw [kept notStamp given]
        exact both.kept name notStamp
          ((Members.lookup_merge_eq_none_iff distinct).mpr ⟨given, absent⟩)
      · rw [look, if_pos (.inr given)]

end

theorem status_of_change {wanted : Value} {status : String}
    (revises : Revises strict now changes item updated)
    (given : changes.lookup "status" = some wanted) (isText : wanted.asText? = some status) :
    updated.status = status := by
  have present : wanted ≠ .null := by
    rintro rfl
    cases isText
  have notStamp : (Forms.statusField item.kind).name ≠ "updatedAt" :=
    show "status" ≠ "updatedAt" by decide
  obtain ⟨held, -, read, set⟩ :=
    (revises.changed _ (Forms.statusField_mem item.kind) notStamp wanted given).of_value present
  have found : updated.record.lookup "status" = some held := set
  rw [Item.status, Item.textAt, found, Forms.text_of_readStatus isText read]

/-- What changes made of an item they make of it again. -/
theorem again (revises : Revises strict now changes item updated) :
    Revises strict now changes updated updated where
  unnamed := revises.unnamed
  allowed wanted given := by
    obtain ⟨status, isText, -⟩ := revises.allowed wanted given
    exact ⟨status, isText, .inl (revises.status_of_change given isText).symm⟩
  kind := rfl
  filled := revises.filled
  stamped := revises.stamped
  changed := by
    rw [revises.kind]
    exact revises.changed
  kept _ _ _ := rfl

theorem trans (one : Revises strict now changes item middle)
    (other : Revises strict now changes middle updated) :
    Revises strict now changes item updated where
  unnamed := one.unnamed
  allowed := one.allowed
  kind := other.kind.trans one.kind
  filled := other.filled
  stamped := other.stamped
  changed := one.kind ▸ other.changed
  kept name notStamp absent :=
    (other.kept name notStamp absent).trans (one.kept name notStamp absent)

end Revises

def updateTwice (engine : Contract.Engine) (now : Moment) (item : Item) (first second : Members) :
    Except Failure Item := do
  let middle ← update engine now item (.object first)
  update engine now middle (.object second)

section

variable (filled : item.Filled) (declaresFirst : (Forms.ofItemType item.kind).Declares first)
  (declaresSecond : (Forms.ofItemType item.kind).Declares second)

include filled declaresFirst declaresSecond

theorem updateTwice_iff_revises :
    updateTwice (Contract.engine strict) now item first second = .ok updated ↔
      ∃ middle, Revises strict now first item middle ∧
        Revises strict now second middle updated := by
  rw [updateTwice, bind_eq_ok_iff]
  refine exists_congr fun middle => ?_
  rw [update_iff_revises filled declaresFirst]
  refine and_congr_right fun revises => ?_
  exact update_iff_revises revises.filled (revises.kind ▸ declaresSecond)

theorem update_merge_iff (apart : Members.Apart first second) :
    update (Contract.engine strict) now item (.object (first.merge second)) = .ok updated ↔
      updateTwice (Contract.engine strict) now item first second = .ok updated := by
  rw [update_iff_revises filled (declaresFirst.merge declaresSecond),
    updateTwice_iff_revises filled declaresFirst declaresSecond]
  constructor
  · exact fun both => both.split declaresSecond.distinct apart filled
  · intro inRow
    rcases inRow with ⟨middle, one, other⟩
    exact one.join declaresSecond.distinct apart other

theorem updateTwice_comm (apart : Members.Apart first second) :
    updateTwice (Contract.engine strict) now item first second = .ok updated ↔
      updateTwice (Contract.engine strict) now item second first = .ok updated := by
  have same (name : String) : (first.merge second).lookup name =
      (second.merge first).lookup name :=
    apart.lookup_merge_comm declaresFirst.distinct declaresSecond.distinct
  rw [← update_merge_iff filled declaresFirst declaresSecond apart,
    ← update_merge_iff filled declaresSecond declaresFirst apart.symm,
    update_iff_revises filled (declaresFirst.merge declaresSecond),
    update_iff_revises filled (declaresSecond.merge declaresFirst)]
  exact ⟨fun both => both.congr same, fun both => both.congr fun name => (same name).symm⟩

omit declaresSecond in
theorem updateTwice_self_iff :
    updateTwice (Contract.engine strict) now item first first = .ok updated ↔
      update (Contract.engine strict) now item (.object first) = .ok updated := by
  rw [updateTwice_iff_revises filled declaresFirst declaresFirst,
    update_iff_revises filled declaresFirst]
  constructor
  · intro inRow
    rcases inRow with ⟨middle, one, other⟩
    exact one.trans other
  · exact fun revises => ⟨updated, revises, revises.again⟩

end

def updateAll (engine : Contract.Engine) (now : Moment) (item : Item) :
    List Members → Except Failure Item
  | [] => .ok item
  | changes :: later => do
    let middle ← update engine now item (.object changes)
    updateAll engine now middle later

theorem updateAll_cons_cons {engine : Contract.Engine} {later : List Members} :
    updateAll engine now item (first :: second :: later) = .ok updated ↔
      ∃ middle, updateTwice engine now item first second = .ok middle ∧
        updateAll engine now middle later = .ok updated := by
  simp only [updateAll, updateTwice, bind_eq_ok_iff]
  constructor
  · intro made
    rcases made with ⟨one, madeOne, other, madeOther, rest⟩
    exact ⟨other, ⟨one, madeOne, madeOther⟩, rest⟩
  · intro made
    rcases made with ⟨other, ⟨one, madeOne, madeOther⟩, rest⟩
    exact ⟨one, madeOne, other, madeOther, rest⟩

/-- Updates of different fields can be made in any order. -/
theorem updateAll_perm {all others : List Members} (perm : all.Perm others)
    (filled : item.Filled)
    (declares : ∀ changes ∈ all, (Forms.ofItemType item.kind).Declares changes)
    (apart : all.Pairwise Members.Apart) :
    updateAll (Contract.engine strict) now item all = .ok updated ↔
      updateAll (Contract.engine strict) now item others = .ok updated := by
  induction perm generalizing item with
  | nil => rfl
  | cons changes _ ih =>
      obtain ⟨own, rest⟩ := List.forall_mem_cons.mp declares
      rw [updateAll, updateAll, bind_eq_ok_iff, bind_eq_ok_iff]
      refine exists_congr fun middle => and_congr_right fun made => ?_
      have revises := revises_of_update filled own made
      exact ih revises.filled (revises.kind ▸ rest) (List.pairwise_cons.mp apart).right
  | swap second first later =>
      obtain ⟨ofFirst, rest⟩ := List.forall_mem_cons.mp declares
      have ofSecond := (List.forall_mem_cons.mp rest).left
      have apartTwo := (List.pairwise_cons.mp apart).left second List.mem_cons_self
      rw [updateAll_cons_cons, updateAll_cons_cons]
      exact exists_congr fun middle => and_congr_left fun _ =>
        updateTwice_comm filled ofFirst ofSecond apartTwo
  | trans half _ ih laterIh =>
      have declaresHalf := fun changes among => declares changes (half.mem_iff.mpr among)
      have apartHalf := (half.pairwise_iff fun apart => apart.symm).mp apart
      exact (ih filled declares apart).trans (laterIh filled declaresHalf apartHalf)

/-- Updates of different fields can be made together or one after the other, in either order: when
one way ends in an item, all ways end in this item.  An update that is made again changes
nothing. -/
theorem updates_compose (strict : Bool) (now : Moment) (updated : Item) (produced : Produced item)
    (declaresFirst : (Forms.ofItemType item.kind).Declares first)
    (declaresSecond : (Forms.ofItemType item.kind).Declares second)
    (apart : Members.Apart first second) :
    (update (Contract.engine strict) now item (.object (first.merge second)) = .ok updated ↔
      updateTwice (Contract.engine strict) now item first second = .ok updated) ∧
    (updateTwice (Contract.engine strict) now item first second = .ok updated ↔
      updateTwice (Contract.engine strict) now item second first = .ok updated) ∧
    (updateTwice (Contract.engine strict) now item first first = .ok updated ↔
      update (Contract.engine strict) now item (.object first) = .ok updated) := by
  have filled := produced.filled
  exact ⟨update_merge_iff filled declaresFirst declaresSecond apart,
    updateTwice_comm filled declaresFirst declaresSecond apart,
    updateTwice_self_iff filled declaresFirst⟩

def started : Members :=
  [("status", .text "in-progress"), ("tags", .null)]

def assigned : Members :=
  [("assignee", .null), ("dueDate", .text "2024-06-01")]

theorem docsTask_compose : ∃ updated,
    updateTwice (Contract.engine true) nextDay docsTask started assigned = .ok updated ∧
      updateTwice (Contract.engine true) nextDay docsTask assigned started = .ok updated ∧
        updated.status = "in-progress" := by
  have succeeds : (updateTwice (Contract.engine true) nextDay docsTask started
      assigned).toOption.map Item.status = some "in-progress" := by
    decide +kernel
  obtain ⟨updated, ran, status⟩ := Option.map_eq_some_iff.mp succeeds
  have made := eq_ok_of_toOption ran
  have declaresStarted : (Forms.ofItemType docsTask.kind).Declares started := by decide
  have declaresAssigned : (Forms.ofItemType docsTask.kind).Declares assigned := by decide
  have apart : Members.Apart started assigned := by decide
  obtain ⟨-, comm, -⟩ := updates_compose true nextDay updated docsTask_produced declaresStarted
    declaresAssigned apart
  exact ⟨updated, made, comm.mp made, status⟩

end Lifecycle

end WorkItems
