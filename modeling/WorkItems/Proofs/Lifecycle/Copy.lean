import WorkItems.Proofs.Item.Identifier
import WorkItems.Proofs.Lifecycle.Effect

namespace WorkItems

/-! Making an item anew from what is written of another one.

A document is read as the item that it is the written form of, whatever the order of its keys.  The
document of a new item has what is given and the stamps of the clock, so from the written form of
an item, less its stamps, the same item is made with new ones.
-/

open Schema

variable {item : Item} {strict : Bool} {now : Moment} {members given : Members} {kind : ItemType}
  {field : Field} {form : Form} {found : Field → Option FieldValue} {held : FieldValue}
  {name identifier : String}

namespace Form

/-- What fields hold once the field of a name is set. -/
def setAt (found : Field → Option FieldValue) (name : String) (held : FieldValue) (field : Field) :
    Option FieldValue :=
  if field.name = name then some held else found field

theorem toMembers_setAt {old : FieldValue} (distinct : (form.map Field.name).Nodup)
    (inForm : field ∈ form) (set : found field = some old) :
    (form.recordOf (setAt found field.name held)).toMembers =
      (form.recordOf found).toMembers.put field.name held.toValue := by
  induction form with
  | nil => cases inForm
  | cons first form ih =>
      obtain ⟨fresh, rest⟩ := List.nodup_cons.mp distinct
      rcases List.mem_cons.mp inForm with rfl | later
      · have same : recordOf form (setAt found field.name held) = recordOf form found := by
          refine List.filterMap_congr fun other among => ?_
          have different : other.name ≠ field.name := fun equal =>
            fresh (equal ▸ List.mem_map_of_mem among)
          rw [setAt, if_neg different]
        rw [recordOf_cons_some set, recordOf_cons_some (if_pos rfl), same]
        exact (if_pos rfl).symm
      · have different : first.name ≠ field.name := fun equal =>
          fresh (equal ▸ List.mem_map_of_mem later)
        have kept : setAt found field.name held first = found first := if_neg different
        cases holds : found first with
        | none =>
            rw [recordOf_cons_none holds, recordOf_cons_none (kept.trans holds)]
            exact ih rest later
        | some value =>
            rw [recordOf_cons_some holds, recordOf_cons_some (kept.trans holds)]
            exact (congrArg _ (ih rest later)).trans (if_neg different).symm

end Form

/-- An item with a field set anew is an item again. -/
theorem Item.Filled.exists_put (filled : item.Filled) (inForm : field ∈ Forms.ofItemType item.kind)
    (set : field.presence.isOptional = false) (holds : field.type.Holds held) :
    ∃ copy : Item, copy.Filled ∧ copy.kind = item.kind ∧
      copy.toMembers = item.toMembers.put field.name held.toValue := by
  obtain ⟨found, complete, same⟩ := filled
  have proper := Forms.ofItemType_proper item.kind
  have changed : (Forms.ofItemType item.kind).Filled (Form.setAt found field.name held) := by
    intro other among
    rw [Form.setAt]
    by_cases equal : other.name = field.name
    · obtain rfl := proper.eq_of_name among inForm equal
      rw [if_pos rfl]
      exact ⟨fun value isHeld => Option.some.inj isHeld ▸ holds, nofun⟩
    · rw [if_neg equal]
      exact complete other among
  cases old : found field with
  | none =>
      rw [(complete field inForm).right old] at set
      cases set
  | some value =>
      refine ⟨⟨item.kind, (Forms.ofItemType item.kind).recordOf _⟩, ⟨_, changed, rfl⟩, rfl, ?_⟩
      rw [Item.toMembers, Item.toMembers, same]
      exact Form.toMembers_setAt proper.distinct inForm old

/-- A document is read as the item that has the same written form key by key. -/
theorem Contract.readItem_of_valueAt (filled : item.Filled)
    (covers : (Forms.ofItemType item.kind).Covers members)
    (same : ∀ name, members.valueAt name = item.toMembers.valueAt name) :
    readItem (engine strict) (.object members) = .ok item := by
  have tagged : Item.Tagged members item.kind := by
    rw [Item.Tagged, same]
    exact filled.tagged
  obtain ⟨found, complete, record⟩ := filled
  have proper := Forms.ofItemType_proper item.kind
  refine (readItem_iff_takes tagged covers).mpr ⟨rfl, found, record, fun field inForm => ?_⟩
  rw [same, Item.toMembers, Form.valueAt_toMembers, record,
    Form.lookup_recordOf found proper.distinct inForm]
  exact (Forms.ofItemType_fits item.kind).takes_own proper (Forms.ofItemType_alike item.kind)
    complete inForm

namespace Lifecycle

/-- Members with both stamps of the clock. -/
def stamp (members : Members) (now : Moment) : Members :=
  (members.put "createdAt" (.text now.text)).put "updatedAt" (.text now.text)

theorem valueAt_stamp (members : Members) (now : Moment) (name : String) :
    (stamp members now).valueAt name =
      if name ∈ stampedFields then .text now.text else members.valueAt name := by
  simp only [stamp, Members.valueAt_put, stampedFields, List.mem_cons, List.not_mem_nil, or_false]
  by_cases created : name = "createdAt" <;> by_cases updated : name = "updatedAt" <;>
    simp [created, updated]

/-- What is given, less its nulls, with an identifier unless one is given that counts. -/
def identify (given : Members) (identifier : String) : Members :=
  if (given.dropNulls.valueAt "id").isTruthy then given.dropNulls
  else given.dropNulls.put "id" (.text identifier)

theorem valueAt_identify (distinct : Members.Distinct given) (identifier name : String) :
    (identify given identifier).valueAt name =
      if name = "id" ∧ (given.valueAt "id").isTruthy = false then .text identifier
      else given.valueAt name := by
  have kept (name : String) : given.dropNulls.valueAt name = given.valueAt name :=
    Members.valueAt_dropNulls distinct
  rw [identify, kept]
  cases (given.valueAt "id").isTruthy with
  | true => simp [kept]
  | false => simp [Members.valueAt_put, kept]

theorem creation_eq (kind : ItemType) (given : Members) (now : Moment) (identifier : String) :
    creation kind given now.text identifier =
      stamp ((identify given identifier).put "type" (.text kind.text)) now :=
  rfl

theorem creation_covers (declares : (Forms.ofItemType kind).Declares given) (now : Moment)
    (identifier : String) :
    (Forms.ofItemType kind).Covers (creation kind given now.text identifier) := by
  have named : ∀ name ∈ ["id", "type", "createdAt", "updatedAt"],
      name ∈ (Forms.ofItemType kind).map Field.name := by
    cases kind <;> decide
  have present (text : String) : Value.text text ≠ .null := nofun
  have identified : (Forms.ofItemType kind).Covers (identify given identifier) := by
    rw [identify]
    split
    · exact declares.dropNulls
    · exact declares.dropNulls.put (named "id" (by decide)) (present identifier)
  have typed := identified.put (named "type" (by decide)) (present kind.text)
  have created := typed.put (named "createdAt" (by decide)) (present now.text)
  exact created.put (named "updatedAt" (by decide)) (present now.text)

theorem valueAt_creation (distinct : Members.Distinct given) (now : Moment)
    (identifier name : String) :
    (creation kind given now.text identifier).valueAt name =
      if name ∈ stampedFields then .text now.text
      else if name = "type" then .text kind.text
      else if name = "id" ∧ (given.valueAt "id").isTruthy = false then .text identifier
      else given.valueAt name := by
  rw [creation_eq, valueAt_stamp, Members.valueAt_put, valueAt_identify distinct]

theorem create_object_eq {engine : Contract.Engine} {tag : Value}
    (named : tag.asText? = some kind.text) (typed : given.lookup "type" = some (.text kind.text))
    (unstamped : ∀ name ∈ stampedFields, given.lookup name = none) :
    create engine now identifier tag (.object given) =
      Contract.readItem engine (.object (creation kind given now.text identifier)) := by
  have known : knownKind tag.plainTerm = .ok kind := by
    rw [knownKind, ItemType.ofTag_eq_some_iff.mpr ((plainTerm_asText tag).trans named)]
  have allowed (reason : String → String) :
      refuseAny (.object given) stampedFields reason = .ok () := by
    refine refuseAny_eq_ok_iff.mpr fun name stamped => ?_
    rw [mentions_eq, Members.hasKey, unstamped name stamped]
    rfl
  have sameKind : refuseOtherKind (.object given) kind = .ok () := by
    have right : (Members.valueAt given "type").isText kind.text = true := by
      rw [Members.valueAt, typed]
      exact Value.isText_iff.mpr rfl
    rw [refuseOtherKind, mentions_eq, Members.hasKey, typed]
    simp only [Option.isSome_some, ok_bind, right, if_true]
    rfl
  rw [create, known, ok_bind, allowed, sameKind]
  rfl

theorem exists_stamped (filled : item.Filled) (now : Moment) :
    ∃ copy : Item, copy.Filled ∧ copy.kind = item.kind ∧
      copy.toMembers = stamp item.toMembers now := by
  obtain ⟨createdAt, -⟩ := Forms.stamp_declared item.kind
  obtain ⟨created, complete, sameKind, written⟩ :=
    filled.exists_put createdAt rfl (.moment now)
  have updatedAt := (Forms.stamp_declared created.kind).right
  obtain ⟨copy, completeToo, alsoSame, writtenToo⟩ :=
    complete.exists_put updatedAt rfl (.moment now)
  refine ⟨copy, completeToo, alsoSame.trans sameKind, ?_⟩
  rw [writtenToo, written]
  rfl

/-- What is given makes an item with new stamps when it is what the item is written as, apart from
the old stamps, and apart from the identifier if none is given. -/
theorem create_stamped {tag : Value} (filled : item.Filled)
    (named : tag.asText? = some item.kind.text)
    (declares : (Forms.ofItemType item.kind).Declares given)
    (typed : given.lookup "type" = some (.text item.kind.text))
    (unstamped : ∀ name ∈ stampedFields, given.lookup name = none)
    (identified : item.toMembers.valueAt "id" =
      if (given.valueAt "id").isTruthy then given.valueAt "id" else .text identifier)
    (others : ∀ name ∉ "id" :: stampedFields,
      item.toMembers.valueAt name = given.valueAt name) :
    ∃ copy, create (Contract.engine strict) now identifier tag (.object given) = .ok copy ∧
      copy.kind = item.kind ∧ copy.toMembers = stamp item.toMembers now := by
  obtain ⟨copy, complete, sameKind, written⟩ := exists_stamped filled now
  refine ⟨copy, ?_, sameKind, written⟩
  rw [create_object_eq named typed unstamped, ← sameKind]
  rw [← sameKind] at declares typed
  refine Contract.readItem_of_valueAt complete
    (creation_covers declares now identifier) fun name => ?_
  rw [valueAt_creation declares.distinct, written, valueAt_stamp]
  by_cases isStamp : name ∈ stampedFields
  · rw [if_pos isStamp, if_pos isStamp]
  rw [if_neg isStamp, if_neg isStamp]
  by_cases isTag : name = "type"
  · rw [if_pos isTag, isTag, others "type" (by decide), Members.valueAt, typed]
    rfl
  rw [if_neg isTag]
  by_cases isId : name = "id"
  · rw [isId, identified]
    cases (given.valueAt "id").isTruthy <;> simp
  · rw [if_neg fun both => isId both.left,
      others name fun among => (List.mem_cons.mp among).elim isId isStamp]

/-- The field of the identifier. -/
def idField : Field := Forms.plainField "id" (.text Forms.identifier) .required

theorem idField_mem (kind : ItemType) : idField ∈ Forms.ofItemType kind := by
  cases kind <;>
    simp [Forms.ofItemType, Forms.feature, Forms.bug, Forms.task, Forms.shared, idField]

theorem id_isTruthy (filled : item.Filled) : (item.toMembers.valueAt "id").isTruthy = true := by
  obtain ⟨held, found, holds⟩ := filled.lookup_set (idField_mem item.kind) rfl
  cases holds with
  | @text _ text accepts =>
      have written : item.toMembers.valueAt "id" = .text text := by
        rw [Item.toMembers, Form.valueAt_toMembers]
        exact congrArg FieldValue.orNull found
      rw [written, Value.isTruthy, Bool.not_eq_true']
      refine Bool.eq_false_iff.mpr fun empty => ?_
      have nothing := accepts.atLeast
      rw [String.isEmpty_iff.mp empty] at nothing
      exact absurd nothing (by decide)

/-- From the written form of an item without its stamps, a new item is made that is written the same
with new stamps; without its identifier too, the new item has the one that is made for it. -/
theorem create_copies {tag : Value} (produced : Produced item) (strict : Bool) (now : Moment)
    (named : tag.asText? = some item.kind.text) :
    (∀ identifier, ∃ copy,
        create (Contract.engine strict) now identifier tag
          (.object (item.toMembers.without stampedFields)) = .ok copy ∧
        copy.kind = item.kind ∧ copy.toMembers = stamp item.toMembers now) ∧
      ∀ number, ∃ copy,
        create (Contract.engine strict) now (Ulid.text number) tag
          (.object (item.toMembers.without ("id" :: stampedFields))) = .ok copy ∧
        copy.kind = item.kind ∧
        copy.toMembers = stamp (item.toMembers.put "id" (.text (Ulid.text number))) now := by
  have filled := produced.filled
  have typed {names : List String} (kept : "type" ∉ names) :
      (item.toMembers.without names).lookup "type" = some (.text item.kind.text) := by
    rw [Members.lookup_without, if_neg kept, Item.lookup_toMembers, filled.lookup_type]
    rfl
  have left {names : List String} (all : ∀ name ∈ stampedFields, name ∈ names) :
      ∀ name ∈ stampedFields, (item.toMembers.without names).lookup name = none :=
    fun name stamped => by rw [Members.lookup_without, if_pos (all name stamped)]
  constructor
  · intro identifier
    refine create_stamped filled named (filled.covers.toDeclares.without _) (typed (by decide))
      (left fun _ => id) ?_ fun name other => ?_
    · have kept : (item.toMembers.without stampedFields).valueAt "id" =
          item.toMembers.valueAt "id" :=
        (Members.valueAt_without _ _ _).trans (if_neg (by decide))
      rw [kept, id_isTruthy filled, if_pos rfl]
    · rw [Members.valueAt_without, if_neg fun among => other (List.mem_cons_of_mem _ among)]
  · intro number
    obtain ⟨base, complete, sameKind, written⟩ :=
      filled.exists_put (idField_mem item.kind) rfl (.text (Ulid.text_accepted number))
    rw [← sameKind] at named typed ⊢
    have declares := filled.covers.toDeclares.without ("id" :: stampedFields)
    rw [← sameKind] at declares
    have identified : base.toMembers.valueAt "id" =
        if ((item.toMembers.without ("id" :: stampedFields)).valueAt "id").isTruthy then
          (item.toMembers.without ("id" :: stampedFields)).valueAt "id"
        else .text (Ulid.text number) := by
      rw [written, Members.valueAt_without, if_pos List.mem_cons_self]
      exact (Members.valueAt_put _ _ _ _).trans (if_pos rfl)
    have others : ∀ name ∉ "id" :: stampedFields, base.toMembers.valueAt name =
        (item.toMembers.without ("id" :: stampedFields)).valueAt name := by
      intro name other
      have notId : name ≠ idField.name := fun same => other (same ▸ List.mem_cons_self)
      rw [written, Members.valueAt_without, if_neg other, Members.valueAt_put, if_neg notId]
    have copied : ∃ copy,
        create (Contract.engine strict) now (Ulid.text number) tag
          (.object (item.toMembers.without ("id" :: stampedFields))) = .ok copy ∧
        copy.kind = base.kind ∧ copy.toMembers = stamp base.toMembers now :=
      create_stamped complete named declares (typed (by decide))
        (left fun _ => List.mem_cons_of_mem _) identified others
    rw [written] at copied
    exact copied

theorem docsTask_copied :
    (∃ copy,
      create (Contract.engine true) nextDay "unused" (.text "task")
        (.object (docsTask.toMembers.without stampedFields)) = .ok copy ∧
      copy.toMembers.valueAt "id" = .text "t-1" ∧
      copy.toMembers.valueAt "dueDate" = .text "2024-05-02T09:30:00Z" ∧
      copy.toMembers.valueAt "createdAt" = .text "2024-05-02T09:30:00Z") ∧
    ∃ copy,
      create (Contract.engine true) nextDay (Ulid.text 33) (.text "task")
        (.object (docsTask.toMembers.without ("id" :: stampedFields))) = .ok copy ∧
      copy.toMembers.valueAt "id" = .text "00000000000000000000000011" ∧
      copy.toMembers.valueAt "title" = .text "Write docs" := by
  have named : (Value.text "task").asText? = some docsTask.kind.text := rfl
  obtain ⟨whole, anonymous⟩ := create_copies docsTask_produced true nextDay named
  obtain ⟨copy, made, -, written⟩ := whole "unused"
  obtain ⟨other, madeToo, -, writtenToo⟩ := anonymous 33
  refine ⟨⟨copy, made, ?_⟩, other, madeToo, ?_⟩
  · rw [written]
    exact ⟨rfl, rfl, rfl⟩
  · rw [writtenToo]
    exact ⟨rfl, rfl⟩

end Lifecycle

end WorkItems
