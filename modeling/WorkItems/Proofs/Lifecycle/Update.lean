import WorkItems.Proofs.Item.Written

namespace WorkItems

/-! What one creation and one update make of an item.

Both end in reading a document, so what an item holds is what is found in that document under the
names of fields.  Changes that are not refused have no key of an immutable field, and a second name
never counts beside the name, so the document of an update has what the item had there.
-/

variable {item updated : Item} {engine : Contract.Engine} {now : Moment} {changes : Members}
  {kind : ItemType} {field : Field} {held : FieldValue} {members : Members} {name : String}
  {value : Value} {identifier : String} {data : Value}

namespace Item

theorem Filled.lookup_set (filled : item.Filled) (declared : field ∈ Forms.ofItemType item.kind)
    (set : field.presence.isOptional = false) :
    ∃ held, item.record.lookup field.name = some held ∧ field.type.Holds held := by
  obtain ⟨found, complete, same⟩ := filled
  have kept := Form.lookup_recordOf found (Forms.ofItemType_proper item.kind).distinct declared
  obtain ⟨holds, unset⟩ := complete field declared
  rw [← same] at kept
  cases given : found field with
  | some held => exact ⟨held, kept.trans given, holds held given⟩
  | none =>
      rw [unset given] at set
      cases set

/-- What stands in a document as a field would write it is what the field holds once it is read. -/
theorem lookup_of_readAs (accepted : readAs kind (.object members) = .ok item)
    (declared : field ∈ Forms.ofItemType kind) (holds : field.type.Holds held)
    (found : members.lookup field.name = some held.toValue) :
    item.record.lookup field.name = some held := by
  obtain ⟨rfl, _, same, reads⟩ := readAs_eq_ok_iff.mp accepted
  cases same
  have read := Field.read_of_find (Field.find?_of_lookup found) held.toValue_ne_null
    (FieldType.read_toValue holds)
  rw [Form.read_of_readMembers (Forms.ofItemType_proper item.kind).distinct reads declared] at read
  exact Except.ok.inj read

end Item

namespace Forms

theorem immutable_declared (kind : ItemType) : ∀ name ∈ Lifecycle.immutableFields,
    ∃ field ∈ ofItemType kind, field.name = name ∧ field.presence.isOptional = false := by
  cases kind <;> decide

def statuses : ItemType → List String
  | .feature => FeatureStatus.all.map FeatureStatus.text
  | .bug => BugStatus.all.map BugStatus.text
  | .task => TaskStatus.all.map TaskStatus.text

def statusField (kind : ItemType) : Field :=
  plainField "status" (.choice (statuses kind)) .required

theorem statusField_mem (kind : ItemType) : statusField kind ∈ ofItemType kind := by
  cases kind <;> simp [ofItemType, feature, bug, task, shared, statusField, statuses]

theorem text_of_readStatus {text : String} (isText : value.asText? = some text)
    (read : (statusField kind).type.read value = .ok held) : held = .text text := by
  obtain ⟨option, chosen, rfl⟩ := atField_eq_ok_iff.mp read
  obtain ⟨isOption, -⟩ := readChoice_eq_ok_iff.mp chosen
  rw [textOf?_of_asText? isText, Option.some.injEq] at isOption
  exact congrArg FieldValue.text isOption.symm

theorem stamp_declared (kind : ItemType) :
    ⟨"createdAt", "created_at", .moment, .required⟩ ∈ ofItemType kind ∧
      ⟨"updatedAt", "updated_at", .moment, .required⟩ ∈ ofItemType kind := by
  cases kind <;> simp [ofItemType, feature, bug, task, shared]

end Forms

namespace Item.Filled

theorem lookup_type (filled : item.Filled) :
    item.record.lookup "type" = some (.text item.kind.text) := by
  obtain ⟨held, found, holds⟩ := filled.lookup_set (Forms.typeField_mem item.kind) rfl
  cases holds with
  | choice among => exact List.mem_singleton.mp among ▸ found

theorem lookup_status (filled : item.Filled) :
    item.record.lookup "status" = some (.text item.status) ∧
      item.status ∈ Forms.statuses item.kind := by
  obtain ⟨held, found, holds⟩ := filled.lookup_set (Forms.statusField_mem item.kind) rfl
  cases holds with
  | choice among =>
      have same : item.record.lookup "status" = some (.text _) := found
      rw [Item.status, Item.textAt, same]
      exact ⟨rfl, among⟩

end Item.Filled

namespace Lifecycle

theorem refuseAny_eq_ok_iff {given : Value} {names : List String} {reason : String → String} :
    refuseAny given names reason = .ok () ↔ ∀ name ∈ names, mentions given name = .ok false := by
  induction names with
  | nil => exact iff_of_true rfl (List.forall_mem_nil _)
  | cons name names ih =>
      have step : refuseAny given (name :: names) reason = (do
          (do if ← mentions given name then throw (.refusedRequest (reason name)))
          refuseAny given names reason) := rfl
      rw [step, check_bind_eq_ok_iff, ih, List.forall_mem_cons]
      refine and_congr_left fun _ => ?_
      cases mentions given name with
      | error failure => exact iff_of_false nofun nofun
      | ok mentioned =>
          cases mentioned with
          | true => exact iff_of_false nofun nofun
          | false => exact iff_of_true rfl rfl

theorem mentions_eq (changes : Members) (name : String) :
    mentions (.object changes) name = .ok (changes.hasKey name) := by
  rw [mentions, Members.hasKey]
  congr 1
  induction changes with
  | nil => rfl
  | cons change rest ih =>
      rw [List.any_cons, Members.lookup_cons, ih]
      by_cases same : name = change.1
      · simp [same]
      · have different : (change.1 == name) = false := beq_eq_false_iff_ne.mpr fun equal =>
          same equal.symm
        rw [if_neg same, different, Bool.false_or]

theorem statusChange_eq (changes : Members) : statusChange (.object changes) =
    .ok ((changes.lookup "status").map Value.plainTerm) := by
  rw [statusChange, mentions_eq, ok_bind, Members.hasKey]
  cases found : changes.lookup "status" with
  | none => rfl
  | some value =>
      rw [Option.isSome_some, if_pos rfl]
      simp only [Members.valueAt, found, Option.getD_some, Option.map_some]
      rfl

/-- Whether changes leave the status as it is or move it along the workflow. -/
def Allowed (item : Item) (changes : Members) : Prop :=
  ∀ wanted, changes.lookup "status" = some wanted →
    ∃ status, wanted.asText? = some status ∧
      (status = item.status ∨ status ∈ (Workflow.next? item.kind item.status).getD [])

theorem plainTerm_asText (value : Value) : value.plainTerm.asText? = value.asText? := by
  cases value <;> rfl

theorem refuseTransition_eq_ok_iff {wanted : Value} :
    refuseTransition item wanted.plainTerm = .ok () ↔
      ∃ status, wanted.asText? = some status ∧
        (status = item.status ∨ status ∈ (Workflow.next? item.kind item.status).getD []) := by
  have same : wanted.plainTerm.isText item.status = true ↔ wanted.asText? = some item.status := by
    rw [Value.isText_iff, plainTerm_asText]
  have allowed : item.mayBecome wanted.plainTerm = true ↔
      ∃ status ∈ (Workflow.next? item.kind item.status).getD [], wanted.asText? = some status := by
    have current : (Value.text item.status).asText? = some item.status := rfl
    rw [Item.mayBecome, Workflow.allows]
    simp only [current, List.any_eq_true, Value.isText_iff, plainTerm_asText]
  have accepts : refuseTransition item wanted.plainTerm = .ok () ↔
      (wanted.plainTerm.isText item.status || item.mayBecome wanted.plainTerm) = true := by
    rw [refuseTransition]
    split
    · rename_i kept
      exact iff_of_true rfl kept
    · rename_i refused
      refine iff_of_false ?_ refused
      split <;> exact nofun
  rw [accepts, Bool.or_eq_true, same, allowed]
  constructor
  · intro either
    rcases either with kept | ⟨status, among, isText⟩
    · exact ⟨item.status, kept, .inl rfl⟩
    · exact ⟨status, isText, .inr among⟩
  · intro either
    rcases either with ⟨status, isText, rfl | among⟩
    · exact .inl isText
    · exact .inr ⟨status, among, isText⟩

def refuseStatus (item : Item) (change : Option Value) : Except Failure Unit :=
  change.elim (.ok ()) fun wanted => refuseTransition item wanted.plainTerm

theorem refuseStatus_eq_ok_iff :
    refuseStatus item (changes.lookup "status") = .ok () ↔ Allowed item changes := by
  rw [Allowed]
  cases changes.lookup "status" with
  | none => exact iff_of_true rfl nofun
  | some wanted =>
      simp only [Option.some.injEq, forall_eq', ← refuseTransition_eq_ok_iff]
      rfl

theorem changedNames_object (changes : Members) :
    changedNames (.object changes) = .ok changes.keys := by
  simp only [changedNames, Schema.elements, List.mapM_map, Function.comp_def, Value.asText?,
    List.mapM_pure]
  rfl

/-- Changes are refused for their names first and then for the status; what is left is to read the
document of the update. -/
theorem update_object_eq (engine : Contract.Engine) (now : Moment) (item : Item)
    (changes : Members) : update engine now item (.object changes) = (do
      refuseAny (.object changes) immutableFields fun name =>
        "Field '" ++ name ++ "' cannot be updated"
      refuseStatus item (changes.lookup "status")
      Contract.readItem engine (.object (revision item changes now.text))) := by
  have logged (outcome : Except Failure Item) : (do
      let updated ← outcome
      let _ ← (.ok changes.keys : Except Failure (List String))
      pure updated) = outcome := by
    cases outcome <;> rfl
  rw [update, statusChange_eq, changesOf, Schema.mappingOf, changedNames_object]
  refine congrArg _ (funext fun _ => ?_)
  cases changes.lookup "status" with
  | none => exact logged _
  | some wanted => exact congrArg _ (funext fun _ => logged _)

theorem update_eq_ok_iff : update engine now item (.object changes) = .ok updated ↔
    (∀ name ∈ immutableFields, changes.lookup name = none) ∧ Allowed item changes ∧
      Contract.readItem engine (.object (revision item changes now.text)) = .ok updated := by
  have absent (name : String) :
      mentions (.object changes) name = .ok false ↔ changes.lookup name = none := by
    rw [mentions_eq, Except.ok.injEq, Members.hasKey, Option.isSome_eq_false_iff,
      Option.isNone_iff_eq_none]
  rw [update_object_eq, check_bind_eq_ok_iff, check_bind_eq_ok_iff, refuseAny_eq_ok_iff,
    refuseStatus_eq_ok_iff]
  simp only [absent]

theorem lookup_revision {now : String}
    (found : (item.toMembers.merge changes).lookup name = some value)
    (present : value.isNull = false) (other : name ≠ "updatedAt") :
    (revision item changes now).lookup name = some value := by
  rw [revision, Members.lookup_put, if_neg other]
  exact Members.lookup_dropNulls found present

section

variable (distinct : Members.Distinct changes)

include distinct

theorem lookup_revision_kept {now : String} (absent : changes.lookup name = none)
    (set : item.record.lookup name = some held) (other : name ≠ "updatedAt") :
    (revision item changes now).lookup name = some held.toValue := by
  have found : (item.toMembers.merge changes).lookup name = some held.toValue := by
    rw [Members.lookup_merge distinct, absent, Option.none_or, Item.toMembers,
      Form.lookup_toMembers, set]
    rfl
  have present : held.toValue.isNull = false := by cases held <;> rfl
  exact lookup_revision found present other

variable (filled : item.Filled) (made : update engine now item (.object changes) = .ok updated)

include filled made

/-- The tag of an item is never changed, so a new version is read as one of the same kind. -/
theorem readAs_of_update : updated.kind = item.kind ∧
    Item.readAs item.kind (.object (revision item changes now.text)) = .ok updated := by
  obtain ⟨absent, -, accepted⟩ := update_eq_ok_iff.mp made
  obtain ⟨-, reads⟩ := Contract.readItem_eq_ok_iff.mp accepted
  obtain ⟨_, same, tagged, readsAs⟩ := Item.read_eq_ok_iff.mp reads
  cases same
  -- The tag is immutable, so the document has the one of the item.
  have kept : (revision item changes now.text).lookup "type" = some _ :=
    lookup_revision_kept distinct (absent "type" (by decide)) filled.lookup_type (by decide)
  have sameKind := tagged.unique (Item.tagged_iff_lookup.mpr ⟨_, kept, rfl⟩)
  exact ⟨sameKind, sameKind ▸ readsAs⟩

theorem immutable_of_update : ∀ name ∈ immutableFields,
    updated.record.lookup name = item.record.lookup name := by
  intro name immutable
  obtain ⟨absent, -, -⟩ := update_eq_ok_iff.mp made
  obtain ⟨-, readsAs⟩ := readAs_of_update distinct filled made
  obtain ⟨field, declared, rfl, set⟩ := Forms.immutable_declared item.kind name immutable
  obtain ⟨held, found, holds⟩ := filled.lookup_set declared set
  have other : field.name ≠ "updatedAt" := by
    intro same
    rw [same] at immutable
    revert immutable
    decide
  have kept : (revision item changes now.text).lookup field.name = some _ :=
    lookup_revision_kept distinct (absent _ immutable) found other
  rw [found]
  exact Item.lookup_of_readAs readsAs declared holds kept

theorem stamp_of_update : updated.record.lookup "updatedAt" = some (.moment now) := by
  obtain ⟨-, readsAs⟩ := readAs_of_update distinct filled made
  obtain ⟨-, declared⟩ := Forms.stamp_declared item.kind
  have stamped : (revision item changes now.text).lookup "updatedAt" = some (.text now.text) := by
    rw [revision, Members.lookup_put, if_pos rfl]
  exact Item.lookup_of_readAs readsAs declared (.moment now) stamped

/-- The status in the document of an update is the one there was or follows it. -/
theorem lookup_revision_status : ∃ given status,
    (revision item changes now.text).lookup "status" = some given ∧ given.asText? = some status ∧
      (status = item.status ∨ status ∈ (Workflow.next? item.kind item.status).getD []) := by
  obtain ⟨-, allowed, -⟩ := update_eq_ok_iff.mp made
  obtain ⟨set, -⟩ := filled.lookup_status
  cases found : changes.lookup "status" with
  | none =>
      have kept : (revision item changes now.text).lookup "status" = some _ :=
        lookup_revision_kept distinct found set (by decide)
      exact ⟨_, item.status, kept, rfl, .inl rfl⟩
  | some wanted =>
      obtain ⟨status, isText, follows⟩ := allowed wanted found
      -- A null would be dropped and the status be missing, but null follows no status.
      have present : wanted.isNull = false := by
        cases wanted with
        | null => cases isText
        | _ => rfl
      have merged : (item.toMembers.merge changes).lookup "status" = some wanted := by
        rw [Members.lookup_merge distinct, found, Option.some_or]
      exact ⟨wanted, status, lookup_revision merged present (by decide), isText, follows⟩

theorem status_of_update : updated.status = item.status ∨
    updated.status ∈ (Workflow.next? item.kind item.status).getD [] := by
  obtain ⟨given, status, found, isText, follows⟩ := lookup_revision_status distinct filled made
  obtain ⟨-, readsAs⟩ := readAs_of_update distinct filled made
  obtain ⟨set, -⟩ := (Item.filled_of_readAs readsAs).lookup_status
  obtain ⟨-, _, same, reads⟩ := Item.readAs_eq_ok_iff.mp readsAs
  cases same
  have read := Form.read_of_readMembers (Forms.ofItemType_proper item.kind).distinct reads
    (Forms.statusField_mem item.kind)
  have present : given ≠ .null := by
    rintro rfl
    cases isText
  obtain ⟨held, choice, kept⟩ := Field.type_read_of_read (Field.find?_of_lookup found) present read
  rw [Forms.text_of_readStatus isText choice] at kept
  obtain rfl : updated.status = status :=
    FieldValue.text.inj (Option.some.inj (set.symm.trans kept))
  exact follows

end

/-- A new item has the clock as both of its stamps. -/
theorem stamps_of_create {kindTag : Value}
    (made : create engine now identifier kindTag data = .ok item) :
    item.record.lookup "createdAt" = some (.moment now) ∧
      item.record.lookup "updatedAt" = some (.moment now) := by
  obtain ⟨-, given, read⟩ := read_of_create made
  obtain ⟨_, same, -, readsAs⟩ := Item.read_eq_ok_iff.mp read
  cases same
  obtain ⟨created, updated⟩ := Forms.stamp_declared item.kind
  have stamped : (creation item.kind given now.text identifier).lookup "createdAt" =
      some (.text now.text) ∧ (creation item.kind given now.text identifier).lookup "updatedAt" =
      some (.text now.text) := by
    simp [creation, Members.lookup_put]
  exact ⟨Item.lookup_of_readAs readsAs created (.moment now) stamped.left,
    Item.lookup_of_readAs readsAs updated (.moment now) stamped.right⟩

end Lifecycle

end WorkItems
