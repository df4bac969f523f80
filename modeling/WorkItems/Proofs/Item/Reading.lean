import WorkItems.Item.Basic
import WorkItems.Proofs.Item.Form

namespace WorkItems

/-! When reading items and projects succeeds, and with what.

Every refusal has a reason, so a reading that lists no issue has read all of its parts.
-/

variable {kind : ItemType} {value : Value} {values : List Value} {members : Members}
  {item : Item} {items : List Item} {project : Project} {position : Nat} {name : String}

namespace ItemType

theorem ofText?_text (kind : ItemType) : ofText? kind.text = some kind := by
  cases kind <;> rfl

theorem ofText?_eq_some_iff {text : String} : ofText? text = some kind ↔ text = kind.text := by
  constructor
  · intro found
    have same := List.find?_some found
    exact (beq_iff_eq.mp same).symm
  · rintro rfl
    exact ofText?_text kind

/-- A kind is known by its text alone. -/
theorem ofTag_eq_some_iff {tag : Value} :
    tag.asText?.bind ofText? = some kind ↔ tag.asText? = some kind.text := by
  rw [Option.bind_eq_some_iff]
  constructor
  · intro found
    rcases found with ⟨text, isText, known⟩
    rw [isText, ofText?_eq_some_iff.mp known]
  · intro isText
    exact ⟨kind.text, isText, ofText?_text kind⟩

end ItemType

namespace Item

/-- Whether members have the tag of a kind. -/
def Tagged (members : Members) (kind : ItemType) : Prop :=
  (members.valueAt "type").asText? = some kind.text

theorem readAs_eq_ok_iff : readAs kind value = .ok item ↔
    item.kind = kind ∧ ∃ members, value = .object members ∧
      (Forms.ofItemType kind).readMembers members = .ok item.record := by
  rw [readAs, bind_eq_ok_iff]
  obtain ⟨itemKind, record⟩ := item
  constructor
  · intro accepted
    rcases accepted with ⟨found, read, same⟩
    cases same
    cases value with
    | object members => exact ⟨rfl, members, rfl, read⟩
    | null | bool | number | text | term | array | tuple | foreign => cases read
  · intro accepted
    rcases accepted with ⟨rfl, members, rfl, read⟩
    exact ⟨record, read, rfl⟩

theorem issues_of_readAs {issues : List FieldIssue} (refused : readAs kind value = .error issues) :
    issues ≠ [] := by
  cases value with
  | object members =>
      have read : readAs kind (.object members) =
          ((Forms.ofItemType kind).readMembers members >>= fun record => pure ⟨kind, record⟩) := rfl
      cases outcome : (Forms.ofItemType kind).readMembers members with
      | ok record =>
          rw [read, outcome] at refused
          cases refused
      | error found =>
          rw [read, outcome] at refused
          cases refused
          exact Form.issues_of_readMembers outcome
  | null | bool | number | text | term | array | tuple | foreign =>
      cases refused
      exact List.cons_ne_nil _ _

theorem tagged_iff_lookup : Tagged members kind ↔
    ∃ tag, members.lookup "type" = some tag ∧ tag.asText? = some kind.text := by
  rw [Tagged, Members.valueAt]
  cases members.lookup "type" with
  | none => simp [Value.asText?]
  | some tag => simp

theorem Tagged.unique {other : ItemType} (tagged : Tagged members kind)
    (again : Tagged members other) : kind = other := by
  have known := ItemType.ofTag_eq_some_iff.mpr tagged
  rw [ItemType.ofTag_eq_some_iff.mpr again] at known
  exact (Option.some.inj known).symm

/-- An item is read as what its tag says. -/
theorem read_eq_ok_iff : read value = .ok item ↔
    ∃ members, value = .object members ∧ Tagged members item.kind ∧
      readAs item.kind value = .ok item := by
  constructor
  · intro accepted
    cases value with
    | object members =>
        rw [read] at accepted
        cases found : members.lookup "type" with
        | none =>
            rw [found] at accepted
            cases accepted
        | some tag =>
            simp only [found] at accepted
            cases known : tag.asText?.bind ItemType.ofText? with
            | none =>
                rw [known] at accepted
                cases accepted
            | some kind =>
                simp only [known] at accepted
                cases read : readAs kind (.object members) with
                | error issues =>
                    rw [read] at accepted
                    cases accepted
                | ok result =>
                    rw [read] at accepted
                    cases accepted
                    obtain ⟨rfl, -⟩ := readAs_eq_ok_iff.mp read
                    have isText := ItemType.ofTag_eq_some_iff.mp known
                    exact ⟨members, rfl, tagged_iff_lookup.mpr ⟨tag, found, isText⟩, read⟩
    | null | bool | number | text | term | array | tuple | foreign => cases accepted
  · intro accepted
    rcases accepted with ⟨members, rfl, tagged, read⟩
    obtain ⟨tag, found, isText⟩ := tagged_iff_lookup.mp tagged
    simp only [Item.read, found, ItemType.ofTag_eq_some_iff.mpr isText, read]

end Item

namespace Project

theorem readEach_eq_iff : readEach kind position values = (items, []) ↔
    values.map (Item.readAs kind) = items.map .ok := by
  induction values generalizing position items with
  | nil => simp [readEach, eq_comm]
  | cons value values ih =>
      rw [readEach, List.map_cons]
      cases read : Item.readAs kind value with
      | error issues =>
          have some := Item.issues_of_readAs read
          cases items <;> simp [some]
      | ok item =>
          cases items with
          | nil => simp
          | cons first rest =>
              have later : readEach kind (position + 1) values = (rest, []) ↔
                  values.map (Item.readAs kind) = rest.map .ok := ih
              rw [Prod.ext_iff] at later
              simp only [List.map_cons, List.cons.injEq, Except.ok.injEq, Prod.mk.injEq, ← later,
                and_assoc]

theorem readList_eq_iff : readList kind name members = (items, []) ↔
    ∃ value values, members.lookup name = some value ∧ listOf? value = some values ∧
      values.map (Item.readAs kind) = items.map .ok := by
  rw [readList]
  cases members.lookup name with
  | none => simp
  | some value =>
      cases listed : listOf? value with
      | none => simp [listed]
      | some values =>
          have each : readEach kind 0 values = (items, []) ↔
              values.map (Item.readAs kind) = items.map .ok := readEach_eq_iff
          rw [Prod.ext_iff] at each
          simpa [listed] using each

theorem readMetadata_eq_iff {record : Record} : readMetadata members = (record, []) ↔
    ∃ inner, members.lookup "metadata" = some (.object inner) ∧
      Forms.metadata.readMembers inner = .ok record := by
  rw [readMetadata]
  cases members.lookup "metadata" with
  | none => simp
  | some value =>
      cases value with
      | object inner =>
          have read : Forms.metadata.read "ProjectMetadata" (.object inner) =
              Forms.metadata.readMembers inner := rfl
          simp only [read]
          cases outcome : Forms.metadata.readMembers inner with
          | error issues => simpa [outcome] using fun _ => Form.issues_of_readMembers outcome
          | ok found => simp [outcome]
      | null | bool | number | text | term | array | tuple | foreign => simp [Form.read]

theorem undeclared_eq_nil_iff :
    undeclared members = [] ↔ ∀ key ∈ members.keys, key ∈ fieldNames := by
  simp [undeclared, Members.keys]

theorem read_eq_ok_iff : read value = .ok project ↔
    ∃ members, value = .object members ∧
      readList .feature "features" members = (project.features, []) ∧
      readList .bug "bugs" members = (project.bugs, []) ∧
      readList .task "tasks" members = (project.tasks, []) ∧
      readMetadata members = (project.metadata, []) ∧ undeclared members = [] := by
  cases value with
  | object members =>
      rw [read, accept_eq_ok_iff]
      obtain ⟨features, bugs, tasks, metadata⟩ := project
      simp only [List.append_eq_nil_iff, Prod.ext_iff, Value.object.injEq, exists_eq_left',
        Project.mk.injEq]
      constructor
      · intro accepted
        rcases accepted with
          ⟨⟨⟨⟨⟨noFeature, noBug⟩, noTask⟩, noMetadata⟩, noOther⟩, rfl, rfl, rfl, rfl⟩
        exact ⟨⟨rfl, noFeature⟩, ⟨rfl, noBug⟩, ⟨rfl, noTask⟩, ⟨rfl, noMetadata⟩, noOther⟩
      · intro accepted
        rcases accepted with
          ⟨⟨rfl, noFeature⟩, ⟨rfl, noBug⟩, ⟨rfl, noTask⟩, ⟨rfl, noMetadata⟩, noOther⟩
        exact ⟨⟨⟨⟨⟨noFeature, noBug⟩, noTask⟩, noMetadata⟩, noOther⟩, rfl, rfl, rfl, rfl⟩
  | null | bool | number | text | term | array | tuple | foreign =>
      constructor
      · intro impossible
        cases impossible
      · intro accepted
        rcases accepted with ⟨members, impossible, -⟩
        cases impossible

end Project

end WorkItems
