import WorkItems.Proofs.Schema.Label
import WorkItems.Schema.Builder

namespace WorkItems.Schema

/-! The same schema for a whole value, for a member and for an item.

A member or an item is checked as a field, and its issues are told under its place.  A whole value
is checked as a field too, unless its schema is of the type of objects: then only its members are
looked at, and what `enum` and `const` say of the object is passed over.
-/

variable {strict : Bool} {rules members : Members} {schema expected value : Value} {key : String}

theorem map_eq_ok_nil_iff {α : Type} {outcome : Except Fault (List Issue)} {convert : Issue → α} :
    outcome.map (List.map convert) = .ok [] ↔ outcome = .ok [] := by
  cases outcome with
  | error fault => simp [Except.map]
  | ok issues => simp [Except.map]

theorem membersIssues_singleton (declared : rules.valueAt "properties" = .object [(key, schema)])
    (given : schema.isNull = false) :
    membersIssues strict rules [(key, value)] =
      (fieldIssues strict schema value).map (List.map (.under (.key key))) := by
  have found : propertySchema (rules.valueAt "properties") key = .ok schema := by
    rw [declared, propertySchema_eq, valueAt_cons, if_pos rfl]
  rw [membersIssues_cons, memberIssues_declared found given]
  cases fieldIssues strict schema value with
  | error fault => rfl
  | ok issues => exact congrArg Except.ok (List.append_nil _)

theorem itemsIssues_singleton (position : Nat) :
    itemsIssues strict (.object rules) position [value] =
      (fieldIssues strict (.object rules) value).map (List.map (.under (.index position))) := by
  rw [itemsIssues]
  cases fieldIssues strict (.object rules) value with
  | error fault => rfl
  | ok issues => exact congrArg Except.ok (List.append_nil _)

theorem validate_member :
    validate strict (objectSchema [(key, .object rules)] [] false) (.object [(key, value)]) =
      (fieldIssues strict (.object rules) value).map (List.map (Issue.textUnder key)) := by
  have root : validate strict (objectSchema [(key, .object rules)] [] false)
      (.object [(key, value)]) = (objectIssues strict _ [(key, value)]).map (List.map Issue.text) :=
    validate_object rfl
  rw [root, objectIssues, membersIssues_singleton rfl rfl]
  cases fieldIssues strict (.object rules) value with
  | error fault => rfl
  | ok issues => exact congrArg Except.ok List.map_map

theorem validate_item :
    validate strict (arraySchema (.object rules) .null .null false) (.array [value]) =
      (fieldIssues strict (.object rules) value).map (List.map (Issue.textUnder "value[0]")) := by
  have root : validate strict (.object (arrayRules rules)) (.array [value]) =
      (fieldIssues strict (.object (arrayRules rules)) (.array [value])).map
        (List.map (Issue.textUnder "value")) :=
    validate_field (Bool.eq_false_iff.mp rfl)
  change validate strict (.object (arrayRules rules)) (.array [value]) = _
  rw [root, fieldIssues_array rfl, itemsIssues_singleton]
  cases fieldIssues strict (.object rules) value with
  | error fault => rfl
  | ok issues =>
      refine congrArg Except.ok (List.map_map.trans ?_)
      exact List.map_congr_left fun issue _ => Issue.textUnder_under_index "value" 0 issue

/-- Whether a value is among those that `enum` lists and is the one of `const`, as far as there are
such rules. -/
structure Permits (rules : Members) (value : Value) : Prop where
  listed : ∀ given, rules.lookup "enum" = some given →
    ∃ options, elements given = .ok options ∧ ∃ option ∈ options, value.same option = true
  constant : ∀ wanted, rules.lookup "const" = some wanted → value.same wanted = true

theorem permits_iff : Permits rules value ↔
    enumIssues rules value = .ok [] ∧ constIssues rules value = [] := by
  have listed : enumIssues rules value = .ok [] ↔ ∀ given, rules.lookup "enum" = some given →
      ∃ options, elements given = .ok options ∧ ∃ option ∈ options, value.same option = true := by
    rw [enumIssues]
    cases rules.lookup "enum" with
    | none => simp
    | some given => simp [bind_eq_ok_iff, pure_eq_ok]
  have constant : constIssues rules value = [] ↔
      ∀ wanted, rules.lookup "const" = some wanted → value.same wanted = true := by
    rw [constIssues]
    cases rules.lookup "const" with
    | none => simp
    | some wanted => simp
  rw [listed, constant]
  exact ⟨fun permits => ⟨permits.listed, permits.constant⟩, fun both => ⟨both.left, both.right⟩⟩

theorem fieldIssues_object_iff (typed : (rules.valueAt "type").isText "object" = true) :
    fieldIssues strict (.object rules) (.object members) = .ok [] ↔
      Permits rules (.object members) ∧ objectIssues strict rules members = .ok [] := by
  rw [fieldIssues_object typed, permits_iff]
  constructor
  · intro accepted
    obtain ⟨unlisted, unlistedRun, accepted⟩ := bind_eq_ok_iff.mp accepted
    obtain ⟨inner, innerRun, accepted⟩ := bind_eq_ok_iff.mp accepted
    have nothing := Except.ok.inj accepted
    rw [List.append_eq_nil_iff, List.append_eq_nil_iff] at nothing
    obtain ⟨⟨rfl, same⟩, rfl⟩ := nothing
    exact ⟨⟨unlistedRun, same⟩, innerRun⟩
  · intro accepted
    rcases accepted with ⟨⟨unlistedRun, same⟩, innerRun⟩
    rw [unlistedRun, innerRun, same]
    rfl

/-- A value passes as a field when it passes as a whole and, under the type of objects, is what the
schema says outright. -/
theorem fieldIssues_eq_nil_iff : fieldIssues strict (.object rules) value = .ok [] ↔
    validate strict (.object rules) value = .ok [] ∧
      ((rules.valueAt "type").isText "object" = true → Permits rules value) := by
  by_cases typed : (rules.valueAt "type").isText "object" = true
  · rcases value.object_or_other with ⟨members, rfl⟩ | other
    · rw [fieldIssues_object_iff typed, validate_object typed, map_eq_ok_nil_iff, and_comm]
      exact and_congr_right fun _ => ⟨fun permits _ => permits, fun permits => permits typed⟩
    · rw [fieldIssues_notObject typed other, validate_notObject typed other]
      exact iff_of_false nofun fun passes => nomatch passes.left
  · rw [validate_field typed, map_eq_ok_nil_iff]
    exact ⟨fun passes => ⟨passes, fun impossible => absurd impossible typed⟩, And.left⟩

/-- A value passes as a member or as an item just when it passes as a whole, except that `enum` and
`const` count for an object under the type of objects only there. -/
theorem nested_valid_iff (strict : Bool) (rules : Members) (value : Value) (key : String) :
    (validate strict (objectSchema [(key, .object rules)] [] false) (.object [(key, value)]) =
        .ok [] ↔
      validate strict (.object rules) value = .ok [] ∧
        ((rules.valueAt "type").isText "object" = true → Permits rules value)) ∧
    (validate strict (arraySchema (.object rules) .null .null false) (.array [value]) = .ok [] ↔
      validate strict (.object rules) value = .ok [] ∧
        ((rules.valueAt "type").isText "object" = true → Permits rules value)) := by
  rw [validate_member, validate_item, map_eq_ok_nil_iff, map_eq_ok_nil_iff]
  exact ⟨fieldIssues_eq_nil_iff, fieldIssues_eq_nil_iff⟩

/-- Objects that have to be one certain object. -/
def pinnedRules : Members :=
  [("type", .text "object"), ("const", .object [("a", .int 1)])]

theorem pinned_passes_as_whole :
    validate false (.object pinnedRules) (.object []) = .ok [] ∧
      validate false (objectSchema [("k", .object pinnedRules)] [] false)
        (.object [("k", .object [])]) = .ok ["k: Must be \x7b\"a\": 1\x7d"] ∧
      validate false (arraySchema (.object pinnedRules) .null .null false) (.array [.object []]) =
        .ok ["value[0]: Must be \x7b\"a\": 1\x7d"] :=
  ⟨eq_ok_of_toOption (by decide +kernel), eq_ok_of_toOption (by decide +kernel),
    eq_ok_of_toOption (by decide +kernel)⟩

end WorkItems.Schema
