import WorkItems.Proofs.Schema.Correctness
import WorkItems.Schema.Draft7

namespace WorkItems.Draft7

/-! What each rule of draft 7 says of a value.

On plain values, draft 7 sees the same types and the same equality as the schema engine; what is
left of each rule is one condition on the value.
-/

open Schema

variable {value other : Value} {items : List Value} {members all rules : Members}

theorem equalItems_eq (each : ∀ item ∈ items, ∀ other, equal item other = item.same other)
    (others : List Value) : equalItems items others = Value.sameItems items others := by
  induction items generalizing others with
  | nil => cases others <;> rfl
  | cons item items ih =>
      cases others with
      | nil => rfl
      | cons other others =>
          rw [equalItems, Value.sameItems, each item List.mem_cons_self,
            ih fun later member => each later (List.mem_cons_of_mem _ member)]

theorem equalMembers_eq
    (each : ∀ member ∈ members, ∀ other, equal member.2 other = member.2.same other)
    (others : Members) : equalMembers members others = Value.sameMembers members others := by
  induction members with
  | nil => rfl
  | cons member rest ih =>
      obtain ⟨key, value⟩ := member
      rw [equalMembers, Value.sameMembers,
        ih fun later found => each later (List.mem_cons_of_mem _ found)]
      cases others.lookup key with
      | none => rfl
      | some other => simp only [each (key, value) List.mem_cons_self]

theorem equal_eq_same (plain : value.Plain) (other : Value) :
    equal value other = value.same other := by
  induction value using Value.byParts generalizing other with
  | null | bool | number | text => rfl
  | array items ih =>
      have each := fun item member => ih item member (plain.ofArray item member)
      rw [equal, Value.same]
      cases other.asItems? with
      | none => rfl
      | some others => exact equalItems_eq each others
  | object members ih =>
      have each := fun member found => ih member found (plain.ofObject member found)
      cases other with
      | object others => simp only [equal, Value.same, equalMembers_eq each]
      | _ => rfl
  | tuple | term | foreign => exact absurd plain.whole id

theorem allDistinct_eq (plain : ∀ item ∈ items, item.Plain) :
    allDistinct items = Value.allDistinct items := by
  induction items with
  | nil => rfl
  | cons item items ih =>
      have first : equal item = item.same := funext (equal_eq_same (plain item List.mem_cons_self))
      rw [allDistinct, Value.allDistinct, first,
        ih fun later member => plain later (List.mem_cons_of_mem _ member)]

theorem hasType_eq (plain : value.Plain) (name : String) :
    hasType value (.text name) = Schema.hasType value (.text name) := by
  by_cases array : name = "array"
  · subst array
    cases value with
    | tuple => exact absurd plain.whole id
    | foreign => exact absurd plain.whole id
    | _ => rfl
  · by_cases integer : name = "integer"
    · subst integer
      rfl
    · have named : hasType value (.text name) =
          (value.kind.name == name && value.kind != .array) := by
        simp only [hasType, Value.asText?]
      rw [named, Bool.eq_iff_iff, hasType_named integer, Bool.and_eq_true, beq_iff_eq, bne_iff_ne,
        and_iff_left_iff_imp]
      intro same isArray
      exact array (by rw [← same, isArray]; rfl)

/-- The issues that one entry of a schema leads to. -/
def entryIssues (all : Members) (name : String) (rule value : Value) : List Issue :=
  match name, value with
  | "properties", .object members => match rule with
    | .object schemas => propertiesIssues schemas members
    | _ => []
  | "items", .array items => itemsIssues (schemaIssues rule) 0 items
  | name, value => ruleIssues all name rule value

theorem rulesIssues_eq_flatMap : rulesIssues all rules value =
    rules.flatMap fun entry => entryIssues all entry.1 entry.2 value := by
  induction rules with
  | nil => rfl
  | cons entry rest ih =>
      obtain ⟨name, rule⟩ := entry
      conv => lhs; unfold rulesIssues
      rw [ih]
      rfl

theorem rulesIssues_nil_iff : rulesIssues all rules value = [] ↔
    ∀ entry ∈ rules, entryIssues all entry.1 entry.2 value = [] := by
  rw [rulesIssues_eq_flatMap, List.flatMap_eq_nil_iff]

theorem whenLimit_nil_iff {given : Option Number} {limit : Number}
    {exceeded : Number → Number → Bool} {violation : Violation} :
    whenLimit given (.number limit) exceeded violation = [] ↔
      ∀ number ∈ given, exceeded number limit = false := by
  cases given with
  | none => simp [whenLimit]
  | some number => cases found : exceeded number limit <;> simp [whenLimit, Value.asNumber?, found]

theorem entry_type {type : Value} : entryIssues all "type" type value = [] ↔
    (typesOf type).any (hasType value) = true := by
  change (if (typesOf type).any (hasType value) then [] else [_]) = [] ↔ _
  cases (typesOf type).any (hasType value) <;> simp

theorem entry_type_text (plain : value.Plain) {name : String} :
    entryIssues all "type" (.text name) value = [] ↔
      Schema.hasType value (.text name) = true := by
  rw [entry_type, ← hasType_eq plain]
  simp [typesOf]

theorem entry_type_orNull (plain : value.Plain) {name : String} :
    entryIssues all "type" (.array [.text name, .text "null"]) value = [] ↔
      Schema.hasType value (.text name) = true ∨ value = .null := by
  have null : hasType value (.text "null") = true ↔ value = .null := by
    rw [hasType_eq plain, hasType_named (by decide)]
    cases value with
    | foreign => exact absurd plain.whole id
    | _ => simp [Value.kind, Kind.name]
  rw [entry_type, ← hasType_eq plain, ← null]
  simp [typesOf]

theorem entry_format {format : Value} : entryIssues all "format" format value = [] := rfl

theorem entry_minLength {limit : Number} :
    entryIssues all "minLength" (.number limit) value = [] ↔
      ∀ text, value.asText? = some text → (Number.int text.length).less limit = false := by
  change whenLimit (textLength? value) (.number limit) (fun a b => a.less b) _ = [] ↔ _
  rw [whenLimit_nil_iff, textLength?]
  simp

theorem entry_maxLength {limit : Number} :
    entryIssues all "maxLength" (.number limit) value = [] ↔
      ∀ text, value.asText? = some text → limit.less (.int text.length) = false := by
  change whenLimit (textLength? value) (.number limit) (fun a b => b.less a) _ = [] ↔ _
  rw [whenLimit_nil_iff, textLength?]
  simp

theorem entry_pattern {written : String} :
    entryIssues all "pattern" (.text written) value = [] ↔
      ∀ text, value.asText? = some text →
        (Pattern.ofText? written.toList).all (fun meaning => meaning.foundIn text) = true := by
  change patternIssues value (.text written) = [] ↔ _
  rw [patternIssues]
  cases value.asText? with
  | none => simp
  | some text =>
      simp only [Value.asText?]
      cases Pattern.ofText? written.toList <;> simp

theorem entry_minimum {limit : Number} :
    entryIssues all "minimum" (.number limit) value = [] ↔
      ∀ number, value = .number number → number.less limit = false := by
  change whenLimit (asNumber? value) (.number limit) (fun a b => a.less b) _ = [] ↔ _
  rw [whenLimit_nil_iff]
  cases value <;> simp [asNumber?]

theorem entry_maximum {limit : Number} :
    entryIssues all "maximum" (.number limit) value = [] ↔
      ∀ number, value = .number number → limit.less number = false := by
  change whenLimit (asNumber? value) (.number limit) (fun a b => b.less a) _ = [] ↔ _
  rw [whenLimit_nil_iff]
  cases value <;> simp [asNumber?]

theorem entry_minItems {limit : Number} :
    entryIssues all "minItems" (.number limit) value = [] ↔
      ∀ items, value = .array items → (Number.int items.length).less limit = false := by
  change whenLimit (itemCount? value) (.number limit) (fun a b => a.less b) _ = [] ↔ _
  rw [whenLimit_nil_iff]
  cases value <;> simp [itemCount?]

theorem entry_maxItems {limit : Number} :
    entryIssues all "maxItems" (.number limit) value = [] ↔
      ∀ items, value = .array items → limit.less (.int items.length) = false := by
  change whenLimit (itemCount? value) (.number limit) (fun a b => b.less a) _ = [] ↔ _
  rw [whenLimit_nil_iff]
  cases value <;> simp [itemCount?]

theorem entry_uniqueItems :
    entryIssues all "uniqueItems" (.bool true) value = [] ↔
      ∀ items, value = .array items → allDistinct items = true := by
  cases value with
  | array items =>
      change (if (true && !allDistinct items) = true then [_] else []) = [] ↔ _
      cases distinct : allDistinct items <;> simp [distinct]
  | _ => exact iff_of_true rfl (fun items same => nomatch same)

theorem itemsIssues_nil_iff {issuesOf : Value → List Issue} (position : Nat) :
    itemsIssues issuesOf position items = [] ↔ ∀ item ∈ items, issuesOf item = [] := by
  induction items generalizing position with
  | nil => simp [itemsIssues]
  | cons item items ih =>
      rw [itemsIssues, List.append_eq_nil_iff, List.map_eq_nil_iff, ih, List.forall_mem_cons]

theorem entry_items {schema : Value} :
    entryIssues all "items" schema value = [] ↔
      ∀ items, value = .array items → ∀ item ∈ items, schemaIssues schema item = [] := by
  cases value with
  | array items =>
      change itemsIssues (schemaIssues schema) 0 items = [] ↔ _
      rw [itemsIssues_nil_iff]
      simp
  | _ => exact iff_of_true rfl (fun items same => nomatch same)

theorem entry_enum {options : List String} (plain : value.Plain) :
    entryIssues all "enum" (.array (options.map .text)) value = [] ↔
      ∃ option ∈ options, value.asText? = some option := by
  change (if (options.map Value.text).any (equal value) then [] else [_]) = [] ↔ _
  have same : equal value = value.same := funext (equal_eq_same plain)
  have listed : (options.map Value.text).any value.same = true ↔
      ∃ option ∈ options, value.asText? = some option := by
    simp [Value.same_text]
  rw [same, ← listed]
  cases (options.map Value.text).any value.same <;> simp

theorem entry_const {wanted : Value} (plain : value.Plain) :
    entryIssues all "const" wanted value = [] ↔ value.same wanted = true := by
  change (if equal value wanted then [] else [_]) = [] ↔ _
  rw [equal_eq_same plain]
  cases value.same wanted <;> simp

theorem entry_required {names : List String} :
    entryIssues all "required" (.array (names.map .text)) value = [] ↔
      ∀ members, value = .object members → ∀ name ∈ names, Members.hasKey members name = true := by
  cases value with
  | object members =>
      change requiredIssues (.object members) (.array (names.map .text)) = [] ↔ _
      simp [requiredIssues, Value.asText?]
  | null | bool | number | text | term | array | tuple | foreign =>
      refine iff_of_true rfl fun others same => ?_
      cases same

theorem propertiesIssues_nil_iff {schemas : Members} :
    propertiesIssues schemas members = [] ↔
      ∀ entry ∈ schemas, ∀ value, members.lookup entry.1 = some value →
        schemaIssues entry.2 value = [] := by
  induction schemas with
  | nil => simp [propertiesIssues]
  | cons entry rest ih =>
      rw [propertiesIssues, List.append_eq_nil_iff, ih, List.forall_mem_cons]
      cases members.lookup entry.1 <;> simp

theorem entry_properties {schemas : Members} :
    entryIssues all "properties" (.object schemas) value = [] ↔
      ∀ members, value = .object members → ∀ entry ∈ schemas, ∀ value,
        members.lookup entry.1 = some value → schemaIssues entry.2 value = [] := by
  cases value with
  | object members =>
      change propertiesIssues schemas members = [] ↔ _
      rw [propertiesIssues_nil_iff]
      simp
  | null | bool | number | text | term | array | tuple | foreign =>
      refine iff_of_true rfl fun others same => ?_
      cases same

theorem entry_additional {schemas : Members}
    (declared : all.lookup "properties" = some (.object schemas)) :
    entryIssues all "additionalProperties" (.bool false) value = [] ↔
      ∀ members, value = .object members → ∀ member ∈ members,
        Members.hasKey schemas member.1 = true := by
  cases value with
  | object members =>
      change (if (undeclaredKeys all members).isEmpty then [] else [_]) = [] ↔ _
      have schemasOf : (Members.valueAt all "properties").asMembers?.getD [] = schemas := by
        rw [Members.valueAt, declared]
        rfl
      have empty : (undeclaredKeys all members).isEmpty = true ↔
          ∀ member ∈ members, Members.hasKey schemas member.1 = true := by
        rw [List.isEmpty_iff, List.eq_nil_iff_forall_not_mem, undeclaredKeys, schemasOf]
        simp [Members.keys]
      have whole : (∀ others, Value.object members = .object others →
          ∀ member ∈ others, Members.hasKey schemas member.1 = true) ↔
          (undeclaredKeys all members).isEmpty = true := by
        rw [empty]
        simp
      rw [whole]
      cases (undeclaredKeys all members).isEmpty <;> simp
  | null | bool | number | text | term | array | tuple | foreign =>
      refine iff_of_true rfl fun others same => ?_
      cases same

/-- Of the other rules in a schema, only the declared properties matter to a rule. -/
theorem entryIssues_congr {others : Members} {name : String} {rule : Value}
    (same : all.valueAt "properties" = others.valueAt "properties") :
    entryIssues all name rule value = entryIssues others name rule value := by
  have sameKeys : undeclaredKeys all = undeclaredKeys others := by
    funext members
    rw [undeclaredKeys, undeclaredKeys, same]
  unfold entryIssues
  split
  · rfl
  · rfl
  · unfold ruleIssues
    split
    any_goals rfl
    rw [sameKeys]

/-- Rules other than the type and the lists of what is allowed say nothing of null. -/
theorem entry_null {name : String} {rule : Value} (notType : name ≠ "type")
    (notEnum : name ≠ "enum") (notConst : name ≠ "const") :
    entryIssues all name rule .null = [] := by
  unfold entryIssues
  split
  · next same => cases same
  · next same => cases same
  · unfold ruleIssues
    split
    · exact absurd rfl notType
    · exact absurd rfl notEnum
    · exact absurd rfl notConst
    any_goals rfl
    cases rule with
    | bool flag => cases flag <;> rfl
    | _ => rfl

end WorkItems.Draft7
