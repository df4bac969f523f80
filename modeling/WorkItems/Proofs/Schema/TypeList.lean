import WorkItems.Proofs.Schema.Nesting
import WorkItems.Proofs.Schema.Walk

namespace WorkItems.Schema

/-! Schemas that have only a type, and lists of types.

Such a schema leaves nothing to check once the type is right, so the verdict is the one on the
type.  A list of types stands for the first of them beside null, and with null in it, for null too.
-/

variable {strict : Bool} {declared expected value : Value} {names : List String}
  {first name key : String} {place : Option String}

/-- Whether a type name is right for a value: it is the name of the kind of the value, or asks for
an integer where the value is a number without a fraction. -/
def Matches (value : Value) (name : String) : Prop :=
  value.kind.name = name ∨
    name = "integer" ∧ ∃ number, value = .number number ∧ number.isIntegral = true

theorem kindName_ne_integer (kind : Kind) : kind.name ≠ "integer" := by
  cases kind with
  | foreign kind => cases kind <;> decide
  | null | boolean | number | string | object | array => decide

theorem matches_null_iff : Matches value "null" ↔ value = .null := by
  cases value with
  | foreign kind mark => cases kind <;> simp [Matches, Value.kind, Kind.name, ForeignKind.name]
  | null | bool | number | text | term | array | tuple | object =>
      simp [Matches, Value.kind, Kind.name]

theorem hasType_iff_matches (named : expected.asText? = some name) :
    hasType value expected = true ↔ Matches value name := by
  have asksFor (known : String) : expected.isText known = true ↔ name = known := by
    rw [Value.isText_iff, named, Option.some.injEq]
  rw [hasType, Matches]
  by_cases integer : name = "integer"
  · rw [if_pos ((asksFor "integer").mpr integer), integer]
    have onNumbers : isIntegral value = true ↔
        ∃ number, value = .number number ∧ number.isIntegral = true := by
      cases value <;> simp [isIntegral]
    rw [onNumbers, or_iff_right (kindName_ne_integer value.kind), and_iff_right rfl]
  · rw [if_neg (integer ∘ (asksFor "integer").mp), asksFor, eq_comm,
      or_iff_left (integer ∘ And.left)]

def typeRules (declared : Value) : Members := [("type", declared)]

theorem valueAt_typeRules (other : key ≠ "type") : (typeRules declared).valueAt key = .null := by
  rw [typeRules, valueAt_cons, if_neg other, valueAt_nil]

theorem scalarIssues_typeRules :
    scalarIssues (typeRules declared) expected value = .ok [] := by
  have onText (text : String) : textIssues (typeRules declared) text = .ok [] := by
    rw [textIssues, valueAt_typeRules (by decide), valueAt_typeRules (by decide),
      valueAt_typeRules (by decide)]
    rfl
  have onNumber (number : Number) : numberIssues (typeRules declared) number = .ok [] := by
    rw [numberIssues, valueAt_typeRules (by decide), valueAt_typeRules (by decide)]
    rfl
  cases value with
  | text text => rw [scalarIssues, onText, ite_self]
  | term term => rw [scalarIssues, onText, ite_self]
  | number number => rw [scalarIssues, onNumber, ite_self]
  | null | bool | array | tuple | object | foreign => rfl

theorem wholeIssues_typeRules :
    wholeIssues (typeRules declared) expected value = .ok [] := by
  have onItems (items : List Value) : arrayIssues (typeRules declared) items = .ok [] := by
    rw [arrayIssues, valueAt_typeRules (by decide), valueAt_typeRules (by decide),
      valueAt_typeRules (by decide)]
    rfl
  cases value with
  | array items | tuple items => rw [wholeIssues, onItems, ite_self]
  | object members =>
      have nothing : missingIssues (typeRules declared) members = .ok [] := rfl
      rw [wholeIssues, nothing, ite_self]
  | null | bool | number | text | term | foreign => rfl

theorem partIssues_typeRules :
    partIssues strict (typeRules declared) expected value = .ok [] := by
  have onItems (items : List Value) :
      gather (itemIssues strict ((typeRules declared).valueAt "items")) items.zipIdx = .ok [] := by
    rw [valueAt_typeRules (by decide)]
    exact gather_eq_nil_iff.mpr fun _ _ => rfl
  cases value with
  | array items | tuple items => rw [partIssues, onItems, ite_self]
  | object members =>
      have unread (key : String) :
          propertySchema ((typeRules declared).valueAt "properties") key = .ok .null := by
        rw [valueAt_typeRules (by decide)]
        rfl
      have allowed : forbidsUndeclared strict (typeRules declared) = false := by
        rw [forbidsUndeclared, valueAt_typeRules (by decide)]
      have nothing : gather
          (fun member => memberIssues strict (typeRules declared) member.1 member.2) members =
            .ok [] := by
        refine gather_eq_nil_iff.mpr fun member _ => ?_
        rw [memberIssues_undeclared (unread member.1), allowed, if_neg Bool.false_ne_true]
      rw [partIssues, nothing, ite_self]
  | null | bool | number | text | term | foreign => rfl

theorem fieldIssues_typeRules : fieldIssues strict (.object (typeRules declared)) value =
    .ok ((settled? (typeRules declared) value).getD []) := by
  have own : ownIssues (typeRules declared) (expectedType (typeRules declared)) value = .ok [] := by
    rw [ownIssues, scalarIssues_typeRules, wholeIssues_typeRules]
    rfl
  rw [fieldIssues_walk]
  cases settled? (typeRules declared) value with
  | some issues => rfl
  | none =>
      simp only [own, partIssues_typeRules]
      rfl

theorem typeRules_decides (named : (expectedType (typeRules declared)).asText? = some name) :
    Decides (fieldIssues strict (.object (typeRules declared)) value)
      (value = .null ∧ acceptsNull (typeRules declared) = true ∨ Matches value name) := by
  have given : (expectedType (typeRules declared)).isNull = false := by
    cases expected : expectedType (typeRules declared) <;> first | rfl | simp_all [Value.asText?]
  refine ⟨_, fieldIssues_typeRules, ?_⟩
  rw [settled?, given, ← hasType_iff_matches named]
  cases value with
  | null =>
      cases acceptsNull (typeRules declared) <;>
        cases hasType .null (expectedType (typeRules declared)) <;> simp [Value.isNull]
  | _ =>
      cases hasType _ (expectedType (typeRules declared)) <;> simp [Value.isNull]

/-- The texts of the issues of a value, as a whole or as a field that goes by a label. -/
def textsAt (strict : Bool) (schema value : Value) : Option String → Except Fault (List String)
  | none => validate strict schema value
  | some label => (fieldIssues strict schema value).map (List.map (Issue.textUnder label))

theorem textsAt_eq_nil_iff : textsAt strict (.object (typeRules declared)) value place = .ok [] ↔
    fieldIssues strict (.object (typeRules declared)) value = .ok [] := by
  cases place with
  | some label => exact map_eq_ok_nil_iff
  | none =>
      have permits : Permits (typeRules declared) value := permits_iff.mpr ⟨rfl, rfl⟩
      rw [fieldIssues_eq_nil_iff, textsAt]
      exact ⟨fun passes => ⟨passes, fun _ => permits⟩, And.left⟩

theorem textsAt_decides {condition : Prop} (unlike : declared.isText "object" = false)
    (decides : Decides (fieldIssues strict (.object (typeRules declared)) value) condition) :
    Decides (textsAt strict (.object (typeRules declared)) value place) condition := by
  have labelled : textsAt strict (.object (typeRules declared)) value place =
      (fieldIssues strict (.object (typeRules declared)) value).map
        (List.map (Issue.textUnder (place.getD "value"))) := by
    cases place with
    | some label => rfl
    | none => exact validate_field (Bool.eq_false_iff.mp unlike)
  obtain ⟨issues, run, empty⟩ := decides
  rw [labelled, run]
  exact ⟨_, rfl, List.map_eq_nil_iff.trans empty⟩

/-- A list of types, each given by its name. -/
def Names (declared : Value) (names : List String) : Prop :=
  ∃ types, declared.asItems? = some types ∧ types.map Value.asText? = names.map some

theorem find?_of_names {types : List Value} (named : types.map Value.asText? = names.map some)
    (leads : names.find? (· != "null") = some first) :
    ∃ type, types.find? (fun type => !type.isText "null") = some type ∧
      type.asText? = some first := by
  induction types generalizing names with
  | nil =>
      cases names with
      | nil => cases leads
      | cons name names => cases named
  | cons type types ih =>
      cases names with
      | nil => cases named
      | cons name names =>
          obtain ⟨head, rest⟩ := List.cons.inj named
          have same : type.isText "null" = (name == "null") := by
            rw [Value.isText, head]
            rfl
          by_cases null : name = "null"
          · rw [List.find?_cons_of_neg (by simp [null])] at leads
            rw [List.find?_cons_of_neg (by simp [same, null])]
            exact ih rest leads
          · rw [List.find?_cons_of_pos (by simp [null])] at leads
            rw [List.find?_cons_of_pos (by simp [same, null])]
            exact ⟨type, rfl, head.trans leads⟩

namespace Names

variable (listed : Names declared names)
include listed

theorem notText : declared.isText "object" = false := by
  obtain ⟨types, items, -⟩ := listed
  cases declared <;> first | rfl | cases items

theorem expectedType_eq (leads : names.find? (· != "null") = some first) :
    (expectedType (typeRules declared)).asText? = some first := by
  obtain ⟨types, items, named⟩ := listed
  obtain ⟨type, found, text⟩ := find?_of_names named leads
  have run : expectedType (typeRules declared) = type := by
    simp [expectedType, typeRules, valueAt_cons, items, found]
  rw [run, text]

theorem acceptsNull_iff : acceptsNull (typeRules declared) = true ↔ "null" ∈ names := by
  obtain ⟨types, items, named⟩ := listed
  have run : acceptsNull (typeRules declared) = types.any (·.isText "null") := by
    simp [acceptsNull, typeRules, valueAt_cons, items]
  have among : some "null" ∈ types.map Value.asText? ↔ "null" ∈ names := by
    simp [named]
  rw [run, List.any_eq_true, ← among, List.mem_map]
  simp only [Value.isText_iff]

theorem decides (leads : names.find? (· != "null") = some first) :
    Decides (textsAt strict (.object (typeRules declared)) value place)
      (value = .null ∧ "null" ∈ names ∨ Matches value first) := by
  rw [← listed.acceptsNull_iff]
  exact textsAt_decides listed.notText (typeRules_decides (listed.expectedType_eq leads))

end Names

/-- A list of types lets a value pass, as a whole or as a field, when it is null and null is listed,
or when it matches the first type beside null. -/
theorem typeList_verdict (strict : Bool) (listed : Names declared names)
    (leads : names.find? (· != "null") = some first) (value : Value) (place : Option String) :
    Decides (textsAt strict (.object (typeRules declared)) value place)
        (value = .null ∧ "null" ∈ names ∨ Matches value first) ∧
      (textsAt strict (.object (typeRules declared)) value place = .ok [] →
        ∃ name ∈ names, Matches value name) ∧
      ((∀ name ∈ names, name ≠ "null" → name = first) →
        (textsAt strict (.object (typeRules declared)) value place = .ok [] ↔
          ∃ name ∈ names, Matches value name)) ∧
      (∀ other others, Names other others → others.find? (· != "null") = some first →
        ("null" ∈ others ↔ "null" ∈ names) →
        (textsAt strict (.object (typeRules other)) value place = .ok [] ↔
          textsAt strict (.object (typeRules declared)) value place = .ok [])) ∧
      ∀ name ≠ "null",
        (textsAt strict (.object (typeRules (.array [.text name]))) value place = .ok [] ↔
          textsAt strict (.object (typeRules (.text name))) value place = .ok []) := by
  have verdict : textsAt strict (.object (typeRules declared)) value place = .ok [] ↔
      value = .null ∧ "null" ∈ names ∨ Matches value first := (listed.decides leads).nothing_iff
  have member : first ∈ names := List.mem_of_find?_eq_some leads
  refine ⟨listed.decides leads, ?_, ?_, ?_, ?_⟩
  · intro passes
    rcases verdict.mp passes with ⟨null, allowed⟩ | matched
    · exact ⟨"null", allowed, matches_null_iff.mpr null⟩
    · exact ⟨first, member, matched⟩
  · intro alone
    refine verdict.trans ⟨?_, ?_⟩
    · rintro (⟨null, allowed⟩ | matched)
      · exact ⟨"null", allowed, matches_null_iff.mpr null⟩
      · exact ⟨first, member, matched⟩
    · rintro ⟨name, among, matched⟩
      by_cases null : name = "null"
      · rw [null] at among matched
        exact .inl ⟨matches_null_iff.mp matched, among⟩
      · exact .inr (alone name among null ▸ matched)
  · intro other others otherListed otherLeads sameNull
    rw [(otherListed.decides otherLeads).nothing_iff, verdict, sameNull]
  · intro name notNull
    have alone : Names (.array [.text name]) [name] := ⟨_, rfl, rfl⟩
    have leading : [name].find? (· != "null") = some name := by simp [notNull]
    rw [(alone.decides leading).nothing_iff, textsAt_eq_nil_iff,
      (typeRules_decides rfl).nothing_iff]
    have refused : acceptsNull (typeRules (.text name)) = false := by
      simp [acceptsNull, typeRules, valueAt_cons, Value.asItems?, Value.isText, Value.asText?,
        notNull]
    simp [refused, Ne.symm notNull]

/-- A count that may be missing, or be told in words. -/
def looseCount : Value := .array [.text "null", .text "integer", .text "string"]

theorem looseCount_verdict :
    Names looseCount ["null", "integer", "string"] ∧
      ["null", "integer", "string"].find? (· != "null") = some "integer" ∧
      Decides (textsAt true (.object (typeRules looseCount)) (.int 5) (some "count"))
        (Value.int 5 = .null ∧ "null" ∈ ["null", "integer", "string"] ∨
          Matches (.int 5) "integer") ∧
      ∃ name ∈ ["null", "integer", "string"], Matches (.int 5) name := by
  have listed : Names looseCount ["null", "integer", "string"] := ⟨_, rfl, rfl⟩
  have verdict := typeList_verdict true listed rfl (.int 5) (some "count")
  exact ⟨listed, rfl, verdict.left, verdict.right.left (eq_ok_of_toOption (by decide +kernel))⟩

/-- A value may match a listed type and still be refused, where another type is listed first. -/
theorem typeOrder_counts :
    Names (.array [.text "string", .text "integer"]) ["string", "integer"] ∧
      (∃ name ∈ ["string", "integer"], Matches (.int 5) name) ∧
      validate false (.object (typeRules (.array [.text "string", .text "integer"]))) (.int 5) =
        .ok ["value: Expected string, got number"] ∧
      validate false (.object (typeRules (.array [.text "integer", .text "string"]))) (.int 5) =
        .ok [] :=
  ⟨⟨_, rfl, rfl⟩, ⟨"integer", by decide, .inr ⟨rfl, _, rfl, rfl⟩⟩,
    eq_ok_of_toOption (by decide +kernel), eq_ok_of_toOption (by decide +kernel)⟩

end WorkItems.Schema
