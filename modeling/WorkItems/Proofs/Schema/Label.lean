import WorkItems.Proofs.Schema.Correctness

namespace WorkItems.Schema

/-! Issues as they are told from further out.

An issue in a member or in an item of a value is told like an issue of that part alone, under a
label that leads to the part.  An object has issues of its own, which are told without a label, or
behind a label and a point.
-/

variable {strict : Bool} {rules members : Members} {value : Value} {key label : String}
  {issue : Issue} {issues : List Issue}

namespace Issue

theorem textUnder_under_index (label : String) (position : Nat) (issue : Issue) :
    (issue.under (.index position)).textUnder label =
      issue.textUnder (label ++ "[" ++ toString position ++ "]") := by
  simp only [textUnder, under, Path.suffix, String.append_assoc]

/-- Whether an issue is one of an object: it lies in a member, or is about the members as a
whole. -/
def OfObject (issue : Issue) : Prop :=
  (∃ key path, issue.path = .key key :: path) ∨
    issue.path = [] ∧ issue.violation.isStructural = true

theorem OfObject.textUnder_eq (ofObject : issue.OfObject) :
    issue.textUnder label = label ++ "." ++ issue.text := by
  obtain ⟨path, violation⟩ := issue
  rcases ofObject with ⟨key, rest, inMember⟩ | ⟨onWhole, structural⟩
  · obtain rfl : path = .key key :: rest := inMember
    simp only [textUnder, text, Path.suffix, String.append_assoc]
  · obtain rfl : path = [] := onWhole
    have separator : violation.separator = "." := if_pos structural
    simp only [textUnder, text, Path.suffix, separator, String.append_empty]

end Issue

theorem missingIssues_eq_map (run : missingIssues rules members = .ok issues) :
    ∃ missing : List Value, missing.map (fun name => .here (.missing name)) = issues := by
  rw [missingIssues] at run
  split at run
  all_goals
    obtain ⟨names, -, run⟩ := bind_eq_ok_iff.mp run
    obtain ⟨missing, -, collected⟩ := bind_eq_ok_iff.mp run
    exact ⟨missing, Except.ok.inj collected⟩

theorem missingIssues_ofObject (run : missingIssues rules members = .ok issues) :
    ∀ issue ∈ issues, issue.OfObject := by
  obtain ⟨missing, rfl⟩ := missingIssues_eq_map run
  intro issue member
  obtain ⟨name, -, rfl⟩ := List.mem_map.mp member
  exact .inr ⟨rfl, rfl⟩

def memberIssues (strict : Bool) (rules : Members) (key : String) (value : Value) :
    Except Fault (List Issue) := do
  let schema ← propertySchema (rules.valueAt "properties") key
  if schema.isNull then
    pure (if forbidsUndeclared strict rules then [.here (.undeclared key)] else [])
  else do
    let issues ← fieldIssues strict schema value
    pure (issues.map (.under (.key key)))

theorem memberIssues_declared {schema : Value}
    (declared : propertySchema (rules.valueAt "properties") key = .ok schema)
    (given : schema.isNull = false) :
    memberIssues strict rules key value =
      (fieldIssues strict schema value).map (List.map (.under (.key key))) := by
  rw [memberIssues, declared, ok_bind, given]
  cases fieldIssues strict schema value <;> rfl

theorem memberIssues_undeclared
    (undeclared : propertySchema (rules.valueAt "properties") key = .ok .null) :
    memberIssues strict rules key value =
      .ok (if forbidsUndeclared strict rules then [.here (.undeclared key)] else []) := by
  rw [memberIssues, undeclared, ok_bind]
  rfl

theorem membersIssues_cons : membersIssues strict rules ((key, value) :: members) = (do
    let first ← memberIssues strict rules key value
    let others ← membersIssues strict rules members
    pure (first ++ others)) := by
  rw [membersIssues, memberIssues]
  cases propertySchema (rules.valueAt "properties") key with
  | error fault => rfl
  | ok schema =>
      rw [ok_bind, ok_bind]
      cases schema.isNull with
      | true => rfl
      | false => cases fieldIssues strict schema value <;> rfl

theorem memberIssues_ofObject (run : memberIssues strict rules key value = .ok issues) :
    ∀ issue ∈ issues, issue.OfObject := by
  obtain ⟨schema, -, run⟩ := bind_eq_ok_iff.mp run
  intro issue member
  cases undeclared : schema.isNull with
  | true =>
      rw [undeclared] at run
      cases run
      cases forbidden : forbidsUndeclared strict rules with
      | true =>
          rw [forbidden] at member
          obtain rfl := List.mem_singleton.mp member
          exact .inr ⟨rfl, rfl⟩
      | false =>
          rw [forbidden] at member
          cases member
  | false =>
      rw [undeclared] at run
      obtain ⟨found, -, collected⟩ := bind_eq_ok_iff.mp run
      cases collected
      obtain ⟨inner, -, rfl⟩ := List.mem_map.mp member
      exact .inl ⟨key, inner.path, rfl⟩

theorem membersIssues_ofObject (run : membersIssues strict rules members = .ok issues) :
    ∀ issue ∈ issues, issue.OfObject := by
  induction members generalizing issues with
  | nil =>
      cases run
      exact fun issue member => nomatch member
  | cons member rest ih =>
      rw [membersIssues_cons] at run
      obtain ⟨first, firstRun, run⟩ := bind_eq_ok_iff.mp run
      obtain ⟨others, othersRun, collected⟩ := bind_eq_ok_iff.mp run
      cases collected
      intro issue among
      rcases List.mem_append.mp among with inFirst | inOthers
      · exact memberIssues_ofObject firstRun issue inFirst
      · exact ih othersRun issue inOthers

theorem objectIssues_ofObject (run : objectIssues strict rules members = .ok issues) :
    ∀ issue ∈ issues, issue.OfObject := by
  obtain ⟨missing, missingRun, run⟩ := bind_eq_ok_iff.mp run
  obtain ⟨each, eachRun, collected⟩ := bind_eq_ok_iff.mp run
  cases collected
  intro issue among
  rcases List.mem_append.mp among with inMissing | inEach
  · exact missingIssues_ofObject missingRun issue inMissing
  · exact membersIssues_ofObject eachRun issue inEach

/-- Behind a label, the issues of an object are told after a point. -/
theorem map_textUnder_objectIssues (run : objectIssues strict rules members = .ok issues)
    (label : String) :
    issues.map (Issue.textUnder label) =
      (issues.map Issue.text).map fun error => label ++ "." ++ error := by
  rw [List.map_map]
  refine List.map_congr_left fun issue member => ?_
  have ofObject := objectIssues_ofObject run issue member
  exact ofObject.textUnder_eq

/-- The rules of an array schema that is built without limits. -/
def arrayRules (rules : Members) : Members :=
  [("type", .text "array"), ("items", .object rules)]

theorem fieldIssues_array {items : List Value} (isArray : value.asItems? = some items) :
    fieldIssues strict (.object (arrayRules rules)) value =
      itemsIssues strict (.object rules) 0 items := by
  have right : hasType value (expectedType (arrayRules rules)) = true :=
    hasType_array.mpr ⟨items, isArray⟩
  have content : contentIssues strict (arrayRules rules) (.text "array") value =
      itemsIssues strict (.object rules) 0 items := by
    rw [contentIssues, scalarIssues_array isArray, innerIssues_array isArray]
    change (itemsIssues strict (.object rules) 0 items >>= fun each => pure ([] ++ each)) >>=
      (fun inner => pure ([] ++ [] ++ [] ++ inner)) = _
    cases itemsIssues strict (.object rules) 0 items <;> rfl
  have notNull : acceptsNull (arrayRules rules) = false := rfl
  rw [fieldIssues_eq, notNull, Bool.and_false, if_neg Bool.false_ne_true, right, Bool.not_true,
    Bool.and_false, if_neg Bool.false_ne_true]
  exact content

theorem fieldIssues_notArray (other : value.asItems? = none) :
    fieldIssues strict (.object (arrayRules rules)) value =
      .ok [.here (.wrongKind (.text "array") value.kind)] := by
  have wrong : hasType value (expectedType (arrayRules rules)) = false := by
    refine Bool.eq_false_iff.mpr fun right => ?_
    obtain ⟨items, found⟩ := hasType_array.mp right
    rw [other] at found
    cases found
  have notNull : acceptsNull (arrayRules rules) = false := rfl
  rw [fieldIssues_eq, notNull, Bool.and_false, if_neg Bool.false_ne_true, wrong]
  rfl

theorem validate_field (other : ¬ (rules.valueAt "type").isText "object" = true) :
    validate strict (.object rules) value =
      (fieldIssues strict (.object rules) value).map (List.map (Issue.textUnder "value")) := by
  rw [validate, membersOf, ok_bind, if_neg other]
  cases fieldIssues strict (.object rules) value <;> rfl

section

variable (typed : (rules.valueAt "type").isText "object" = true)

include typed

/-- Under the type of objects, the issues of an object are told without a label. -/
theorem validate_object : validate strict (.object rules) (.object members) =
    (objectIssues strict rules members).map (List.map Issue.text) := by
  rw [validate, membersOf, ok_bind, if_pos typed]
  change (objectIssues strict rules members >>= fun issues => pure (issues.map Issue.text)) = _
  cases objectIssues strict rules members <;> rfl

theorem validate_notObject (other : ∀ members, value ≠ .object members) :
    validate strict (.object rules) value =
      .ok [(Issue.here (.wrongRoot (rules.valueAt "type") value.kind)).text] := by
  rw [validate, membersOf, ok_bind, if_pos typed]
  cases value with
  | object members => exact absurd rfl (other members)
  | null | bool | number | text | term | array | tuple | foreign => rfl

theorem type_of_typed : (expectedType rules).asText? = some "object" ∧
    acceptsNull rules = false := by
  obtain ⟨declared, isText⟩ : ∃ declared, rules.valueAt "type" = declared := ⟨_, rfl⟩
  rw [isText, Value.isText_iff] at typed
  cases declared with
  | text name =>
      obtain rfl : name = "object" := Option.some.inj typed
      simp [expectedType, acceptsNull, isText, Value.asItems?, Value.isText, Value.asText?]
  | term name =>
      have same : name.text = "object" := Option.some.inj typed
      simp [expectedType, acceptsNull, isText, Value.asItems?, Value.isText, Value.asText?, same]
  | null | bool | number | array | tuple | object | foreign => cases typed

theorem hasType_of_typed : hasType value (expectedType rules) = true ↔
    ∃ members, value = .object members := by
  obtain ⟨isObject, -⟩ := type_of_typed typed
  rw [← hasType_object, hasType_named (by decide), hasType, Value.isText, Value.isText, isObject,
    if_neg (by decide), beq_iff_eq, Option.some.injEq, eq_comm]

/-- As a field, an object is checked for what its schema says outright as well as for its
members. -/
theorem fieldIssues_object : fieldIssues strict (.object rules) (.object members) = (do
    let unlisted ← enumIssues rules (.object members)
    let inner ← objectIssues strict rules members
    pure (unlisted ++ constIssues rules (.object members) ++ inner)) := by
  obtain ⟨isObject, -⟩ := type_of_typed typed
  have right : hasType (.object members) (expectedType rules) = true :=
    (hasType_of_typed typed).mpr ⟨members, rfl⟩
  rw [fieldIssues_eq, right, Bool.not_true, Bool.and_false, if_neg Bool.false_ne_true]
  change (if false = true then _ else _) = _
  rw [if_neg Bool.false_ne_true, contentIssues, innerIssues,
    if_pos (Value.isText_iff.mpr isObject)]
  rfl

theorem fieldIssues_notObject (other : ∀ members, value ≠ .object members) :
    fieldIssues strict (.object rules) value =
      .ok [.here (.wrongKind (expectedType rules) value.kind)] := by
  obtain ⟨isObject, refusesNull⟩ := type_of_typed typed
  have declared : (expectedType rules).isNull = false := by
    cases named : expectedType rules with
    | null =>
        rw [named] at isObject
        cases isObject
    | _ => rfl
  have wrong : hasType value (expectedType rules) = false := by
    refine Bool.eq_false_iff.mpr fun right => ?_
    obtain ⟨members, isMembers⟩ := (hasType_of_typed typed).mp right
    exact other members isMembers
  rw [fieldIssues_eq, refusesNull, Bool.and_false, if_neg Bool.false_ne_true, declared, wrong]
  rfl

end

end WorkItems.Schema
