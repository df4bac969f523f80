import WorkItems.Proofs.Schema.Label

namespace WorkItems.Schema

/-! The walk of the engine, step by step.

A value at a place is settled by its type, or else it is checked itself and then its parts are
walked, the items with their positions and the members with their keys.  Strictness has a part in
the walk of members only.
-/

variable {strict : Bool} {rules members : Members} {expected schema value : Value} {key : String}
  {items : List Value}

/-- The issues of a value whose type leaves nothing else to check. -/
def settled? (rules : Members) (value : Value) : Option (List Issue) :=
  if value.isNull && acceptsNull rules then some []
  else if !(expectedType rules).isNull && !hasType value (expectedType rules) then
    some [.here (.wrongKind (expectedType rules) value.kind)]
  else none

/-- The rules on an array or an object as a whole. -/
def wholeIssues (rules : Members) (expected : Value) : Value → Except Fault (List Issue)
  | .array items | .tuple items =>
    if expected.isText "array" then arrayIssues rules items else .ok []
  | .object members =>
    if expected.isText "object" then missingIssues rules members else .ok []
  | _ => .ok []

def ownIssues (rules : Members) (expected value : Value) : Except Fault (List Issue) := do
  let scalar ← scalarIssues rules expected value
  let unlisted ← enumIssues rules value
  let whole ← wholeIssues rules expected value
  pure (scalar ++ unlisted ++ constIssues rules value ++ whole)

def itemIssues (strict : Bool) : Value → Value × Nat → Except Fault (List Issue)
  | .object rules, (item, position) =>
    (fieldIssues strict (.object rules) item).map (List.map (.under (.index position)))
  | _, _ => .ok []

def partIssues (strict : Bool) (rules : Members) (expected : Value) :
    Value → Except Fault (List Issue)
  | .array items | .tuple items =>
    if expected.isText "array" then
      gather (itemIssues strict (rules.valueAt "items")) items.zipIdx
    else .ok []
  | .object members =>
    if expected.isText "object" then
      gather (fun member => memberIssues strict rules member.1 member.2) members
    else .ok []
  | _ => .ok []

/-- The schema that rules have for a key, or null when there is none. -/
def declaredSchema (rules : Members) (key : String) : Value :=
  match rules.valueAt "properties" with
  | .object schemas => Members.valueAt schemas key
  | _ => .null

theorem propertySchema_eq_declared {declared : Value}
    (run : propertySchema (rules.valueAt "properties") key = .ok declared) :
    declared = declaredSchema rules key := by
  rw [declaredSchema]
  cases properties : rules.valueAt "properties" with
  | object schemas =>
      rw [properties, propertySchema_eq] at run
      exact (Except.ok.inj run).symm
  | null | bool | number | text | term | array | tuple | foreign =>
      rw [properties, propertySchema] at run
      split at run <;> cases run
      rfl

/-- All that becomes of a member: its schema cannot be found, or it has none, or it is walked beside
its schema. -/
theorem memberIssues_cases (rules : Members) (key : String) :
    (∃ fault, ∀ strict value, memberIssues strict rules key value = .error fault) ∨
    (declaredSchema rules key = .null ∧ ∀ strict value, memberIssues strict rules key value =
      .ok (if forbidsUndeclared strict rules then [.here (.undeclared key)] else [])) ∨
    (declaredSchema rules key ≠ .null ∧ ∀ strict value, memberIssues strict rules key value =
      (fieldIssues strict (declaredSchema rules key) value).map
        (List.map (.under (.key key)))) := by
  cases declared : propertySchema (rules.valueAt "properties") key with
  | error fault =>
      refine .inl ⟨fault, fun strict value => ?_⟩
      rw [memberIssues, declared]
      rfl
  | ok schema =>
      obtain rfl := propertySchema_eq_declared declared
      by_cases unknown : declaredSchema rules key = .null
      · rw [unknown] at declared
        exact .inr (.inl ⟨unknown, fun strict value => memberIssues_undeclared declared⟩)
      · have given : (declaredSchema rules key).isNull = false := by
          cases known : declaredSchema rules key <;> first | rfl | exact absurd known unknown
        exact .inr (.inr ⟨unknown, fun strict value => memberIssues_declared declared given⟩)

theorem itemsIssues_eq_gather (items : List Value) (position : Nat) :
    itemsIssues strict schema position items =
      gather (itemIssues strict schema) (items.zipIdx position) := by
  induction items generalizing position with
  | nil => rfl
  | cons item items ih =>
      rw [List.zipIdx_cons, gather, ← ih]
      cases schema with
      | object rules =>
          have step : itemsIssues strict (.object rules) position (item :: items) = (do
              let first ← fieldIssues strict (.object rules) item
              let others ← itemsIssues strict (.object rules) (position + 1) items
              pure (first.map (.under (.index position)) ++ others)) := rfl
          rw [step, itemIssues]
          cases fieldIssues strict (.object rules) item <;> rfl
      | null | bool | number | text | term | array | tuple | foreign => rfl

theorem membersIssues_eq_gather : membersIssues strict rules members =
    gather (fun member => memberIssues strict rules member.1 member.2) members := by
  induction members with
  | nil => rfl
  | cons member members ih => rw [membersIssues_cons, ih, gather, together]

theorem objectIssues_eq_together : objectIssues strict rules members =
    together (missingIssues rules members)
      (gather (fun member => memberIssues strict rules member.1 member.2) members) := by
  rw [objectIssues, membersIssues_eq_gather, together]

theorem innerIssues_eq_together : innerIssues strict rules expected value =
    together (wholeIssues rules expected value) (partIssues strict rules expected value) := by
  cases value with
  | array items | tuple items =>
      rw [innerIssues, wholeIssues, partIssues, itemsIssues_eq_gather]
      split <;> rfl
  | object members =>
      rw [innerIssues, wholeIssues, partIssues, objectIssues_eq_together]
      split <;> rfl
  | null | bool | number | text | term | foreign => rfl

theorem contentIssues_eq_together : contentIssues strict rules expected value =
    together (ownIssues rules expected value) (partIssues strict rules expected value) := by
  rw [contentIssues, ownIssues, innerIssues_eq_together]
  cases scalarIssues rules expected value with
  | error fault => rfl
  | ok scalar =>
      cases enumIssues rules value with
      | error fault => rfl
      | ok unlisted =>
          cases wholeIssues rules expected value with
          | error fault => rfl
          | ok whole =>
              cases partIssues strict rules expected value with
              | error fault => rfl
              | ok parts => simp [together, ok_bind, pure_eq_ok]

theorem fieldIssues_malformed (malformed : ∀ rules, schema ≠ .object rules) :
    fieldIssues strict schema value = .error .notMapping := by
  cases schema with
  | object rules => exact absurd rfl (malformed rules)
  | null | bool | number | text | term | array | tuple | foreign => cases value <;> rfl

theorem fieldIssues_walk : fieldIssues strict (.object rules) value =
    match settled? rules value with
    | some issues => .ok issues
    | none => together (ownIssues rules (expectedType rules) value)
        (partIssues strict rules (expectedType rules) value) := by
  rw [fieldIssues_eq, contentIssues_eq_together, settled?]
  split
  · rfl
  · split <;> rfl

/-- Where a walk goes on, the value has the right type. -/
theorem settled?_eq_none {name : String} (typed : (expectedType rules).isText name = true)
    (named : value.kind.name = name) (present : value.isNull = false) (other : name ≠ "integer") :
    settled? rules value = none := by
  have notInteger : (expectedType rules).isText "integer" = false := by
    refine Bool.eq_false_iff.mpr fun isInteger => other ?_
    rw [Value.isText_iff] at isInteger typed
    exact Option.some.inj (typed.symm.trans isInteger)
  simp [settled?, present, hasType, notInteger, named, typed]

theorem settled?_array (typed : (expectedType rules).isText "array" = true)
    (isArray : value.asItems? = some items) : settled? rules value = none := by
  cases value with
  | array | tuple => exact settled?_eq_none typed rfl rfl (by decide)
  | null | bool | number | text | term | object | foreign => cases isArray

theorem settled?_object (typed : (expectedType rules).isText "object" = true) :
    settled? rules (.object members) = none :=
  settled?_eq_none typed rfl rfl (by decide)

theorem partIssues_array (typed : (expectedType rules).isText "array" = true)
    (isArray : value.asItems? = some items) : partIssues strict rules (expectedType rules) value =
      gather (itemIssues strict (rules.valueAt "items")) items.zipIdx := by
  cases value with
  | array elements | tuple elements =>
      cases isArray
      rw [partIssues, if_pos typed]
  | null | bool | number | text | term | object | foreign => cases isArray

theorem partIssues_object (typed : (expectedType rules).isText "object" = true) :
    partIssues strict rules (expectedType rules) (.object members) =
      gather (fun member => memberIssues strict rules member.1 member.2) members := by
  rw [partIssues, if_pos typed]

end WorkItems.Schema
