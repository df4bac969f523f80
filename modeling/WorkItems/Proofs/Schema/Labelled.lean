import WorkItems.Proofs.Schema.Direct

namespace WorkItems.Schema

/-! Errors that are put together with their label where they are found.

The engine notes where an issue is, and a label comes in front of the place only when the issue is
told.  `fieldErrors` is the walk that carries the label along instead: an item goes by the label of
its array with its position in brackets, a member by its key, and what is told of an object is told
again behind the label of the object and a point.  Both tell the same errors in the same order.
-/

variable {strict : Bool} {rules members : Members} {schema expected value : Value}
  {items : List Value} {issues : List Issue} {label : String}

/-- What a labelled value is told about itself. -/
def said (label : String) (issue : Issue) : String :=
  label ++ ": " ++ issue.violation.message

mutual

/-- The errors of a value that goes by a label. -/
def fieldErrors (strict : Bool) : Value → Value → String → Except Fault (List String)
  | schema, value, label => do
    let rules ← membersOf schema
    match settled? rules value with
    | some issues => pure (issues.map (said label))
    | none =>
      let expected := expectedType rules
      let scalar ← scalarIssues rules expected value
      let unlisted ← enumIssues rules value
      let inner ← match value with
        | .array items =>
          if expected.isText "array" then do
            let whole ← arrayIssues rules items
            let each ← itemsErrors strict (rules.valueAt "items") label 0 items
            pure (whole.map (said label) ++ each)
          else pure []
        | .tuple items =>
          if expected.isText "array" then do
            let whole ← arrayIssues rules items
            let each ← itemsErrors strict (rules.valueAt "items") label 0 items
            pure (whole.map (said label) ++ each)
          else pure []
        | .object members =>
          if expected.isText "object" then do
            let missing ← missingIssues rules members
            let each ← membersErrors strict rules members
            let errors := missing.map (fun issue => issue.violation.message) ++ each
            pure (errors.map fun error => label ++ "." ++ error)
          else pure []
        | _ => pure []
      pure ((scalar ++ unlisted ++ constIssues rules value).map (said label) ++ inner)
termination_by structural _ value => value

/-- The errors of the items of an array that goes by a label, from a position on. -/
def itemsErrors (strict : Bool) :
    Value → String → Nat → List Value → Except Fault (List String)
  | _, _, _, [] => pure []
  | schema, label, position, item :: items => do
    let first ← match schema with
      | .object _ => fieldErrors strict schema item (label ++ "[" ++ toString position ++ "]")
      | _ => pure []
    let others ← itemsErrors strict schema label (position + 1) items
    pure (first ++ others)
termination_by structural _ _ _ items => items

/-- The errors of the members of an object, each by its key. -/
def membersErrors (strict : Bool) :
    Members → List (String × Value) → Except Fault (List String)
  | _, [] => pure []
  | rules, (key, value) :: rest => do
    let schema ← propertySchema (rules.valueAt "properties") key
    let first ←
      if schema.isNull then
        pure (if forbidsUndeclared strict rules then ["Unexpected field: " ++ key] else [])
      else fieldErrors strict schema value key
    let others ← membersErrors strict rules rest
    pure (first ++ others)
termination_by structural _ members => members

end

/-- What an operation finds, told under a label. -/
def toldUnder (label : String) (outcome : Except Fault (List Issue)) :
    Except Fault (List String) :=
  outcome.map (List.map (Issue.textUnder label))

theorem map_said (direct : ∀ issue ∈ issues, issue.IsDirect) :
    issues.map (said label) = issues.map (Issue.textUnder label) :=
  List.map_congr_left fun issue among => (direct issue among).textUnder_eq.symm

theorem toldUnder_index (label : String) (position : Nat) (outcome : Except Fault (List Issue)) :
    toldUnder label (outcome.map (List.map (.under (.index position)))) =
      toldUnder (label ++ "[" ++ toString position ++ "]") outcome := by
  cases outcome with
  | error fault => rfl
  | ok issues =>
      refine congrArg Except.ok (List.map_map.trans ?_)
      exact List.map_congr_left fun issue _ => Issue.textUnder_under_index label position issue

theorem toldUnder_together (first second : Except Fault (List Issue)) :
    toldUnder label (together first second) =
      together (toldUnder label first) (toldUnder label second) := by
  cases first with
  | error fault => rfl
  | ok issues =>
      cases second with
      | error fault => rfl
      | ok others => exact congrArg Except.ok List.map_append

/-- Whether a labelled value has the same errors under every schema, by either walk. -/
def ToldAlike (strict : Bool) (value : Value) : Prop :=
  ∀ schema label, fieldErrors strict schema value label =
    toldUnder label (fieldIssues strict schema value)

theorem itemsErrors_eq (position : Nat) (each : ∀ item ∈ items, ToldAlike strict item) :
    itemsErrors strict schema label position items =
      toldUnder label (itemsIssues strict schema position items) := by
  induction items generalizing position with
  | nil => rfl
  | cons item items ih =>
      obtain ⟨first, rest⟩ := List.forall_mem_cons.mp each
      have others := ih (position + 1) rest
      rw [itemsIssues_eq_gather, List.zipIdx_cons, gather, ← itemsIssues_eq_gather,
        toldUnder_together, ← others]
      cases schema with
      | object rules =>
          rw [itemIssues, toldUnder_index, ← first]
          rfl
      | null | bool | number | text | term | array | tuple | foreign => rfl

def memberErrors (strict : Bool) (rules : Members) (key : String) (value : Value) :
    Except Fault (List String) := do
  let schema ← propertySchema (rules.valueAt "properties") key
  if schema.isNull then
    pure (if forbidsUndeclared strict rules then ["Unexpected field: " ++ key] else [])
  else fieldErrors strict schema value key

theorem memberErrors_eq {key : String} (alike : ToldAlike strict value) :
    memberErrors strict rules key value =
      (memberIssues strict rules key value).map (List.map Issue.text) := by
  rw [memberErrors, memberIssues]
  cases propertySchema (rules.valueAt "properties") key with
  | error fault => rfl
  | ok schema =>
      rw [ok_bind, ok_bind]
      cases schema.isNull with
      | true => cases forbidsUndeclared strict rules <;> rfl
      | false =>
          rw [alike]
          cases fieldIssues strict schema value with
          | error fault => rfl
          | ok issues =>
              have behind : (issues.map (.under (.key key))).map Issue.text =
                  issues.map (Issue.textUnder key) := List.map_map
              exact congrArg Except.ok behind.symm

theorem membersErrors_cons {key : String} : membersErrors strict rules ((key, value) :: members) =
    together (memberErrors strict rules key value) (membersErrors strict rules members) := by
  rw [membersErrors, memberErrors]
  cases propertySchema (rules.valueAt "properties") key with
  | error fault => rfl
  | ok schema =>
      rw [ok_bind, ok_bind]
      cases schema.isNull <;> rfl

theorem membersErrors_eq (each : ∀ member ∈ members, ToldAlike strict member.2) :
    membersErrors strict rules members =
      (membersIssues strict rules members).map (List.map Issue.text) := by
  induction members with
  | nil => rfl
  | cons member members ih =>
      obtain ⟨key, value⟩ := member
      obtain ⟨first, rest⟩ := List.forall_mem_cons.mp each
      rw [membersErrors_cons, membersIssues_cons, ih rest, memberErrors_eq first]
      cases memberIssues strict rules key value with
      | error fault => rfl
      | ok issues =>
          cases membersIssues strict rules members with
          | error fault => rfl
          | ok others => exact congrArg Except.ok List.map_append.symm

/-- The errors of an object, which has no label. -/
def objectErrors (strict : Bool) (rules members : Members) : Except Fault (List String) := do
  let missing ← missingIssues rules members
  let each ← membersErrors strict rules members
  pure (missing.map (fun issue => issue.violation.message) ++ each)

theorem objectErrors_eq (each : ∀ member ∈ members, ToldAlike strict member.2) :
    objectErrors strict rules members =
      (objectIssues strict rules members).map (List.map Issue.text) := by
  rw [objectErrors, objectIssues, membersErrors_eq each]
  cases found : missingIssues rules members with
  | error fault => rfl
  | ok missing =>
      cases membersIssues strict rules members with
      | error fault => rfl
      | ok issues =>
          obtain ⟨names, rfl⟩ := missingIssues_eq_map found
          refine congrArg Except.ok ?_
          rw [List.map_append, List.map_map, List.map_map]
          rfl

/-- What a labelled value is told about its content. -/
def innerErrors (strict : Bool) (rules : Members) (expected : Value) (label : String) :
    Value → Except Fault (List String)
  | .array items | .tuple items =>
    if expected.isText "array" then do
      let whole ← arrayIssues rules items
      let each ← itemsErrors strict (rules.valueAt "items") label 0 items
      pure (whole.map (said label) ++ each)
    else pure []
  | .object members =>
    if expected.isText "object" then do
      let errors ← objectErrors strict rules members
      pure (errors.map fun error => label ++ "." ++ error)
    else pure []
  | _ => pure []

theorem innerErrors_eq_of_items (isArray : value.asItems? = some items)
    (each : ∀ item ∈ items, ToldAlike strict item) :
    innerErrors strict rules expected label value =
      toldUnder label (innerIssues strict rules expected value) := by
  have inArray : innerErrors strict rules expected label (.array items) =
      toldUnder label (innerIssues strict rules expected (.array items)) := by
    rw [innerErrors, innerIssues, itemsErrors_eq 0 each]
    cases expected.isText "array" with
    | false => rfl
    | true =>
        cases found : arrayIssues rules items with
        | error fault => rfl
        | ok whole =>
            cases itemsIssues strict (rules.valueAt "items") 0 items with
            | error fault => rfl
            | ok issues =>
                change Except.ok (whole.map (said label) ++ _) = _
                rw [map_said (arrayIssues_direct whole found)]
                exact congrArg Except.ok List.map_append.symm
  cases value with
  | array | tuple =>
      cases isArray
      exact inArray
  | null | bool | number | text | term | object | foreign => cases isArray

theorem innerErrors_eq_of_members (each : ∀ member ∈ members, ToldAlike strict member.2) :
    innerErrors strict rules expected label (.object members) =
      toldUnder label (innerIssues strict rules expected (.object members)) := by
  rw [innerErrors, innerIssues, objectErrors_eq each]
  cases expected.isText "object" with
  | false => rfl
  | true =>
      cases found : objectIssues strict rules members with
      | error fault => rfl
      | ok issues =>
          exact congrArg Except.ok (map_textUnder_objectIssues found label).symm

theorem fieldErrors_malformed (malformed : ∀ rules, schema ≠ .object rules) :
    fieldErrors strict schema value label = .error .notMapping := by
  cases schema with
  | object rules => exact absurd rfl (malformed rules)
  | null | bool | number | text | term | array | tuple | foreign => cases value <;> rfl

def contentErrors (strict : Bool) (rules : Members) (expected : Value) (label : String)
    (value : Value) : Except Fault (List String) := do
  let scalar ← scalarIssues rules expected value
  let unlisted ← enumIssues rules value
  let inner ← innerErrors strict rules expected label value
  pure ((scalar ++ unlisted ++ constIssues rules value).map (said label) ++ inner)

theorem fieldErrors_walk : fieldErrors strict (.object rules) value label =
    match settled? rules value with
    | some issues => .ok (issues.map (said label))
    | none => contentErrors strict rules (expectedType rules) label value := by
  cases settled : settled? rules value with
  | some issues => cases value <;> simp [fieldErrors, membersOf, ok_bind, settled, pure_eq_ok]
  | none =>
      cases value with
      | array items | tuple items =>
          cases typed : (expectedType rules).isText "array" <;>
            simp [fieldErrors, contentErrors, innerErrors, membersOf, ok_bind, settled, typed]
      | object members =>
          cases typed : (expectedType rules).isText "object" <;>
            simp [fieldErrors, contentErrors, innerErrors, objectErrors, membersOf, ok_bind,
              settled, typed]
      | null | bool | number | text | term | foreign =>
          simp [fieldErrors, contentErrors, innerErrors, membersOf, ok_bind, settled]

theorem contentErrors_eq (inner : innerErrors strict rules expected label value =
      toldUnder label (innerIssues strict rules expected value)) :
    contentErrors strict rules expected label value =
      toldUnder label (contentIssues strict rules expected value) := by
  rw [contentErrors, contentIssues, inner]
  cases scalarRun : scalarIssues rules expected value with
  | error fault => rfl
  | ok scalar =>
      cases unlistedRun : enumIssues rules value with
      | error fault => rfl
      | ok unlisted =>
          cases innerIssues strict rules expected value with
          | error fault => rfl
          | ok found =>
              have direct : ∀ issue ∈ scalar ++ unlisted ++ constIssues rules value,
                  issue.IsDirect := by
                simp only [List.forall_mem_append]
                exact ⟨⟨scalarIssues_direct scalar scalarRun,
                  enumIssues_direct unlisted unlistedRun⟩, constIssues_direct⟩
              change Except.ok (List.map (said label) _ ++ _) = _
              rw [map_said direct]
              exact congrArg Except.ok List.map_append.symm

theorem fieldErrors_eq_of_inner
    (inner : ∀ rules expected label, innerErrors strict rules expected label value =
      toldUnder label (innerIssues strict rules expected value)) : ToldAlike strict value := by
  intro schema label
  rcases schema.object_or_other with ⟨rules, rfl⟩ | malformed
  · rw [fieldErrors_walk, fieldIssues_walk, ← contentIssues_eq_together]
    cases settled : settled? rules value with
    | some issues => exact congrArg Except.ok (map_said (settled?_direct settled))
    | none => exact contentErrors_eq (inner rules _ label)
  · rw [fieldErrors_malformed malformed, fieldIssues_malformed malformed]
    rfl

/-- The walk that carries a label along tells what the engine finds, under the label. -/
theorem fieldErrors_eq (value : Value) : ToldAlike strict value := by
  induction value using Value.byParts with
  | array items ih | tuple items ih =>
      exact fieldErrors_eq_of_inner fun _ _ _ => innerErrors_eq_of_items rfl ih
  | object members ih =>
      exact fieldErrors_eq_of_inner fun _ _ _ => innerErrors_eq_of_members ih
  | null | bool | number | text | term | foreign =>
      exact fieldErrors_eq_of_inner fun _ _ _ => rfl

end WorkItems.Schema
