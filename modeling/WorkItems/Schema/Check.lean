import WorkItems.Fault
import WorkItems.Pattern.EndAnchor
import WorkItems.Schema.Issue
import WorkItems.Value.Same

namespace WorkItems.Schema

/-! The schema engine.

A schema is itself a value, an object whose members are rules.  The engine walks a value beside
its schema and lists every issue, outer before inner and in the order of the data.  It knows the
rules `type`, `required`, `properties`, `additionalProperties`, `minLength`, `maxLength`,
`pattern`, `minimum`, `maximum`, `enum`, `const`, `items`, `minItems`, `maxItems` and
`uniqueItems`, and passes over all others.  A malformed schema is a fault only where the walk
meets the malformed rule.
-/

/-- What can be gone through item by item: texts by characters and objects by keys. -/
def elements : Value → Except Fault (List Value)
  | .array items | .tuple items => .ok items
  | .text text => .ok (text.toList.map fun c => .text (String.singleton c))
  | .term term => .ok (term.text.toList.map fun c => .text (String.singleton c))
  | .object members => .ok (members.map fun member => .text member.1)
  | .foreign .set _ => .ok []
  | .foreign .bytes _ => .ok [.int 97, .int 98]
  | _ => .error .notIterable

def membersOf : Value → Except Fault Members
  | .object members => .ok members
  | _ => .error .notMapping

/-- The first declared type beside null; null stands for any. -/
def expectedType (rules : Members) : Value :=
  let declared := rules.valueAt "type"
  match declared.asItems? with
  | some types => (types.find? fun type => !type.isText "null").getD .null
  | none => declared

def acceptsNull (rules : Members) : Bool :=
  let declared := rules.valueAt "type"
  match declared.asItems? with
  | some types => types.any fun type => type.isText "null"
  | none => declared.isText "null"

def isIntegral : Value → Bool
  | .number number => number.isIntegral
  | _ => false

def hasType (value expected : Value) : Bool :=
  if expected.isText "integer" then isIntegral value
  else expected.isText value.kind.name

/-- Compares a number with the limit of a rule, when the rule is there. -/
def limitIssues (limit : Value) (exceeded : Number → Bool) (violation : Value → Violation) :
    Except Fault (List Issue) :=
  match limit with
  | .null => .ok []
  | limit =>
    match limit.asNumber? with
    | some number => .ok (if exceeded number then [.here (violation limit)] else [])
    | none => .error .incomparable

def patternIssues (pattern : Value) (text : String) : Except Fault (List Issue) :=
  match pattern with
  | .null => .ok []
  | pattern =>
    match pattern.asText? with
    | none => .error .notText
    | some written =>
      match Pattern.ofTextClosed? written.toList with
      | none => .error .malformedPattern
      | some meaning => .ok (if meaning.foundIn text then [] else [.here (.unmatched pattern)])

def textIssues (rules : Members) (text : String) : Except Fault (List Issue) := do
  let length := Number.int text.length
  let short ← limitIssues (rules.valueAt "minLength") (fun limit => length.less limit) .tooShort
  let long ← limitIssues (rules.valueAt "maxLength") (fun limit => limit.less length) .tooLong
  let unmatched ← patternIssues (rules.valueAt "pattern") text
  pure (short ++ long ++ unmatched)

def numberIssues (rules : Members) (number : Number) : Except Fault (List Issue) := do
  let small ← limitIssues (rules.valueAt "minimum") (fun limit => number.less limit) .tooSmall
  let large ← limitIssues (rules.valueAt "maximum") (fun limit => limit.less number) .tooLarge
  pure (small ++ large)

/-- The rules on a string or a number, which bind only under a declared type. -/
def scalarIssues (rules : Members) (expected value : Value) : Except Fault (List Issue) :=
  match value with
  | .text text => if expected.isText "string" then textIssues rules text else .ok []
  | .term term => if expected.isText "string" then textIssues rules term.text else .ok []
  | .number number =>
    if expected.isText "number" || expected.isText "integer" then numberIssues rules number
    else .ok []
  | _ => .ok []

def enumIssues (rules : Members) (value : Value) : Except Fault (List Issue) :=
  match rules.lookup "enum" with
  | none => .ok []
  | some options => do
    let options ← elements options
    pure (if options.any value.same then [] else [.here (.unlisted options)])

def constIssues (rules : Members) (value : Value) : List Issue :=
  match rules.lookup "const" with
  | none => []
  | some constant => if value.same constant then [] else [.here (.different constant)]

/-- The rules on an array as a whole. -/
def arrayIssues (rules : Members) (items : List Value) : Except Fault (List Issue) := do
  let count := Number.int items.length
  let few ← limitIssues (rules.valueAt "minItems") (fun limit => count.less limit) .tooFew
  let many ← limitIssues (rules.valueAt "maxItems") (fun limit => limit.less count) .tooMany
  let again := match rules.valueAt "uniqueItems" with
    | .bool true => if Value.allDistinct items then [] else [Issue.here .repeated]
    | _ => []
  pure (few ++ many ++ again)

/-- Whether an object has the key that an entry of `required` names. -/
def hasRequired (members : Members) (name : Value) : Except Fault Bool :=
  if name.isKeyable then
    .ok (match name.asText? with
      | some key => members.hasKey key
      | none => false)
  else .error .notKeyable

def missingIssues (rules members : Members) : Except Fault (List Issue) := do
  let names ← match rules.lookup "required" with
    | none => pure []
    | some required => elements required
  let missing ← names.filterM fun name => do
    let present ← hasRequired members name
    pure !present
  pure (missing.map fun name => .here (.missing name))

/-- The schema of a member, or null when there is none. -/
def propertySchema (properties : Value) (key : String) : Except Fault Value :=
  if properties.isTruthy then do
    let schemas ← membersOf properties
    pure (schemas.valueAt key)
  else .ok .null

def forbidsUndeclared (strict : Bool) (rules : Members) : Bool :=
  match rules.valueAt "additionalProperties" with
  | .bool false => strict
  | _ => false

mutual

/-- The issues of a value at a place that has a schema. -/
def fieldIssues (strict : Bool) : Value → Value → Except Fault (List Issue)
  | schema, value => do
    let rules ← membersOf schema
    if value.isNull && acceptsNull rules then
      pure []
    else
      let expected := expectedType rules
      if !expected.isNull && !hasType value expected then
        pure [.here (.wrongKind expected value.kind)]
      else
        let scalar ← scalarIssues rules expected value
        let unlisted ← enumIssues rules value
        let different := constIssues rules value
        let inner ← match value with
          | .array items =>
            if expected.isText "array" then do
              let whole ← arrayIssues rules items
              let each ← itemsIssues strict (rules.valueAt "items") 0 items
              pure (whole ++ each)
            else pure []
          | .tuple items =>
            if expected.isText "array" then do
              let whole ← arrayIssues rules items
              let each ← itemsIssues strict (rules.valueAt "items") 0 items
              pure (whole ++ each)
            else pure []
          | .object members =>
            if expected.isText "object" then do
              let missing ← missingIssues rules members
              let each ← membersIssues strict rules members
              pure (missing ++ each)
            else pure []
          | _ => pure []
        pure (scalar ++ unlisted ++ different ++ inner)
termination_by structural _ value => value

/-- The issues of the items of an array, from a position on. -/
def itemsIssues (strict : Bool) : Value → Nat → List Value → Except Fault (List Issue)
  | _, _, [] => pure []
  | schema, position, item :: items => do
    let first ← match schema with
      | .object _ => fieldIssues strict schema item
      | _ => pure []
    let others ← itemsIssues strict schema (position + 1) items
    pure (first.map (.under (.index position)) ++ others)
termination_by structural _ _ items => items

/-- The issues of the members of an object, apart from those that are missing. -/
def membersIssues (strict : Bool) :
    Members → List (String × Value) → Except Fault (List Issue)
  | _, [] => pure []
  | rules, (key, value) :: rest => do
    let schema ← propertySchema (rules.valueAt "properties") key
    let first ←
      if schema.isNull then
        pure (if forbidsUndeclared strict rules then [Issue.here (.undeclared key)] else [])
      else do
        let issues ← fieldIssues strict schema value
        pure (issues.map (.under (.key key)))
    let others ← membersIssues strict rules rest
    pure (first ++ others)
termination_by structural _ members => members

end

/-- The issues of an object, seen from the object itself. -/
def objectIssues (strict : Bool) (rules members : Members) : Except Fault (List Issue) := do
  let missing ← missingIssues rules members
  let each ← membersIssues strict rules members
  pure (missing ++ each)

/-- The texts of the issues of a whole value.  An object schema speaks about the members by
their keys; under any other schema the value goes by the label `value`. -/
def validate (strict : Bool) (schema value : Value) : Except Fault (List String) := do
  let rules ← membersOf schema
  if (rules.valueAt "type").isText "object" then
    match value with
    | .object members =>
      let issues ← objectIssues strict rules members
      pure (issues.map Issue.text)
    | value => pure [(Issue.here (.wrongRoot (rules.valueAt "type") value.kind)).text]
  else
    let issues ← fieldIssues strict schema value
    pure (issues.map (Issue.textUnder "value"))

end WorkItems.Schema
