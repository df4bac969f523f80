import WorkItems.Schema.Check
import WorkItems.Value.Depth

namespace WorkItems.Schema

/-! How deep the schema engine goes.

The engine goes down a value as far as the schema does, and down to the bottom of every value that
it compares with others: by the rules `enum` and `const`, and for the items of an array by
`uniqueItems`.
-/

/-- Whether a value under these rules is compared with others. -/
def comparesWhole (rules : Members) : Bool :=
  rules.hasKey "const" || (rules.valueAt "enum").isTruthy

def comparesItems (rules : Members) : Bool :=
  match rules.valueAt "uniqueItems" with
  | .bool true => true
  | _ => false

mutual

/-- The levels of a value at a place that has a schema, as far as the engine goes down. -/
def fieldReach : Value → Value → Nat
  | schema, value =>
    let rules := schema.asMembers?.getD []
    let expected := expectedType rules
    if value.isNull && acceptsNull rules || !expected.isNull && !hasType value expected then 0
    else
      let inside := match value with
        | .array items => if expected.isText "array" then arrayReach rules items else 0
        | .tuple items => if expected.isText "array" then arrayReach rules items else 0
        | .object members => if expected.isText "object" then membersReach rules members else 0
        | _ => 0
      max (if comparesWhole rules then value.depth else 0) inside
termination_by structural _ value => value

def arrayReach : Members → List Value → Nat
  | _, [] => 0
  | rules, item :: items =>
    let first := fieldReach (rules.valueAt "items") item
    max ((if comparesItems rules then max item.depth first else first) + 1) (arrayReach rules items)
termination_by structural _ items => items

def membersReach : Members → List (String × Value) → Nat
  | _, [] => 0
  | rules, (key, value) :: rest =>
    let schema := ((rules.valueAt "properties").asMembers?.getD []).valueAt key
    let first := if schema.isNull then 0 else fieldReach schema value + 1
    max first (membersReach rules rest)
termination_by structural _ members => members

end

/-- The levels of a whole value. -/
def reach (schema value : Value) : Nat :=
  let rules := schema.asMembers?.getD []
  if (rules.valueAt "type").isText "object" then
    match value with
    | .object members => membersReach rules members
    | _ => 0
  else fieldReach schema value

end WorkItems.Schema
