import WorkItems.Value

namespace WorkItems.Value

/-! Equality of values as JSON.

Numbers agree by value and booleans are no numbers; a term is the string of its text, a tuple the
array of its items; the order of the members of an object does not count.
-/

mutual

def same : Value → Value → Bool
  | .null, other => other.isNull
  | .bool a, other => match other with
    | .bool b => a == b
    | _ => false
  | .number a, other => match other with
    | .number b => a.agrees b
    | _ => false
  | .text a, other => other.isText a
  | .term a, other => other.isText a.text
  | .array items, other => match other.asItems? with
    | some others => sameItems items others
    | none => false
  | .tuple items, other => match other.asItems? with
    | some others => sameItems items others
    | none => false
  | .object members, other => match other with
    | .object others => members.length == others.length && sameMembers members others
    | _ => false
  | .foreign kind mark, other => match other with
    | .foreign otherKind otherMark => kind == otherKind && mark == otherMark
    | _ => false
termination_by structural value => value

def sameItems : List Value → List Value → Bool
  | [], [] => true
  | item :: items, other :: others => same item other && sameItems items others
  | _, _ => false
termination_by structural items => items

/-- Whether every member has an equal one under the same key. -/
def sameMembers : List (String × Value) → Members → Bool
  | [], _ => true
  | (key, value) :: rest, others =>
    (match others.lookup key with
      | some other => same value other
      | none => false) && sameMembers rest others
termination_by structural members => members

end

/-- Whether no two values of a list are the same. -/
def allDistinct : List Value → Bool
  | [] => true
  | value :: rest => !rest.any (same value) && allDistinct rest

end WorkItems.Value
