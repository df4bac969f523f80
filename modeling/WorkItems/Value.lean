import WorkItems.Number.Basic
import WorkItems.Vocabulary

namespace WorkItems

/-! The values that documents, schemas and items are made of.

Beside the JSON values there are tuples, which are arrays to the schema engine but not to every
other reader, vocabulary terms, which are strings with a name of their own, and foreign values,
which have no JSON form and are told apart by a mark.  Of foreign values there are two: the empty
set, and the two bytes of `ab`.  Objects keep the order of their members.  A text may have lone
surrogates, in the place of which stand the characters of `Text.isSurrogate`.
-/

inductive ForeignKind where
  | set
  | bytes
deriving DecidableEq

inductive Value where
  | null
  | bool (value : Bool)
  | number (value : Number)
  | text (value : String)
  | term (value : Term)
  | array (items : List Value)
  | tuple (items : List Value)
  | object (members : List (String × Value))
  | foreign (kind : ForeignKind) (mark : Nat)
deriving Inhabited

/-- The members of an object, in order. -/
abbrev Members := List (String × Value)

/-- The JSON kind of a value; foreign values are kinds of their own. -/
inductive Kind where
  | null
  | boolean
  | number
  | string
  | object
  | array
  | foreign (kind : ForeignKind)
deriving DecidableEq

def ForeignKind.name : ForeignKind → String
  | .set => "set"
  | .bytes => "bytes"

def Kind.name : Kind → String
  | .null => "null"
  | .boolean => "boolean"
  | .number => "number"
  | .string => "string"
  | .object => "object"
  | .array => "array"
  | .foreign kind => kind.name

namespace Value

def int (value : Int) : Value := .number (.int value)

def double (value : Double) : Value := .number (.double value)

def kind : Value → Kind
  | .null => .null
  | .bool _ => .boolean
  | .number _ => .number
  | .text _ | .term _ => .string
  | .array _ | .tuple _ => .array
  | .object _ => .object
  | .foreign kind _ => .foreign kind

def isNull : Value → Bool
  | .null => true
  | _ => false

/-- The characters of a string, whether it is plain or a term. -/
def asText? : Value → Option String
  | .text value => some value
  | .term value => some value.text
  | _ => none

def isText (value : Value) (text : String) : Bool :=
  value.asText? == some text

/-- A term gives way to its text; everything else stays. -/
def plainTerm : Value → Value
  | .term value => .text value.text
  | value => value

/-- The elements of an array or a tuple. -/
def asItems? : Value → Option (List Value)
  | .array items | .tuple items => some items
  | _ => none

def asMembers? : Value → Option Members
  | .object members => some members
  | _ => none

/-- The number in a value where booleans count as one and zero. -/
def asNumber? : Value → Option Number
  | .number value => some value
  | .bool value => some (.int (if value then 1 else 0))
  | _ => none

/-- Whether a value counts as something: nothing, zero and everything empty do not. -/
def isTruthy : Value → Bool
  | .null => false
  | .bool value => value
  | .number value => !value.isZero
  | .text value => !value.isEmpty
  | .term _ => true
  | .array items | .tuple items => !items.isEmpty
  | .object members => !members.isEmpty
  | .foreign .set _ => false
  | .foreign .bytes _ => true

mutual

/-- Whether a value may be looked for among keys: arrays, objects and sets may not, and neither
may a tuple that holds one. -/
def isKeyable : Value → Bool
  | .array _ | .object _ | .foreign .set _ => false
  | .tuple items => allKeyable items
  | _ => true
termination_by structural value => value

def allKeyable : List Value → Bool
  | [] => true
  | item :: items => isKeyable item && allKeyable items
termination_by structural items => items

end

end Value

namespace Members

/-- The value at a key, where a missing key reads as null. -/
def valueAt (members : Members) (key : String) : Value :=
  (members.lookup key).getD .null

def hasKey (members : Members) (key : String) : Bool :=
  (members.lookup key).isSome

/-- Puts a value at a key: in the place of the member that had the key, or else at the end. -/
def put (members : Members) (key : String) (value : Value) : Members :=
  match members with
  | [] => [(key, value)]
  | (name, old) :: rest =>
    if name = key then (key, value) :: rest else (name, old) :: put rest key value

/-- Puts every member of another list, in its order. -/
def merge (members changes : Members) : Members :=
  changes.foldl (fun merged change => Members.put merged change.1 change.2) members

def keys (members : Members) : List String :=
  members.map Prod.fst

/-- The members that are not null. -/
def dropNulls (members : Members) : Members :=
  members.filter fun member => !member.2.isNull

end Members

end WorkItems
