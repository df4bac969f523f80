import WorkItems.Schema.Check

namespace WorkItems.Schema

/-! Building schemas.

Every builder gives a new schema and leaves out the rules that it is given null for.  Builders
take any values, as the engine does, so that a rule may turn out malformed only when it is used.
-/

/-- A rule that is left out when its value is null. -/
def rule (name : String) (value : Value) : Members :=
  if value.isNull then [] else [(name, value)]

def textSchema (minLength maxLength pattern format : Value) : Value :=
  .object ([("type", .text "string")] ++ rule "minLength" minLength ++
    rule "maxLength" maxLength ++ rule "pattern" pattern ++ rule "format" format)

def choiceSchema (options : List Value) : Value :=
  .object [("type", .text "string"), ("enum", .array options)]

def numberSchema (minimum maximum : Value) (integral : Bool) : Value :=
  .object ([("type", .text (if integral then "integer" else "number"))] ++
    rule "minimum" minimum ++ rule "maximum" maximum)

def arraySchema (items minItems maxItems : Value) (unique : Bool) : Value :=
  .object ([("type", .text "array"), ("items", items)] ++ rule "minItems" minItems ++
    rule "maxItems" maxItems ++ (if unique then [("uniqueItems", .bool true)] else []))

def constantSchema (constant : Value) : Value :=
  .object [("const", constant)]

def booleanSchema : Value :=
  .object [("type", .text "boolean")]

def objectSchema (properties : Members) (required : List Value) (closed : Bool) : Value :=
  .object ([("type", .text "object")] ++
    (if required.isEmpty then [] else [("required", .array required)]) ++
    [("properties", .object properties)] ++
    (if closed then [("additionalProperties", .bool false)] else []))

/-- Allows null beside the declared type; a schema without a type stays as it is. -/
def nullable (schema : Value) : Except Fault Value := do
  let rules ← membersOf schema
  match rules.valueAt "type" with
  | .null => pure schema
  | declared =>
    let types := declared.asItems?.getD [declared]
    let types := if types.any fun type => type.isText "null" then types
      else types ++ [.text "null"]
    pure (.object (Members.put rules "type" (.array types)))

/-- Two values as one key of a pair: by its text, or else by its JSON text. -/
def keyOf (value : Value) : Except Fault String :=
  if value.isKeyable then .ok (value.asText?.getD (Json.text value)) else .error .notKeyable

def pairOf (value : Value) : Except Fault (String × Value) := do
  match ← elements value with
  | [key, item] => do
    let key ← keyOf key
    pure (key, item)
  | _ => throw .notPairs

/-- An object, or a list of pairs that would make one. -/
def mappingOf (value : Value) : Except Fault Members :=
  match value with
  | .object members => .ok members
  | value => do
    let pairs ← (← elements value).mapM pairOf
    pure (Members.merge [] pairs)

/-- Whether a value equals one of some others, where booleans count as numbers. -/
def isAmong (others : List Value) (value : Value) : Bool :=
  others.any fun other =>
    match value.asNumber?, other.asNumber? with
    | some a, some b => a.agrees b
    | _, _ => value.same other

/-- Whether a required name is already in the required entry of a base schema. -/
def isInherited (inherited name : Value) : Except Fault Bool :=
  match inherited.asText?, name.asText? with
  | some text, some part => .ok ((text.splitOn part).length != 1 || part.isEmpty)
  | some _, none => .error .notText
  | none, _ =>
    match inherited with
    | .object members => hasRequired members name
    | inherited => do pure (isAmong (← elements inherited) name)

/-- Derives an object schema.  The names that the base requires come first, then the new ones
among the given names; given properties override those of the base. -/
def extend (base required properties : Value) : Except Fault Value := do
  let rules ← membersOf base
  let inherited := (rules.lookup "required").getD (.array [])
  let names ← elements inherited
  let added ← (← elements required).filterM fun name => do
    let known ← isInherited inherited name
    pure !known
  let declared ← mappingOf ((rules.lookup "properties").getD (.object []))
  let further ← if properties.isTruthy then mappingOf properties else pure []
  pure (.object (Members.put (Members.put rules "required" (.array (names ++ added)))
    "properties" (.object (Members.merge declared further))))

end WorkItems.Schema
