import WorkItems.Schema.Registry

namespace WorkItems.Draft7

/-! Checking values with the meaning that draft 7 of JSON Schema gives to the rules.

Unlike the schema engine, every rule is applied to each value of the kinds it speaks about,
whether or not the type is right, undeclared members are always reported where a schema forbids
them, a tuple is no array, and a dollar sign also matches before a line break at the end.
Formats are not checked.
-/

inductive Violation where
  | wrongType (value : Value) (types : List Value)
  | unlisted (value options : Value)
  | different (constant : Value)
  | missing (name : Value)
  | tooShort (value limit : Value)
  | tooLong (value limit : Value)
  | unmatched (value pattern : Value)
  | tooSmall (value limit : Value)
  | tooLarge (value limit : Value)
  | tooFew (value limit : Value)
  | tooMany (value limit : Value)
  | repeated (value : Value)
  | undeclared (keys : List String)

structure Issue where
  path : Path
  violation : Violation

namespace Violation

/-- A limit of one, or of nothing, is told in words of its own. -/
def sizeText (limit : Value) (special : Int) (words otherwise : String) : String :=
  match limit.asNumber? with
  | some number => if number.agrees (.int special) then words else otherwise
  | none => otherwise

def message : Violation → String
  | .wrongType value types =>
    value.quoted ++ " is not of type " ++ String.intercalate ", " (types.map Value.quoted)
  | .unlisted value options => value.quoted ++ " is not one of " ++ options.quoted
  | .different constant => constant.quoted ++ " was expected"
  | .missing name => name.quoted ++ " is a required property"
  | .tooShort value limit =>
    value.quoted ++ " " ++ sizeText limit 1 "should be non-empty" "is too short"
  | .tooLong value limit =>
    value.quoted ++ " " ++ sizeText limit 0 "is expected to be empty" "is too long"
  | .unmatched value pattern => value.quoted ++ " does not match " ++ pattern.quoted
  | .tooSmall value limit =>
    value.quoted ++ " is less than the minimum of " ++ limit.quoted
  | .tooLarge value limit =>
    value.quoted ++ " is greater than the maximum of " ++ limit.quoted
  | .tooFew value limit =>
    value.quoted ++ " " ++ sizeText limit 1 "should be non-empty" "is too short"
  | .tooMany value limit =>
    value.quoted ++ " " ++ sizeText limit 0 "is expected to be empty" "is too long"
  | .repeated value => value.quoted ++ " has non-unique elements"
  | .undeclared keys =>
    "Additional properties are not allowed (" ++ String.intercalate ", " (keys.map Text.quoted) ++
      (if keys.length = 1 then " was unexpected)" else " were unexpected)")

end Violation

namespace Issue

def here (violation : Violation) : Issue := ⟨[], violation⟩

def under (step : Step) (issue : Issue) : Issue :=
  { issue with path := step :: issue.path }

def text (issue : Issue) : String :=
  issue.path.dotted "<root>" ++ ": " ++ issue.violation.message

/-- The steps of the path as texts, by which issues are put in order. -/
def sortKey (issue : Issue) : List String :=
  issue.path.map Step.text

/-- Positions are compared as texts too, so that `10` comes before `2`. -/
def keyAtMost : List String → List String → Bool
  | [], _ => true
  | _ :: _, [] => false
  | a :: as, b :: bs => if a = b then keyAtMost as bs else Text.precedes a b

def atMost (a b : Issue) : Bool :=
  keyAtMost a.sortKey b.sortKey

end Issue

mutual

/-- Strings are equal to strings only, tuples count as arrays, and booleans are no numbers. -/
def equal : Value → Value → Bool
  | .null, other => other.isNull
  | .bool a, other => match other with
    | .bool b => a == b
    | _ => false
  | .number a, other => match other with
    | .number b => a.agrees b
    | _ => false
  | .text a, other => other.isText a
  | .term a, other => other.isText a.text
  | .array items, other => match other.asItems? with
    | some others => equalItems items others
    | none => false
  | .tuple items, other => match other.asItems? with
    | some others => equalItems items others
    | none => false
  | .object members, other => match other with
    | .object others => members.length == others.length && equalMembers members others
    | _ => false
  | .foreign kind _, other => match other with
    | .foreign otherKind _ => kind == otherKind
    | _ => false
termination_by structural value => value

def equalItems : List Value → List Value → Bool
  | [], [] => true
  | item :: items, other :: others => equal item other && equalItems items others
  | _, _ => false
termination_by structural items => items

def equalMembers : List (String × Value) → Members → Bool
  | [], _ => true
  | (key, value) :: rest, others =>
    (match others.lookup key with
      | some other => equal value other
      | none => false) && equalMembers rest others
termination_by structural members => members

end

def allDistinct : List Value → Bool
  | [] => true
  | value :: rest => !rest.any (equal value) && allDistinct rest

def hasType (value type : Value) : Bool :=
  match type.asText? with
  | some "array" => match value with
    | .array _ => true
    | _ => false
  | some "integer" => Schema.isIntegral value
  | some name => value.kind.name == name && value.kind != .array
  | none => false

/-- One type, or a list of them. -/
def typesOf (type : Value) : List Value :=
  match type with
  | .array types => types
  | type => [type]

def whenLimit (value : Option Number) (limit : Value) (exceeded : Number → Number → Bool)
    (violation : Violation) : List Issue :=
  match value, limit.asNumber? with
  | some value, some limit => if exceeded value limit then [.here violation] else []
  | _, _ => []

def textLength? (value : Value) : Option Number :=
  value.asText?.map fun text => .int text.length

def itemCount? : Value → Option Number
  | .array items => some (.int items.length)
  | _ => none

def asNumber? : Value → Option Number
  | .number number => some number
  | _ => none

def patternIssues (value pattern : Value) : List Issue :=
  match value.asText?, pattern.asText? with
  | some text, some written =>
    if (Pattern.ofText? written.toList).any fun meaning => !meaning.foundIn text then
      [.here (.unmatched value pattern)]
    else []
  | _, _ => []

def requiredIssues (value names : Value) : List Issue :=
  match value, names with
  | .object members, .array names =>
    (names.filter fun name => !(name.asText?.any fun key => Members.hasKey members key)).map
      fun name => .here (.missing name)
  | _, _ => []

/-- The keys of an object that its schema does not declare, in their order as texts. -/
def undeclaredKeys (rules members : Members) : List String :=
  let declared := (Members.valueAt rules "properties").asMembers?.getD []
  ((Members.keys members).filter fun key => !Members.hasKey declared key).mergeSort
    fun a b => !Text.precedes b a

/-- The issues that a single rule finds in the value itself. -/
def ruleIssues (rules : Members) (name : String) (rule value : Value) : List Issue :=
  match name with
  | "type" =>
    if (typesOf rule).any (hasType value) then [] else [.here (.wrongType value (typesOf rule))]
  | "enum" =>
    match rule with
    | .array options =>
      if options.any (equal value) then [] else [.here (.unlisted value rule)]
    | _ => []
  | "const" => if equal value rule then [] else [.here (.different rule)]
  | "required" => requiredIssues value rule
  | "minLength" =>
    whenLimit (textLength? value) rule (fun a b => a.less b) (.tooShort value rule)
  | "maxLength" =>
    whenLimit (textLength? value) rule (fun a b => b.less a) (.tooLong value rule)
  | "pattern" => patternIssues value rule
  | "minimum" =>
    whenLimit (asNumber? value) rule (fun a b => a.less b) (.tooSmall value rule)
  | "maximum" =>
    whenLimit (asNumber? value) rule (fun a b => b.less a) (.tooLarge value rule)
  | "minItems" =>
    whenLimit (itemCount? value) rule (fun a b => a.less b) (.tooFew value rule)
  | "maxItems" =>
    whenLimit (itemCount? value) rule (fun a b => b.less a) (.tooMany value rule)
  | "uniqueItems" =>
    match value with
    | .array items =>
      if rule.isTruthy && !allDistinct items then [.here (.repeated value)] else []
    | _ => []
  | "additionalProperties" =>
    match rule, value with
    | .bool false, .object members =>
      let keys := undeclaredKeys rules members
      if keys.isEmpty then [] else [.here (.undeclared keys)]
    | _, _ => []
  | _ => []

/-- The issues of the items of an array from a position on, given those of a single item. -/
def itemsIssues (issuesOf : Value → List Issue) : Nat → List Value → List Issue
  | _, [] => []
  | position, item :: items =>
    (issuesOf item).map (.under (.index position)) ++ itemsIssues issuesOf (position + 1) items

mutual

/-- The issues of a value under the rules of a schema, in the order of the rules. -/
def schemaIssues : Value → Value → List Issue
  | .object rules, value => rulesIssues rules rules value
  | _, _ => []
termination_by structural schema => schema

def rulesIssues (all : Members) : List (String × Value) → Value → List Issue
  | [], _ => []
  | (name, rule) :: rest, value =>
    (match name, value with
      | "properties", .object members => match rule with
        | .object schemas => propertiesIssues schemas members
        | _ => []
      | "items", .array items => itemsIssues (schemaIssues rule) 0 items
      | name, value => ruleIssues all name rule value) ++ rulesIssues all rest value
termination_by structural rules => rules

/-- The members that a list of property schemas speaks about, in the order of the schemas. -/
def propertiesIssues : List (String × Value) → Members → List Issue
  | [], _ => []
  | (key, schema) :: rest, members =>
    (match members.lookup key with
      | some value => (schemaIssues schema value).map (.under (.key key))
      | none => []) ++ propertiesIssues rest members
termination_by structural schemas => schemas

end

/-- The texts of all issues of a value, sorted by the places they are found at. -/
def validate (schema value : Value) : List String :=
  ((schemaIssues schema value).mergeSort Issue.atMost).map Issue.text

end WorkItems.Draft7
