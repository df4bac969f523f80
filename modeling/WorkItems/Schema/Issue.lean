import WorkItems.Path
import WorkItems.Json.Printer

namespace WorkItems.Schema

/-! What the schema engine finds wrong, and how it says so. -/

inductive Violation where
  | missing (name : Value)
  | undeclared (key : String)
  | wrongRoot (expected : Value) (actual : Kind)
  | wrongKind (expected : Value) (actual : Kind)
  | tooShort (limit : Value)
  | tooLong (limit : Value)
  | unmatched (pattern : Value)
  | tooSmall (limit : Value)
  | tooLarge (limit : Value)
  | unlisted (options : List Value)
  | different (constant : Value)
  | tooFew (limit : Value)
  | tooMany (limit : Value)
  | repeated

/-- A violation and the place in the checked value that it is about. -/
structure Issue where
  path : Path
  violation : Violation

/-- Strings stand for themselves, everything else is shown as JSON. -/
def optionText (option : Value) : String :=
  option.asText?.getD (Json.text option)

/-- A constant is shown like an option, but a term by its name. -/
def constantText : Value → String
  | .term term => term.name
  | constant => optionText constant

namespace Violation

/-- Violations of an object's own member list, rather than of the value at a place. -/
def isStructural : Violation → Bool
  | .missing _ | .undeclared _ | .wrongRoot .. => true
  | _ => false

def message : Violation → String
  | .missing name => "Missing required field: " ++ name.plain
  | .undeclared key => "Unexpected field: " ++ key
  | .wrongRoot expected actual =>
    "Expected type " ++ expected.plain ++ ", got " ++ actual.name
  | .wrongKind expected actual => "Expected " ++ expected.plain ++ ", got " ++ actual.name
  | .tooShort limit => "Minimum length is " ++ limit.plain
  | .tooLong limit => "Maximum length is " ++ limit.plain
  | .unmatched pattern => "Does not match pattern " ++ pattern.plain
  | .tooSmall limit => "Minimum value is " ++ limit.plain
  | .tooLarge limit => "Maximum value is " ++ limit.plain
  | .unlisted options => "Must be one of " ++ String.intercalate ", " (options.map optionText)
  | .different constant => "Must be " ++ constantText constant
  | .tooFew limit => "Minimum items is " ++ limit.plain
  | .tooMany limit => "Maximum items is " ++ limit.plain
  | .repeated => "Items must be unique"

def separator (violation : Violation) : String :=
  if violation.isStructural then "." else ": "

end Violation

namespace Issue

def here (violation : Violation) : Issue := ⟨[], violation⟩

/-- The same issue, seen from one step further out. -/
def under (step : Step) (issue : Issue) : Issue :=
  { issue with path := step :: issue.path }

/-- The text of an issue in a value that goes by a label. -/
def textUnder (label : String) (issue : Issue) : String :=
  label ++ issue.path.suffix ++ issue.violation.separator ++ issue.violation.message

/-- The text of an issue in an object that has no label. -/
def text : Issue → String
  | ⟨.key name :: path, violation⟩ => textUnder name ⟨path, violation⟩
  | ⟨_, violation⟩ => violation.message

end Issue

end WorkItems.Schema
