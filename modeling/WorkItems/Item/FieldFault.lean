import WorkItems.Path
import WorkItems.Time.Reader

namespace WorkItems

/-! What is wrong with a field of an item, and how it is said. -/

inductive FieldFault where
  | missing
  | undeclared
  | notText
  /-- A text with a lone surrogate. -/
  | notUnicode
  | textTooShort (least : Nat)
  | textTooLong (most : Nat)
  | unmatched (pattern : String)
  | notAmong (options : List String)
  | notFlag
  | unclearFlag
  | notWhole
  | fractional
  | unreadableWhole
  | wholeTooLong
  | notFinite
  | notNumber
  | unreadableNumber
  | notList
  | tooFew (least actual : Nat)
  | rejected (reason : String)
  | notMoment (fromText : Bool) (fault : MomentFault)
  | notRecord (name : String)
  | notItem
  | untagged
  | unknownTag (tag : String) (expected : List String)

namespace FieldFault

def plural (count : Nat) (noun : String) : String :=
  toString count ++ " " ++ noun ++ (if count = 1 then "" else "s")

def apostrophed (text : String) : String := "'" ++ text ++ "'"

/-- Quoted options, with `or` before the last. -/
def alternatives : List String → String
  | [] => ""
  | [option] => apostrophed option
  | [first, last] => apostrophed first ++ " or " ++ apostrophed last
  | option :: rest => apostrophed option ++ ", " ++ alternatives rest

def message : FieldFault → String
  | .missing => "Field required"
  | .undeclared => "Extra inputs are not permitted"
  | .notText => "Input should be a valid string"
  | .notUnicode =>
    "Input should be a valid string, unable to parse raw data as a unicode string"
  | .textTooShort least => "String should have at least " ++ plural least "character"
  | .textTooLong most => "String should have at most " ++ plural most "character"
  | .unmatched pattern => "String should match pattern " ++ apostrophed pattern
  | .notAmong options => "Input should be " ++ alternatives options
  | .notFlag => "Input should be a valid boolean"
  | .unclearFlag => "Input should be a valid boolean, unable to interpret input"
  | .notWhole => "Input should be a valid integer"
  | .fractional => "Input should be a valid integer, got a number with a fractional part"
  | .unreadableWhole =>
    "Input should be a valid integer, unable to parse string as an integer"
  | .wholeTooLong => "Unable to parse input string as an integer, exceeded maximum size"
  | .notFinite => "Input should be a finite number"
  | .notNumber => "Input should be a valid number"
  | .unreadableNumber => "Input should be a valid number, unable to parse string as a number"
  | .notList => "Input should be a valid tuple"
  | .tooFew least actual =>
    "Tuple should have at least " ++ plural least "item" ++ " after validation, not " ++
      toString actual
  | .rejected reason => "Value error, " ++ reason
  | .notMoment fromText fault => fault.message fromText
  | .notRecord name => "Input should be a valid dictionary or instance of " ++ name
  | .notItem => "Input should be a valid dictionary or object to extract fields from"
  | .untagged => "Unable to extract tag using discriminator 'type'"
  | .unknownTag tag expected =>
    "Input tag '" ++ tag ++ "' found using 'type' does not match any of the expected tags: " ++
      String.intercalate ", " (expected.map apostrophed)

end FieldFault

/-- A fault and the place it is found at. -/
structure FieldIssue where
  path : Path
  fault : FieldFault

namespace FieldIssue

def here (fault : FieldFault) : FieldIssue := ⟨[], fault⟩

def under (step : Step) (issue : FieldIssue) : FieldIssue :=
  { issue with path := step :: issue.path }

def text (issue : FieldIssue) : String :=
  issue.path.dotted "value" ++ ": " ++ issue.fault.message

end FieldIssue

end WorkItems
