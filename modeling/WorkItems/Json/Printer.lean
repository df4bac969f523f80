import WorkItems.Value.Spelling

namespace WorkItems.Json

/-! JSON text of values, on one line or indented.  Foreign values are written as strings. -/

mutual

def text : Value → String
  | .null => "null"
  | .bool value => if value then "true" else "false"
  | .number value => value.text .json
  | .text value => Text.jsonQuoted value
  | .term value => Text.jsonQuoted value.text
  | .array items => "[" ++ String.intercalate ", " (itemTexts items) ++ "]"
  | .tuple items => "[" ++ String.intercalate ", " (itemTexts items) ++ "]"
  | .object members => "\x7b" ++ String.intercalate ", " (memberTexts members) ++ "\x7d"
  | .foreign kind _ => Text.jsonQuoted (Value.foreignText kind)
termination_by structural value => value

def itemTexts : List Value → List String
  | [] => []
  | item :: items => text item :: itemTexts items
termination_by structural items => items

def memberTexts : List (String × Value) → List String
  | [] => []
  | (key, value) :: rest => (Text.jsonQuoted key ++ ": " ++ text value) :: memberTexts rest
termination_by structural members => members

end

def lineBreak (depth : Nat) : String :=
  String.ofList ('\n' :: List.replicate (2 * depth) ' ')

/-- One part to a line, one step further in than the brackets; nothing between empty brackets. -/
def block (opening closing : String) (depth : Nat) (parts : List String) : String :=
  if parts.isEmpty then opening ++ closing
  else
    opening ++ lineBreak (depth + 1) ++ String.intercalate ("," ++ lineBreak (depth + 1)) parts ++
      lineBreak depth ++ closing

mutual

def indented : Value → Nat → String
  | .array items, depth => block "[" "]" depth (indentedItems items (depth + 1))
  | .tuple items, depth => block "[" "]" depth (indentedItems items (depth + 1))
  | .object members, depth =>
    block "\x7b" "\x7d" depth (indentedMembers members (depth + 1))
  | value, _ => text value
termination_by structural value => value

def indentedItems : List Value → Nat → List String
  | [], _ => []
  | item :: items, depth => indented item depth :: indentedItems items depth
termination_by structural items => items

def indentedMembers : List (String × Value) → Nat → List String
  | [], _ => []
  | (key, value) :: rest, depth =>
    (Text.jsonQuoted key ++ ": " ++ indented value depth) :: indentedMembers rest depth
termination_by structural members => members

end

end WorkItems.Json
