import WorkItems.Value
import WorkItems.Number.Spelling
import WorkItems.Text.Quoted

namespace WorkItems.Value

/-! The written form of values in messages.

A value on its own is written plainly; inside another value, strings are quoted and terms show
both their name and their text.
-/

def foreignText : ForeignKind → String
  | .set => "set()"
  | .bytes => "b'ab'"

mutual

def quoted : Value → String
  | .null => "None"
  | .bool value => if value then "True" else "False"
  | .number value => value.text .plain
  | .text value => Text.quoted value
  | .term value => "<" ++ value.name ++ ": " ++ Text.quoted value.text ++ ">"
  | .array items => "[" ++ String.intercalate ", " (quotedItems items) ++ "]"
  | .tuple items =>
    "(" ++ String.intercalate ", " (quotedItems items) ++
      (if items.length = 1 then ",)" else ")")
  | .object members => "\x7b" ++ String.intercalate ", " (quotedMembers members) ++ "\x7d"
  | .foreign kind _ => foreignText kind
termination_by structural value => value

def quotedItems : List Value → List String
  | [] => []
  | item :: items => quoted item :: quotedItems items
termination_by structural items => items

def quotedMembers : List (String × Value) → List String
  | [] => []
  | (key, value) :: rest => (Text.quoted key ++ ": " ++ quoted value) :: quotedMembers rest
termination_by structural members => members

end

def plain : Value → String
  | .text value => value
  | .term value => value.name
  | value => value.quoted

end WorkItems.Value
