namespace WorkItems

/-! Where in a value something is. -/

inductive Step where
  | key (name : String)
  | index (position : Nat)
deriving DecidableEq

/-- Steps from the outside in. -/
abbrev Path := List Step

def Step.text : Step → String
  | .key name => name
  | .index position => toString position

namespace Path

/-- A path behind a label: keys follow a point and positions stand in brackets. -/
def suffix : Path → String
  | [] => ""
  | .key name :: rest => "." ++ name ++ suffix rest
  | .index position :: rest => "[" ++ toString position ++ "]" ++ suffix rest

/-- Steps joined by points, with a name for the empty path. -/
def dotted (whole : String) : Path → String
  | [] => whole
  | steps => String.intercalate "." (steps.map Step.text)

end Path

end WorkItems
