import WorkItems.Value

namespace WorkItems.Value

/-! How deep values are nested. -/

mutual

/-- The number of arrays and objects that lie in each other where they are nested deepest. -/
def depth : Value → Nat
  | .array items | .tuple items => depthOfItems items + 1
  | .object members => depthOfMembers members + 1
  | _ => 0
termination_by structural value => value

def depthOfItems : List Value → Nat
  | [] => 0
  | item :: items => max (depth item) (depthOfItems items)
termination_by structural items => items

def depthOfMembers : List (String × Value) → Nat
  | [] => 0
  | (_, value) :: rest => max (depth value) (depthOfMembers rest)
termination_by structural members => members

end

end WorkItems.Value
