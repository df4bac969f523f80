namespace WorkItems

/-! Locations of files, as they are written on a command line.

A location is a root, which is empty for a location that starts from the working folder, and the
parts below it.  Empty parts and single points say nothing and are dropped; two points stay,
because where they lead depends on what the parts before them are.
-/

structure Location where
  root : String
  parts : List String
deriving DecidableEq

namespace Location

/-- Of the slashes in front only none, exactly two, or any other number are told apart. -/
def rootOf (slashes : Nat) : String :=
  match slashes with
  | 0 => ""
  | 2 => "//"
  | _ => "/"

def speaks (part : String) : Bool :=
  part != "" && part != "."

def partsOf (text : List Char) : List String :=
  ((text.splitOn '/').map String.ofList).filter speaks

def ofText (text : String) : Location :=
  ⟨rootOf (text.toList.takeWhile (· == '/')).length, partsOf text.toList⟩

/-- Nothing at all is written as a single point. -/
def text (location : Location) : String :=
  if location.root.isEmpty && location.parts.isEmpty then "."
  else location.root ++ String.intercalate "/" location.parts

/-- The last part. -/
def name (location : Location) : String :=
  location.parts.getLast?.getD ""

def child (location : Location) (name : String) : Location :=
  { location with parts := location.parts ++ [name] }

end Location

end WorkItems
