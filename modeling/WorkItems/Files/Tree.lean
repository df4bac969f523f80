import WorkItems.Files.Fault
import WorkItems.Files.Location

namespace WorkItems

/-! A tree of files below a working folder.

Files and folders go by the names from the working folder down to them.  A folder is there when it
is listed or when something lies below it.  Of what lies beyond the working folder only folders
are known to be there: reading finds nothing in them, and what is written there is not kept.
-/

structure FileTree where
  files : List (List String × ByteArray)
  folders : List (List String)

namespace FileTree

/-- Where a location leads. -/
inductive Spot where
  | within (names : List String)
  | beyond
deriving DecidableEq

def isFolder (tree : FileTree) (names : List String) : Bool :=
  names.isEmpty || tree.folders.any names.isPrefixOf ||
    tree.files.any fun file => names.isPrefixOf file.1 && names != file.1

def file? (tree : FileTree) (names : List String) : Option ByteArray :=
  tree.files.lookup names

/-- One part further on; only folders have anything below them, or a folder above. -/
def step (tree : FileTree) (spot : Spot) (part : String) : Except FileFault Spot :=
  match spot with
  | .beyond => if part = ".." then .ok .beyond else .error .notFound
  | .within names =>
    if tree.isFolder names then
      if part = ".." then .ok (if names.isEmpty then .beyond else .within names.dropLast)
      else .ok (.within (names ++ [part]))
    else if (tree.file? names).isSome then .error .notFolder
    else .error .notFound

def start (location : Location) : Spot :=
  if location.root.isEmpty then .within [] else .beyond

def isNameable (location : Location) : Bool :=
  location.parts.all fun part => !part.toList.contains '\x00'

def resolve (tree : FileTree) (location : Location) : Except FileFault Spot :=
  if isNameable location then location.parts.foldlM (step tree) (start location)
  else .error .unnameable

def read (tree : FileTree) (location : Location) : Contents := do
  match ← tree.resolve location with
  | .beyond => throw .isFolder
  | .within names =>
    match tree.file? names with
    | some bytes => pure bytes
    | none => throw (if tree.isFolder names then .isFolder else .notFound)

/-- Whether there is a file or a folder. -/
def exists? (tree : FileTree) (location : Location) : Bool :=
  match tree.resolve location with
  | .ok .beyond => true
  | .ok (.within names) => tree.isFolder names || (tree.file? names).isSome
  | .error _ => false

/-- The first name below a folder on the way to something in it. -/
def below? : List String → List String → Option String
  | [], name :: _ => some name
  | folder :: folders, name :: names => if folder = name then below? folders names else none
  | _, [] => none

/-- The names in a folder, each once; there are none in anything but a folder. -/
def names (tree : FileTree) (location : Location) : List String :=
  match tree.resolve location with
  | .ok (.within folder) =>
    ((tree.files.map Prod.fst ++ tree.folders).filterMap (below? folder)).eraseDups
  | _ => []

/-- One part further on, making the folder where there is none.  A file in the way is where a
folder has to be `made`, or else it is something that cannot be gone through. -/
def enter (tree : FileTree) (spot : Spot) (part : String) (made : Bool) :
    Except FileFault (FileTree × Spot) :=
  match spot with
  | .beyond => .ok (tree, .beyond)
  | .within names =>
    if part = ".." then .ok (tree, if names.isEmpty then .beyond else .within names.dropLast)
    else
      let names := names ++ [part]
      if tree.isFolder names then .ok (tree, .within names)
      else if (tree.file? names).isSome then .error (if made then .alreadyExists else .notFolder)
      else .ok ({ tree with folders := names :: tree.folders }, .within names)

/-- All parts in turn.  The last one has to be made, and so has every one after a folder that was
not there before. -/
def enterAll (tree : FileTree) (spot : Spot) (made : Bool) :
    List String → Except FileFault FileTree
  | [] => .ok tree
  | part :: parts => do
    let (next, spot) ← enter tree spot part (made || parts.isEmpty)
    enterAll next spot (made || decide (tree.folders.length < next.folders.length)) parts

/-- Makes a folder and all folders above it, as far as they are not there yet. -/
def makeFolder (tree : FileTree) (location : Location) : Except FileFault FileTree :=
  if isNameable location then enterAll tree (start location) false location.parts
  else .error .unnameable

/-- Where a file is written: in a folder that is there. -/
def target (tree : FileTree) (location : Location) (name : String) :
    Except FileFault Spot := do
  match ← tree.resolve location with
  | .beyond => pure .beyond
  | spot => tree.step spot name

/-- Writes a file into a folder, in place of a file that has its name. -/
def write (tree : FileTree) (folder : Location) (name : String) (bytes : ByteArray) :
    Except FileFault FileTree := do
  match ← tree.target folder name with
  | .beyond => pure tree
  | .within names =>
    if tree.isFolder names then throw .isFolder
    else pure { tree with files := (names, bytes) :: tree.files.filter fun file => file.1 != names }

end FileTree

end WorkItems
