import WorkItems.CommandLine.Findings
import WorkItems.CommandLine.Report
import WorkItems.Files.Tree

namespace WorkItems.CommandLine

/-! The command that checks all project documents of a folder. -/

namespace FolderCheck

def signature : Signature where
  options := [("--examples-dir", .value none)]
  hasOperand := false

def folderOf (given : Given) : Location :=
  Location.ofText ((given.value? "--examples-dir").getD "examples/projects")

/-- The names of documents among the names in a folder, in the order of their code points. -/
def documentNames (names : List String) : List String :=
  (names.filter fun name => ".json".toList.isSuffixOf name.toList).mergeSort
    fun left right => !Text.precedes right left

/-- The errors in a document, checked in every way there is. -/
def errorsOf (limits : Limits) (contents : Contents) : Except Interruption (List String) :=
  match contents.document limits with
  | .error fault => .error (.file fault)
  | .ok document => (findings limits true true .projectData document).mapError .failure

/-- What is printed once a document has been checked. -/
def verdictLines (errors : List String) : List String :=
  if errors.isEmpty then ["[PASS]"] else "[FAIL]" :: errors.map ("  - " ++ ·)

/-- Checks documents one after the other and reports them, with what `closing` makes of the names
of those that passed and of those that failed; a document that cannot be read ends it all. -/
def reportEach (limits : Limits) (closing : List String → List String → Report)
    (passed failed : List String) : List (String × Contents) → Report
  | [] => closing passed failed
  | (name, contents) :: rest =>
    let verdict : Report := match errorsOf limits contents with
      | .error interruption => .interrupted interruption
      | .ok errors =>
        let others :=
          if errors.isEmpty then reportEach limits closing (passed ++ [name]) failed rest
          else reportEach limits closing passed (failed ++ [name]) rest
        others.afterLines (verdictLines errors)
    verdict.after ("Validating " ++ name ++ "... ")

/-- What is printed at the end, of those that passed and those that failed. -/
def closingLines (passed failed : List String) : List String :=
  ["", String.ofList (List.replicate 60 '='),
    "Results: " ++ toString passed.length ++ " passed, " ++ toString failed.length ++ " failed"] ++
  if failed.isEmpty then ["", "[SUCCESS] All examples valid!"]
  else "" :: "Failed files:" :: failed.map ("  - " ++ ·)

def closing (passed failed : List String) : Report :=
  .exit (closingLines passed failed) (if failed.isEmpty then 0 else 1)

/-- The report on the documents of a folder, or on there being no folder. -/
def report (limits : Limits) (folder : Location) (found : Option (List (String × Contents))) :
    Report :=
  match found with
  | none => .exit ["ERROR: Examples directory not found: " ++ folder.text] 1
  | some [] => .exit ["WARNING: No .json files found in " ++ folder.text] 0
  | some documents =>
    let heading := "Validating " ++ toString documents.length ++ " example project(s)..."
    (reportEach limits closing [] [] documents).afterLines [heading, ""]

def documentsIn (tree : FileTree) (folder : Location) : Option (List (String × Contents)) :=
  if tree.exists? folder then
    some ((documentNames (tree.names folder)).map fun name =>
      (name, tree.read (folder.child name)))
  else none

def run (limits : Limits) (tree : FileTree) (arguments : List String) : Report :=
  (signature.read arguments).report fun given =>
    let folder := folderOf given
    report limits folder (documentsIn tree folder)

end FolderCheck

end WorkItems.CommandLine
