import WorkItems.CommandLine.Report
import WorkItems.Files.Tree
import WorkItems.Schema.Registry

namespace WorkItems.CommandLine

/-! The command that writes every registered schema to a file of its own. -/

namespace SchemaExport

def signature : Signature where
  options := []
  hasOperand := true

def folderOf (given : Given) : Location :=
  Location.ofText (given.operand.getD "")

/-- The language that the schemas are written in. -/
def dialect : String := "http://json-schema.org/draft-07/schema#"

/-- A schema as a document of its own, which says its language and its title first. -/
def document (name : Schema.SchemaName) : Value :=
  let heading := [("$schema", Value.text dialect), ("title", .text name.text)]
  .object (Members.merge heading (name.schema.asMembers?.getD []))

def fileName (name : Schema.SchemaName) : String :=
  name.text ++ ".schema.json"

def fileText (name : Schema.SchemaName) : String :=
  Json.indented (document name) 0 ++ "\n"

/-- The files to write, by name. -/
def files : List (String × String) :=
  Schema.SchemaName.all.map fun name => (fileName name, fileText name)

def writeAll (folder : Location) :
    FileTree → List (String × String) → FileTree × Option FileFault
  | tree, [] => (tree, none)
  | tree, (name, text) :: rest =>
    match tree.write folder name text.toUTF8 with
    | .ok tree => writeAll folder tree rest
    | .error fault => (tree, some fault)

def report (folder : Location) (names : List String) : Report :=
  .exit (names.map fun name => "wrote " ++ (folder.child name).text) 0

/-- What is written is told only after everything has been written. -/
def exportTo (tree : FileTree) (folder : Location) : Report × FileTree :=
  match tree.makeFolder folder with
  | .error fault => (.interrupted (.file fault), tree)
  | .ok tree =>
    match writeAll folder tree files with
    | (tree, none) => (report folder (files.map Prod.fst), tree)
    | (tree, some fault) => (.interrupted (.file fault), tree)

def run (tree : FileTree) (arguments : List String) : Report × FileTree :=
  match signature.read arguments with
  | .proceed given => exportTo tree (folderOf given)
  | request => (request.report fun _ => .silent 0, tree)

end SchemaExport

end WorkItems.CommandLine
