import WorkItems.CommandLine.DocumentCheck
import WorkItems.CommandLine.FolderCheck
import WorkItems.CommandLine.SchemaExport

namespace WorkItems

/-! The commands, run on a tree of files. -/

namespace CommandLine

inductive Command where
  | checkDocument
  | checkFolder
  | exportSchemas
deriving DecidableEq

/-- What a command leaves behind on a machine when it is given arguments, and the files after it. -/
def Command.run (limits : Limits) (command : Command) (tree : FileTree)
    (arguments : List String) : Report × FileTree :=
  match command with
  | .checkDocument => (DocumentCheck.run limits tree arguments, tree)
  | .checkFolder => (FolderCheck.run limits tree arguments, tree)
  | .exportSchemas => SchemaExport.run tree arguments

end CommandLine

end WorkItems
