import WorkItems.CommandLine.Command

namespace WorkItems.Main

/-! The program: the commands on the files of this machine. -/

open CommandLine

/-- A location for the machine, from the working folder. -/
def entry (location : Location) : IO.FS.DirEntry := ⟨".", location.text⟩

/-- What is read when reading breaks off. -/
def faultOf : IO.Error → FileFault
  | .inappropriateType .. => .notFolder
  | .alreadyExists .. => .alreadyExists
  | _ => .notFound

def read (location : Location) : IO Contents := do
  let path := (entry location).path
  if ← path.isDir then pure (.error .isFolder)
  else
    match ← (IO.FS.readBinFile path).toBaseIO with
    | .ok bytes => pure (.ok bytes)
    | .error error => pure (.error (faultOf error))

def documentsIn (folder : Location) : IO (Option (List (String × Contents))) := do
  let path := (entry folder).path
  if ← path.isDir then
    let names := (← path.readDir).toList.map (·.fileName)
    pure (some (← (FolderCheck.documentNames names).mapM fun name => do
      pure (name, ← read (folder.child name))))
  else if ← path.pathExists then pure (some [])
  else pure none

def write (folder : Location) : IO (Except FileFault Unit) := do
  let attempt : IO Unit := do
    IO.FS.createDirAll (entry folder).path
    for (name, text) in SchemaExport.files do
      IO.FS.writeFile (entry (folder.child name)).path text
  match ← attempt.toBaseIO with
  | .ok () => pure (.ok ())
  | .error error => pure (.error (faultOf error))

def checkDocument (given : Given) : IO Report := do
  let options := DocumentCheck.Options.ofGiven given
  pure (DocumentCheck.report .usual options (← read options.location))

def checkFolder (given : Given) : IO Report := do
  let folder := FolderCheck.folderOf given
  pure (FolderCheck.report .usual folder (← documentsIn folder))

def exportSchemas (given : Given) : IO Report := do
  let folder := SchemaExport.folderOf given
  match ← write folder with
  | .ok () => pure (SchemaExport.report folder (SchemaExport.files.map Prod.fst))
  | .error fault => pure (.interrupted (.file fault))

/-- Runs a command when its arguments ask for that. -/
def respond (request : Request) (run : Given → IO Report) : IO Report :=
  match request with
  | .proceed given => run given
  | request => pure (request.report fun _ => .silent 0)

def finish (report : Report) : IO UInt32 := do
  IO.print report.output
  match report.ending with
  | .ok code => pure code.toUInt32
  | .error _ =>
    IO.eprintln "The command breaks off."
    pure 1

end WorkItems.Main

open WorkItems CommandLine in
/-- The first argument names the command: `document`, `folder` or `schemas`. -/
def main (arguments : List String) : IO UInt32 := do
  match arguments with
  | "document" :: rest =>
    Main.finish (← Main.respond (DocumentCheck.signature.read rest) Main.checkDocument)
  | "folder" :: rest =>
    Main.finish (← Main.respond (FolderCheck.signature.read rest) Main.checkFolder)
  | "schemas" :: rest =>
    Main.finish (← Main.respond (SchemaExport.signature.read rest) Main.exportSchemas)
  | _ =>
    IO.eprintln "The first argument has to be document, folder or schemas."
    pure 2
