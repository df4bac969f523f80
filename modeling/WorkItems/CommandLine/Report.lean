import WorkItems.CommandLine.Arguments
import WorkItems.Failure
import WorkItems.Files.Fault

namespace WorkItems.CommandLine

/-! What a command leaves behind: what it prints, and how it ends. -/

/-- Why a command breaks off. -/
inductive Interruption where
  | file (fault : FileFault)
  /-- Something fails that is not about the document. -/
  | failure (failure : Failure)
  /-- What is to be printed has no form in bytes. -/
  | unencodable

structure Report where
  output : String
  /-- The exit code, unless the command breaks off. -/
  ending : Except Interruption Nat

namespace Report

/-- A command that ends without printing anything more. -/
def silent (code : Nat) : Report := ⟨"", .ok code⟩

def interrupted (interruption : Interruption) : Report := ⟨"", .error interruption⟩

/-- The same report with something printed before it.  A text that has no form in bytes is not
printed at all, and the command breaks off there. -/
def after (text : String) (report : Report) : Report :=
  if Text.isEncodable text then { report with output := text ++ report.output }
  else interrupted .unencodable

/-- The same report with lines printed before it, one after the other. -/
def afterLines (texts : List String) (report : Report) : Report :=
  texts.foldr (fun text => after (text ++ "\n")) report

/-- Prints lines and ends. -/
def exit (texts : List String) (code : Nat) : Report := (silent code).afterLines texts

end Report

/-- Runs a command when its arguments ask for that; help and misuse print nothing here. -/
def Request.report (request : Request) (run : Given → Report) : Report :=
  match request with
  | .help => .silent 0
  | .misuse => .silent 2
  | .proceed given => run given

end WorkItems.CommandLine
