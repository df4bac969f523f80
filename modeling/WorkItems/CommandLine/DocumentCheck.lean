import WorkItems.CommandLine.Findings
import WorkItems.CommandLine.Report
import WorkItems.Files.Tree

namespace WorkItems.CommandLine

/-! The command that checks one document. -/

namespace DocumentCheck

/-- What a document is taken for: a project, an item of the kind that its tag says, or an item of
a given kind. -/
inductive Content where
  | project
  | taggedItem
  | item (kind : ItemType)
deriving DecidableEq

def Content.text : Content → String
  | .project => "project"
  | .taggedItem => "item"
  | .item kind => kind.text

def Content.all : List Content :=
  .project :: .taggedItem :: ItemType.all.map .item

def Content.ofText? (text : String) : Option Content :=
  all.find? fun content => content.text == text

def signature : Signature where
  options :=
    [("--kind", .value (some (Content.all.map Content.text))), ("--jsonschema", .flag),
     ("--strict", .flag)]
  hasOperand := true

structure Options where
  location : Location
  content : Content
  crossChecked : Bool
  strict : Bool

def Options.ofGiven (given : Given) : Options where
  location := Location.ofText (given.operand.getD "")
  content := ((given.value? "--kind").bind Content.ofText?).getD .project
  crossChecked := given.hasFlag "--jsonschema"
  strict := given.hasFlag "--strict"

/-- The tag of a document, which only objects have. -/
def tagOf : Value → Value
  | .object members => Members.valueAt members "type"
  | _ => .null

/-- The schema to check a document by, unless its tag would have to say which and does not. -/
def schemaName? (content : Content) (document : Value) : Option Schema.SchemaName :=
  match content with
  | .project => some .projectData
  | .item kind => some (.ofItemType kind)
  | .taggedItem =>
    ((tagOf document).asText?.bind ItemType.ofText?).map Schema.SchemaName.ofItemType

/-- How many errors follow, which is told first. -/
def heading (count : Nat) : String :=
  "INVALID: " ++ toString count ++ " error(s)"

def invalid (errors : List String) : Report :=
  .exit (heading errors.length :: errors.map ("- " ++ ·)) 2

/-- A tag that names no kind is told, unless it cannot be printed. -/
def reportTag (limits : Limits) (tag : Value) : Report :=
  match limits.printFault? tag with
  | some breakdown =>
    (Report.interrupted (.failure (.ofBreakdown limits breakdown))).afterLines [heading 1]
  | none => invalid ["Contract: " ++ Failure.kindError tag]

def reportDocument (limits : Limits) (options : Options) (document : Value) : Report :=
  match schemaName? options.content document with
  | none => reportTag limits (tagOf document)
  | some name =>
    match findings limits options.strict options.crossChecked name document with
    | .error failure => .interrupted (.failure failure)
    | .ok [] => .exit ["OK: " ++ options.location.name ++ " is a valid " ++ name.text] 0
    | .ok errors => invalid errors

def report (limits : Limits) (options : Options) (contents : Contents) : Report :=
  match contents.document limits with
  | .error fault => .interrupted (.file fault)
  | .ok document => reportDocument limits options document

def run (limits : Limits) (tree : FileTree) (arguments : List String) : Report :=
  (signature.read arguments).report fun given =>
    let options := Options.ofGiven given
    report limits options (tree.read options.location)

end DocumentCheck

end WorkItems.CommandLine
