import WorkItems.Schema.Builder

namespace WorkItems.Schema

/-! The registered schemas of items and of project documents.

Every item schema is closed and extends the fields that all items share.
-/

def idPattern : String := "^[a-zA-Z0-9_-]+$"

/-- Three numbers joined by points, and perhaps one qualifier. -/
def versionPattern : String := "^\\d+\\.\\d+\\.\\d+(-[a-zA-Z0-9]+)?$"

/-- A string with no rule beside its type. -/
def anyText : Value := textSchema .null .null .null .null

def nonemptyText : Value := textSchema (.int 1) .null .null .null

def momentText : Value := textSchema .null .null .null (.text "date-time")

def textOrNull (rules : Members) : Value :=
  .object (("type", .array [.text "string", .text "null"]) :: rules)

def choice (options : List String) : Value :=
  choiceSchema (options.map .text)

def names (required : List String) : List Value :=
  required.map .text

def sharedRequired : List String :=
  ["id", "title", "description", "status", "priority", "createdAt", "updatedAt"]

def sharedProperties : Members :=
  [("id", textSchema (.int 1) .null (.text idPattern) .null),
   ("title", textSchema (.int 1) (.int 200) .null .null),
   ("description", textSchema .null (.int 2000) .null .null),
   ("priority", choice (Priority.all.map Priority.text)),
   ("assignee", textOrNull []),
   ("tags", arraySchema anyText .null .null false),
   ("createdAt", momentText),
   ("updatedAt", momentText)]

def baseItem : Value :=
  objectSchema sharedProperties (names sharedRequired) true

/-- The schema of a kind of item, given what it adds to the shared fields. -/
def itemSchema (required : List String) (properties : Members) : Value :=
  objectSchema (Members.merge sharedProperties properties)
    (names (sharedRequired ++ required)) true

def feature : Value :=
  itemSchema ["type", "acceptanceCriteria"]
    [("type", constantSchema (.text "feature")),
     ("status", choice (FeatureStatus.all.map FeatureStatus.text)),
     ("epic", textOrNull [("minLength", .int 1)]),
     ("storyPoints", numberSchema (.int 1) (.int 21) true),
     ("acceptanceCriteria", arraySchema nonemptyText (.int 1) .null false)]

def bug : Value :=
  itemSchema ["type", "severity", "reproducible", "stepsToReproduce", "environment"]
    [("type", constantSchema (.text "bug")),
     ("status", choice (BugStatus.all.map BugStatus.text)),
     ("severity", choice (Severity.all.map Severity.text)),
     ("reproducible", booleanSchema),
     ("stepsToReproduce", arraySchema nonemptyText (.int 1) .null false),
     ("environment", nonemptyText),
     ("resolution", textOrNull [("minLength", .int 1)])]

def task : Value :=
  itemSchema ["type", "subtasks"]
    [("type", constantSchema (.text "task")),
     ("status", choice (TaskStatus.all.map TaskStatus.text)),
     ("dueDate", textOrNull [("format", .text "date-time")]),
     ("estimatedHours", numberSchema (.int 0) .null false),
     ("actualHours", numberSchema (.int 0) .null false),
     ("subtasks", arraySchema (textSchema .null .null (.text idPattern) .null) .null .null true)]

def projectMetadata : Value :=
  objectSchema
    [("projectName", textSchema (.int 1) (.int 100) .null .null),
     ("version", textSchema .null .null (.text versionPattern) .null),
     ("lastUpdated", momentText)]
    (names ["projectName", "version", "lastUpdated"]) true

def projectData : Value :=
  objectSchema
    [("features", arraySchema feature .null .null false),
     ("bugs", arraySchema bug .null .null false),
     ("tasks", arraySchema task .null .null false),
     ("metadata", projectMetadata)]
    (names ["features", "bugs", "tasks", "metadata"]) true

inductive SchemaName where
  | baseItem
  | feature
  | bug
  | task
  | projectData
deriving DecidableEq

namespace SchemaName

def all : List SchemaName := [.baseItem, .feature, .bug, .task, .projectData]

def text : SchemaName → String
  | .baseItem => "baseItem"
  | .feature => "feature"
  | .bug => "bug"
  | .task => "task"
  | .projectData => "projectData"

def ofItemType : ItemType → SchemaName
  | .feature => .feature
  | .bug => .bug
  | .task => .task

def schema : SchemaName → Value
  | .baseItem => Schema.baseItem
  | .feature => Schema.feature
  | .bug => Schema.bug
  | .task => Schema.task
  | .projectData => Schema.projectData

end SchemaName

/-- The schema registered under a name. -/
def registered (name : Value) : Except Fault Value :=
  match SchemaName.all.find? fun known => name.isText known.text with
  | some known => .ok known.schema
  | none =>
    if name.isKeyable then
      .error (.unknownSchema ("Unknown schema '" ++ name.plain ++ "'. Known schemas: " ++
        String.intercalate ", " (SchemaName.all.map SchemaName.text)))
    else .error .notKeyable

end WorkItems.Schema
