namespace WorkItems

/-! The fixed vocabularies of work items: kinds, workflow states, priorities and severities.

Every term has one text, by which documents name it.
-/

inductive ItemType where
  | feature
  | bug
  | task
deriving DecidableEq, Inhabited

inductive Priority where
  | low
  | medium
  | high
  | critical
deriving DecidableEq

inductive Severity where
  | low
  | medium
  | high
  | critical
deriving DecidableEq

inductive FeatureStatus where
  | backlog
  | planning
  | inProgress
  | testing
  | completed
deriving DecidableEq

inductive BugStatus where
  | opened
  | inProgress
  | resolved
  | closed
  | wontFix
deriving DecidableEq

inductive TaskStatus where
  | todo
  | inProgress
  | blocked
  | completed
deriving DecidableEq

namespace ItemType

def all : List ItemType := [.feature, .bug, .task]

def text : ItemType → String
  | .feature => "feature"
  | .bug => "bug"
  | .task => "task"

def ofText? (text : String) : Option ItemType :=
  all.find? fun kind => kind.text == text

/-- The name of the kind as a class of items. -/
def title : ItemType → String
  | .feature => "Feature"
  | .bug => "Bug"
  | .task => "Task"

end ItemType

namespace Priority

def all : List Priority := [.low, .medium, .high, .critical]

def text : Priority → String
  | .low => "low"
  | .medium => "medium"
  | .high => "high"
  | .critical => "critical"

end Priority

namespace Severity

def all : List Severity := [.low, .medium, .high, .critical]

def text : Severity → String
  | .low => "low"
  | .medium => "medium"
  | .high => "high"
  | .critical => "critical"

end Severity

namespace FeatureStatus

def all : List FeatureStatus := [.backlog, .planning, .inProgress, .testing, .completed]

def text : FeatureStatus → String
  | .backlog => "backlog"
  | .planning => "planning"
  | .inProgress => "in-progress"
  | .testing => "testing"
  | .completed => "completed"

end FeatureStatus

namespace BugStatus

def all : List BugStatus := [.opened, .inProgress, .resolved, .closed, .wontFix]

def text : BugStatus → String
  | .opened => "open"
  | .inProgress => "in-progress"
  | .resolved => "resolved"
  | .closed => "closed"
  | .wontFix => "wont-fix"

end BugStatus

namespace TaskStatus

def all : List TaskStatus := [.todo, .inProgress, .blocked, .completed]

def text : TaskStatus → String
  | .todo => "todo"
  | .inProgress => "in-progress"
  | .blocked => "blocked"
  | .completed => "completed"

end TaskStatus

/-- A term of any of the vocabularies. -/
inductive Term where
  | itemType (kind : ItemType)
  | priority (level : Priority)
  | severity (level : Severity)
  | featureStatus (status : FeatureStatus)
  | bugStatus (status : BugStatus)
  | taskStatus (status : TaskStatus)
deriving DecidableEq

namespace Term

def all : List Term :=
  ItemType.all.map .itemType ++ Priority.all.map .priority ++ Severity.all.map .severity ++
    FeatureStatus.all.map .featureStatus ++ BugStatus.all.map .bugStatus ++
    TaskStatus.all.map .taskStatus

def text : Term → String
  | .itemType kind => kind.text
  | .priority level => level.text
  | .severity level => level.text
  | .featureStatus status => status.text
  | .bugStatus status => status.text
  | .taskStatus status => status.text

def vocabulary : Term → String
  | .itemType _ => "ItemType"
  | .priority _ => "Priority"
  | .severity _ => "Severity"
  | .featureStatus _ => "FeatureStatus"
  | .bugStatus _ => "BugStatus"
  | .taskStatus _ => "TaskStatus"

/-- A term is labelled by its text, in capitals and with underscores for hyphens. -/
def label (term : Term) : String :=
  String.ofList (term.text.toList.map fun c => if c = '-' then '_' else c.toUpper)

/-- The full name of a term, unlike its text, tells the vocabularies apart. -/
def name (term : Term) : String :=
  term.vocabulary ++ "." ++ term.label

def ofName? (name : String) : Option Term :=
  all.find? fun term => term.name == name

end Term

end WorkItems
