import WorkItems.Item.Form
import WorkItems.Schema.Registry

namespace WorkItems.Forms

/-! The forms of features, bugs, tasks and project metadata. -/

def plainField (name : String) (type : FieldType) (presence : Presence) : Field :=
  ⟨name, name, type, presence⟩

def nonempty : TextRule := { least := 1 }

def identifier : TextRule := { least := 1, pattern := some Schema.idPattern }

/-- The fields of every item up to its kind; the status stands among them. -/
def shared (statuses : List String) (kind : ItemType) : Form :=
  [plainField "id" (.text identifier) .required,
   plainField "title" (.text { least := 1, most := some 200 }) .required,
   plainField "description" (.text { most := some 2000 }) .required,
   plainField "status" (.choice statuses) .required,
   plainField "priority" (.choice (Priority.all.map Priority.text)) .required,
   plainField "assignee" (.text {}) .optional,
   plainField "tags" (.texts {} 0 false) (.withDefault (.texts [])),
   ⟨"createdAt", "created_at", .moment, .required⟩,
   ⟨"updatedAt", "updated_at", .moment, .required⟩,
   plainField "type" (.choice [kind.text]) (.withDefault (.text kind.text))]

def feature : Form :=
  shared (FeatureStatus.all.map FeatureStatus.text) .feature ++
    [plainField "epic" (.text nonempty) .optional,
     ⟨"storyPoints", "story_points", .points, .optional⟩,
     ⟨"acceptanceCriteria", "acceptance_criteria", .texts nonempty 1 false, .required⟩]

def bug : Form :=
  shared (BugStatus.all.map BugStatus.text) .bug ++
    [plainField "severity" (.choice (Severity.all.map Severity.text)) .required,
     plainField "reproducible" .flag .required,
     ⟨"stepsToReproduce", "steps_to_reproduce", .texts nonempty 1 false, .required⟩,
     plainField "environment" (.text nonempty) .required,
     plainField "resolution" (.text nonempty) .optional]

def task : Form :=
  shared (TaskStatus.all.map TaskStatus.text) .task ++
    [⟨"dueDate", "due_date", .moment, .optional⟩,
     ⟨"estimatedHours", "estimated_hours", .hours, .optional⟩,
     ⟨"actualHours", "actual_hours", .hours, .optional⟩,
     plainField "subtasks" (.texts { pattern := some Schema.idPattern } 0 true) .required]

def metadata : Form :=
  [⟨"projectName", "project_name", .text { least := 1, most := some 100 }, .required⟩,
   plainField "version" (.text { pattern := some Schema.versionPattern }) .required,
   ⟨"lastUpdated", "last_updated", .moment, .required⟩]

def ofItemType : ItemType → Form
  | .feature => feature
  | .bug => bug
  | .task => task

end WorkItems.Forms
