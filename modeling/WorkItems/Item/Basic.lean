import WorkItems.Item.Forms
import WorkItems.Workflow

namespace WorkItems

/-! Items and projects: records that have been read against their forms. -/

/-- A feature, a bug or a task. -/
structure Item where
  kind : ItemType
  record : Record

namespace Item

/-- What an item has in a text field; an unset field reads as empty. -/
def textAt (item : Item) (name : String) : String :=
  match item.record.lookup name with
  | some (.text value) => value
  | _ => ""

def id (item : Item) : String := item.textAt "id"

def status (item : Item) : String := item.textAt "status"

def toMembers (item : Item) : Members := item.record.toMembers

/-- The document form of an item, with its unset fields left out. -/
def toValue (item : Item) : Value := item.record.toValue

/-- An item of a known kind. -/
def readAs (kind : ItemType) (value : Value) : Except (List FieldIssue) Item := do
  pure ⟨kind, ← (Forms.ofItemType kind).read kind.title value⟩

/-- An item of the kind that its tag says; its issues are found under that tag. -/
def read (value : Value) : Except (List FieldIssue) Item :=
  match value with
  | .object members =>
    match members.lookup "type" with
    | none => .error [.here .untagged]
    | some tag =>
      match tag.asText?.bind ItemType.ofText? with
      | none =>
        .error [.here (.unknownTag tag.plain (ItemType.all.map ItemType.text))]
      | some kind =>
        match readAs kind value with
        | .ok item => .ok item
        | .error issues => .error (issues.map (.under (.key kind.text)))
  | _ => .error [.here .notItem]

/-- Whether an item may change to a status. -/
def mayBecome (item : Item) (wanted : Value) : Bool :=
  Workflow.allows item.kind (.text item.status) wanted

end Item

/-- All items of a project, by kind, and what is said of the project itself. -/
structure Project where
  features : List Item
  bugs : List Item
  tasks : List Item
  metadata : Record

namespace Project

/-- The outcomes of reading each item of a list, apart. -/
def readEach (kind : ItemType) : Nat → List Value → List Item × List FieldIssue
  | _, [] => ([], [])
  | position, value :: values =>
    let (items, issues) := readEach kind (position + 1) values
    match Item.readAs kind value with
    | .ok item => (item :: items, issues)
    | .error found => (items, found.map (.under (.index position)) ++ issues)

/-- The items of one kind, and the issues found under the name of their list. -/
def readList (kind : ItemType) (name : String) (members : Members) :
    List Item × List FieldIssue :=
  match members.lookup name with
  | none => ([], [⟨[.key name], .missing⟩])
  | some value =>
    match listOf? value with
    | none => ([], [⟨[.key name], .notList⟩])
    | some values =>
      let (items, issues) := readEach kind 0 values
      (items, issues.map (.under (.key name)))

def readMetadata (members : Members) : Record × List FieldIssue :=
  match members.lookup "metadata" with
  | none => ([], [⟨[.key "metadata"], .missing⟩])
  | some value =>
    match Forms.metadata.read "ProjectMetadata" value with
    | .ok record => (record, [])
    | .error issues => ([], issues.map (.under (.key "metadata")))

def fieldNames : List String := ["features", "bugs", "tasks", "metadata"]

def undeclared (members : Members) : List FieldIssue :=
  (members.filter fun member => !fieldNames.contains member.1).map
    fun member => ⟨[.key member.1], .undeclared⟩

def read (value : Value) : Except (List FieldIssue) Project :=
  match value with
  | .object members =>
    let (features, featureIssues) := readList .feature "features" members
    let (bugs, bugIssues) := readList .bug "bugs" members
    let (tasks, taskIssues) := readList .task "tasks" members
    let (metadata, metadataIssues) := readMetadata members
    let issues :=
      featureIssues ++ bugIssues ++ taskIssues ++ metadataIssues ++ undeclared members
    if issues.isEmpty then .ok ⟨features, bugs, tasks, metadata⟩ else .error issues
  | _ => .error [.here (.notRecord "ProjectData")]

def toValue (project : Project) : Value :=
  .object
    [("features", .array (project.features.map Item.toValue)),
     ("bugs", .array (project.bugs.map Item.toValue)),
     ("tasks", .array (project.tasks.map Item.toValue)),
     ("metadata", project.metadata.toValue)]

end Project

end WorkItems
