import WorkItems.Fault
import WorkItems.Value.Spelling

namespace WorkItems

/-! Which status may follow which, for each kind of item.  A status that nothing follows is
terminal. -/

namespace FeatureStatus

def next : FeatureStatus → List FeatureStatus
  | .backlog => [.planning]
  | .planning => [.inProgress, .backlog]
  | .inProgress => [.testing, .planning]
  | .testing => [.completed, .inProgress]
  | .completed => []

end FeatureStatus

namespace BugStatus

def next : BugStatus → List BugStatus
  | .opened => [.inProgress, .wontFix]
  | .inProgress => [.resolved, .opened]
  | .resolved => [.closed, .opened]
  | .closed => [.opened]
  | .wontFix => [.opened]

end BugStatus

namespace TaskStatus

def next : TaskStatus → List TaskStatus
  | .todo => [.inProgress]
  | .inProgress => [.blocked, .completed, .todo]
  | .blocked => [.inProgress, .todo]
  | .completed => []

end TaskStatus

namespace Workflow

/-- The statuses of a kind of item, each with those that may follow it. -/
def table : ItemType → List (String × List String)
  | .feature => FeatureStatus.all.map fun status => (status.text, status.next.map (·.text))
  | .bug => BugStatus.all.map fun status => (status.text, status.next.map (·.text))
  | .task => TaskStatus.all.map fun status => (status.text, status.next.map (·.text))

/-- The statuses that may follow a known one. -/
def next? (kind : ItemType) (status : String) : Option (List String) :=
  (table kind).lookup status

/-- Anything but a known status has nothing to follow it, and nothing but a status may follow. -/
def allows (kind : ItemType) (current wanted : Value) : Bool :=
  match current.asText? with
  | none => false
  | some status => ((next? kind status).getD []).any wanted.isText

/-- The followers of a status as it is found under a kind tag; neither has to be known. -/
def followers? (kind status : Value) : Except Fault (Option (List String)) :=
  if kind.isKeyable && status.isKeyable then
    .ok (do next? (← ItemType.ofText? (← kind.asText?)) (← status.asText?))
  else .error .notKeyable

def followers (kind status : Value) : Except Fault (List String) := do
  pure ((← followers? kind status).getD [])

/-- Whether a status is known and has no way out. -/
def isTerminal (kind status : Value) : Except Fault Bool := do
  pure ((← followers? kind status) == some [])

/-- A change of status that the workflow does not allow. -/
structure Refusal where
  current : Value
  wanted : Value
  kind : Value
  allowed : List String

def refusal (current wanted kind : Value) : Except Fault Refusal := do
  pure ⟨current, wanted, kind, ← followers kind current⟩

def Refusal.message (refusal : Refusal) : String :=
  "Transition '" ++ refusal.current.plain ++ "' -> '" ++ refusal.wanted.plain ++
    "' is not allowed for " ++ refusal.kind.plain ++ ". Allowed next statuses: " ++
    (if refusal.allowed.isEmpty then "none" else String.intercalate ", " refusal.allowed)

end Workflow

namespace ItemTag

/-- The tag of an item, or null when it has none that is a string.  A term of the kinds gives way
to its text. -/
def ofValue : Value → Value
  | .object members =>
    match Members.valueAt members "type" with
    | .term (.itemType kind) => .text kind.text
    | .text tag => .text tag
    | .term term => .term term
    | _ => .null
  | _ => .null

def isKind (kind : ItemType) (item : Value) : Bool :=
  (ofValue item).isText kind.text

/-- The known kind that an item is tagged with. -/
def kind? (item : Value) : Option ItemType :=
  (ofValue item).asText?.bind ItemType.ofText?

/-- Whether an item may change to a status; items of unknown kinds may not change. -/
def mayBecome (item wanted : Value) : Bool :=
  match kind? item, item with
  | some kind, .object members => Workflow.allows kind (Members.valueAt members "status") wanted
  | _, _ => false

end ItemTag

end WorkItems
