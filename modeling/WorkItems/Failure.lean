import WorkItems.Limits
import WorkItems.Workflow

namespace WorkItems

/-! Why an operation on items or projects fails. -/

/-- What a schema check is about. -/
inductive Subject where
  | item (kind : ItemType)
  | project
deriving DecidableEq

def Subject.title : Subject → String
  | .item kind => kind.title
  | .project => "Project data"

inductive Failure where
  /-- The schema of the subject does not admit the data. -/
  | invalid (subject : Subject) (errors : List String)
  | notItem
  | unknownKind (tag : Value)
  /-- The schema admits the data, but its fields cannot be read. -/
  | unreadableItem (errors : List String)
  | unreadableProject (errors : List String)
  | refusedTransition (refusal : Workflow.Refusal)
  /-- The request itself is against the rules. -/
  | refusedRequest (message : String)
  | fault (fault : Fault)
  /-- A program breaks down, with a name for how and what it says about it. -/
  | broken (name message : String)

/-- A finding about data: one sentence, and every single violation. -/
structure Finding where
  message : String
  errors : List String

namespace Failure

def kindError (tag : Value) : String :=
  "Expected 'feature', 'bug', or 'task', got '" ++ tag.plain ++ "'"

/-- What a failure says about the data, when it is the data that fails. -/
def finding? : Failure → Option Finding
  | .invalid subject errors => some ⟨subject.title ++ " validation failed", errors⟩
  | .notItem => some ⟨"Invalid project item", ["Expected object"]⟩
  | .unknownKind tag => some ⟨"Invalid project item type", [kindError tag]⟩
  | .unreadableItem errors => some ⟨"Project item model validation failed", errors⟩
  | .unreadableProject errors => some ⟨"Project data model validation failed", errors⟩
  | _ => none

def ofBreakdown (limits : Limits) (breakdown : Breakdown) : Failure :=
  .broken breakdown.name (limits.words breakdown)

/-- The values that a failure has to print to say what it is about. -/
def printed : Failure → List Value
  | .unknownKind tag => [tag]
  | .refusedTransition refusal => [refusal.current, refusal.wanted, refusal.kind]
  | _ => []

/-- What a failure becomes where it is told: a breakdown, when one of its values cannot be
printed. -/
def told (limits : Limits) (failure : Failure) : Failure :=
  match failure.printed.findSome? limits.printFault? with
  | some breakdown => ofBreakdown limits breakdown
  | none => failure

end Failure

end WorkItems
