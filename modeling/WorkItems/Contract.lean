import WorkItems.Failure
import WorkItems.Item.Basic
import WorkItems.Schema.Reach
import WorkItems.Schema.Registry

namespace WorkItems.Contract

/-! Checking and reading data against the contract. -/

/-- What the contract is called, and for whom it is. -/
structure Release where
  name : String
  version : String
  description : String

def release : Release :=
  ⟨"pmcontract", "1.0.0", "Shared data contract for features, bugs and tasks"⟩

/-- A schema engine: the errors of a value under a schema. -/
abbrev Engine := Value → Value → Except Failure (List String)

def engine (strict : Bool) : Engine := fun schema value =>
  match Schema.validate strict schema value with
  | .ok errors => .ok errors
  | .error fault => .error (.fault fault)

/-- The same engine on a machine, where it breaks down when it goes too deep. -/
def engineWithin (limits : Limits) (strict : Bool) : Engine := fun schema value =>
  if limits.comparing < Schema.reach schema value then .error (.ofBreakdown limits .noRoom)
  else engine strict schema value

/-- What comes of an operation on a machine, where failures have to be told. -/
def told {α : Type} (limits : Limits) (outcome : Except Failure α) : Except Failure α :=
  outcome.mapError (Failure.told limits)

def schemaOf : Subject → Value
  | .item kind => (Schema.SchemaName.ofItemType kind).schema
  | .project => Schema.projectData

/-- Succeeds when the schema of the subject admits the data. -/
def check (engine : Engine) (subject : Subject) (data : Value) : Except Failure Unit := do
  let errors ← engine (schemaOf subject) data
  if errors.isEmpty then pure () else throw (.invalid subject errors)

/-- Checks an item by the kind that its tag says. -/
def checkItem (engine : Engine) (data : Value) : Except Failure Unit :=
  match data with
  | .object members =>
    let tag := Members.valueAt members "type"
    match tag.asText?.bind ItemType.ofText? with
    | some kind => check engine (.item kind) data
    | none => .error (.unknownKind tag)
  | _ => .error .notItem

/-- Everything that data may be checked as. -/
inductive Target where
  | one (subject : Subject)
  | anyItem

def Target.check (engine : Engine) (target : Target) (data : Value) : Except Failure Unit :=
  match target with
  | .one subject => Contract.check engine subject data
  | .anyItem => checkItem engine data

/-- A check on a machine. -/
def Target.checkWithin (limits : Limits) (strict : Bool) (target : Target) (data : Value) :
    Except Failure Unit :=
  told limits (target.check (engineWithin limits strict) data)

/-- The outcome of a check that never fails itself. -/
structure Verdict where
  errors : List String
  data : Option Value

/-- How a failure that is not about the data is told: in its own words, or else by its name. -/
def breakdownText : Failure → String
  | .broken name message => if message.isEmpty then name else message
  | _ => "fault"

def Verdict.ofOutcome (data : Value) (outcome : Except Failure Unit) : Verdict :=
  match outcome with
  | .ok () => ⟨[], some data⟩
  | .error failure =>
    match failure.finding? with
    | some finding => ⟨finding.errors, none⟩
    | none => ⟨[breakdownText failure], none⟩

/-- What a check on a machine comes to. -/
def attemptWithin (limits : Limits) (strict : Bool) (target : Target) (data : Value) : Verdict :=
  .ofOutcome data (target.checkWithin limits strict data)

/-- The item in data that the contract admits. -/
def readItem (engine : Engine) (data : Value) : Except Failure Item := do
  checkItem engine data
  match Item.read data with
  | .ok item => pure item
  | .error issues => throw (.unreadableItem (issues.map FieldIssue.text))

def readProject (engine : Engine) (data : Value) : Except Failure Project := do
  check engine .project data
  match Project.read data with
  | .ok project => pure project
  | .error issues => throw (.unreadableProject (issues.map FieldIssue.text))

end WorkItems.Contract
