import WorkItems.Lifecycle
import WorkItems.Settings

namespace WorkItems

/-! The log lines that operations leave behind, as functions of what came out of them. -/

inductive LogLevel where
  | debug
  | warning

structure LogLine where
  level : LogLevel
  source : String
  message : String

def LogLevel.name : LogLevel → String
  | .debug => "DEBUG"
  | .warning => "WARNING"

def LogLevel.severity : LogLevel → Nat
  | .debug => 10
  | .warning => 30

def LogLine.text (line : LogLine) : String :=
  line.level.name ++ " " ++ line.source ++ ": " ++ line.message

namespace Journal

/-- The lines at or above a severity. -/
def atLeast (severity : Nat) (lines : List LogLine) : List LogLine :=
  lines.filter fun line => decide (severity ≤ line.level.severity)

def validationSource : String := "pmcontract.validation"

def lifecycleSource : String := "pmcontract.items"

/-- A schema check that finds something counts what it finds. -/
def ofFailure : Failure → List LogLine
  | .invalid subject errors =>
    [⟨.debug, validationSource,
      subject.title ++ " validation failed with " ++ toString errors.length ++ " error(s)"⟩]
  | _ => []

def ofOutcome {α : Type} : Except Failure α → List LogLine
  | .ok _ => []
  | .error failure => ofFailure failure

def targetName : Contract.Target → String
  | .one (.item kind) => "validate_" ++ kind.text
  | .one .project => "validate_project_data"
  | .anyItem => "validate_project_item"

def breakdownMessage : Failure → String
  | .broken _ message => message
  | failure => Contract.breakdownText failure

/-- A breakdown during an attempt is worth a warning. -/
def ofAttempt (target : Contract.Target) : Except Failure Unit → List LogLine
  | .ok _ => []
  | .error failure =>
    ofFailure failure ++
      match failure.finding? with
      | some _ => []
      | none =>
        [⟨.warning, validationSource,
          "Unexpected error during " ++ targetName target ++ ": " ++ breakdownMessage failure⟩]

def ofCreation : Except Failure Item → List LogLine
  | .ok item =>
    [⟨.debug, lifecycleSource, "Created " ++ item.kind.text ++ " " ++ item.id⟩]
  | .error failure => ofFailure failure

def ofUpdate (item : Item) (changes : Value) : Except Failure Item → List LogLine
  | .ok _ =>
    let names := ((Lifecycle.changedNames changes).toOption).getD []
    [⟨.debug, lifecycleSource,
      "Updated " ++ item.kind.text ++ " " ++ item.id ++ ": " ++ String.intercalate ", " names⟩]
  | .error failure => ofFailure failure

end Journal

end WorkItems
