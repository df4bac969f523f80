import WorkItems.Contract
import WorkItems.Schema.Draft7

namespace WorkItems.CommandLine

/-! What the commands find in a document: the errors of the contract's own engine, and, on demand,
those of the cross-check by draft 7. -/

def findings (limits : Limits) (strict crossChecked : Bool) (name : Schema.SchemaName)
    (document : Value) : Except Failure (List String) := do
  let errors ← Contract.engineWithin limits strict name.schema document
  if crossChecked && !limits.crossChecks document then throw (.ofBreakdown limits .noRoom)
  let others := if crossChecked then Draft7.validate name.schema document else []
  pure (errors.map ("Contract: " ++ ·) ++ others.map ("Schema: " ++ ·))

end WorkItems.CommandLine
