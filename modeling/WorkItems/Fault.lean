namespace WorkItems

/-! Reasons why an operation cannot be carried out at all.

A fault is not a finding about the data that is checked: it says that a schema, an argument or a
stored thing does not have the shape that the operation needs.
-/

inductive Fault where
  /-- Two things of unlike kinds are put in order. -/
  | incomparable
  /-- Something is gone through item by item that has no items. -/
  | notIterable
  /-- Something is looked for among keys that cannot be a key. -/
  | notKeyable
  /-- Something other than a text is used as one. -/
  | notText
  /-- Something is asked for a member that has no members. -/
  | notMapping
  /-- A pattern text is not well formed. -/
  | malformedPattern
  /-- An argument that an operation needs is not given. -/
  | missingArgument
  /-- An operation does not know an argument that is given. -/
  | unknownArgument
  /-- Something that should be pairs of keys and values has an item of another length. -/
  | notPairs
  /-- No schema is registered under a name. -/
  | unknownSchema (message : String)
  /-- A number is outside of the range that an operation promises. -/
  | outOfRange (message : String)
deriving DecidableEq

end WorkItems
