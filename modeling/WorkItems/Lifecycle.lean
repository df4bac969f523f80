import WorkItems.Contract
import WorkItems.Schema.Builder

namespace WorkItems.Lifecycle

/-! Making new items and new versions of items.

Items are values: an update gives a new item and leaves the old one as it is.  The clock and the
identifier to use are given by the caller.
-/

/-- Fields that no update may name. -/
def immutableFields : List String := ["id", "type", "createdAt"]

/-- Fields that are set on creation and may not be given. -/
def stampedFields : List String := ["createdAt", "updatedAt"]

/-- Whether something given by a caller has a member, an item or a part of this name. -/
def mentions (given : Value) (name : String) : Except Failure Bool :=
  match given with
  | .object members => .ok (members.any fun member => member.1 == name)
  | .array items | .tuple items => .ok (items.any fun item => item.isText name)
  | .foreign .set _ => .ok false
  | given =>
    match given.asText? with
    | some text => .ok ((text.splitOn name).length != 1)
    | none => .error (.fault .notIterable)

def refuseAny (given : Value) (names : List String) (reason : String → String) :
    Except Failure Unit :=
  names.forM fun name => do
    if ← mentions given name then throw (.refusedRequest (reason name))

def knownKind (kind : Value) : Except Failure ItemType :=
  match kind.asText?.bind ItemType.ofText? with
  | some kind => .ok kind
  | none => .error (if kind.isKeyable then .unknownKind kind else .fault .notKeyable)

def refuseOtherKind (data : Value) (kind : ItemType) : Except Failure Unit := do
  if ← mentions data "type" then
    match data with
    | .object members =>
      let given := Members.valueAt members "type"
      if given.isText kind.text then pure ()
      else throw (.refusedRequest ("type '" ++ given.plain ++
        "' does not match requested item type '" ++ kind.text ++ "'"))
    | _ => throw (.fault .notText)

def membersOf (data : Value) : Except Failure Members :=
  match data with
  | .object members => .ok members
  | _ => .error (.fault .notMapping)

/-- The document of a new item: what is given, less its nulls, with an identifier unless one is
given that counts as something, and with the stamps of its kind and of the clock. -/
def creation (kind : ItemType) (given : Members) (now identifier : String) : Members :=
  let document := Members.dropNulls given
  let document :=
    if (document.valueAt "id").isTruthy then document
    else Members.put document "id" (.text identifier)
  let document := Members.put document "type" (.text kind.text)
  let document := Members.put document "createdAt" (.text now)
  Members.put document "updatedAt" (.text now)

def create (engine : Contract.Engine) (now : Moment) (identifier : String) (kind data : Value) :
    Except Failure Item := do
  let kind ← knownKind kind.plainTerm
  refuseAny data stampedFields fun name =>
    name ++ " is assigned on creation and cannot be supplied"
  refuseOtherKind data kind
  let given ← membersOf data
  Contract.readItem engine (.object (creation kind given now.text identifier))

/-- The changes that a caller gives, as members. -/
def changesOf (changes : Value) : Except Failure Members :=
  match Schema.mappingOf changes with
  | .ok members => .ok members
  | .error fault => .error (.fault fault)

def statusChange (changes : Value) : Except Failure (Option Value) := do
  if ← mentions changes "status" then
    match changes with
    | .object members => pure (some (Members.valueAt members "status").plainTerm)
    | _ => throw (.fault .notText)
  else pure none

/-- A change of status has to keep the status or follow the workflow. -/
def refuseTransition (item : Item) (wanted : Value) : Except Failure Unit :=
  if wanted.isText item.status || item.mayBecome wanted then .ok ()
  else
    match Workflow.refusal (.text item.status) wanted (.text item.kind.text) with
    | .ok refusal => .error (.refusedTransition refusal)
    | .error fault => .error (.fault fault)

/-- The document of a new version: nulls clear fields, and the clock is stamped last. -/
def revision (item : Item) (changes : Members) (now : String) : Members :=
  Members.put (Members.dropNulls (Members.merge item.toMembers changes)) "updatedAt" (.text now)

/-- The names that a successful update is logged with; only texts can be told. -/
def changedNames (changes : Value) : Except Failure (List String) := do
  match Schema.elements changes with
  | .error fault => throw (.fault fault)
  | .ok names =>
    names.mapM fun name =>
      match name.asText? with
      | some text => pure text
      | none => throw (.fault .notText)

def update (engine : Contract.Engine) (now : Moment) (item : Item) (changes : Value) :
    Except Failure Item := do
  refuseAny changes immutableFields fun name => "Field '" ++ name ++ "' cannot be updated"
  if let some wanted ← statusChange changes then refuseTransition item wanted
  let given ← changesOf changes
  let updated ← Contract.readItem engine (.object (revision item given now.text))
  let _ ← changedNames changes
  pure updated

/-- An update on a machine. -/
def updateWithin (limits : Limits) (strict : Bool) (now : Moment) (item : Item) (changes : Value) :
    Except Failure Item :=
  Contract.told limits (update (Contract.engineWithin limits strict) now item changes)

end WorkItems.Lifecycle
