import WorkItems.Estimate
import WorkItems.Item.Lenient
import WorkItems.Pattern.EndAnchor

namespace WorkItems

/-! Forms: which fields a record has, and how each is read.

A field goes by its name in documents, or, where that is absent, by a second name.  Every field
is read even when another one fails, and a member that no field claims is at fault too.
-/

/-- The limits on a text. -/
structure TextRule where
  least : Nat := 0
  most : Option Nat := none
  pattern : Option String := none

/-- What a field of a record holds. -/
inductive FieldValue where
  | text (value : String)
  | texts (values : List String)
  | flag (value : Bool)
  | count (value : Int)
  | measure (value : Double)
  | moment (value : Moment)
deriving DecidableEq

inductive FieldType where
  | text (rule : TextRule)
  | choice (options : List String)
  | texts (rule : TextRule) (least : Nat) (distinct : Bool)
  | flag
  | points
  | hours
  | moment

inductive Presence where
  | required
  /-- May be null or absent, and is then not set. -/
  | optional
  /-- May be absent, and then has a value of its own. -/
  | withDefault (value : FieldValue)

structure Field where
  name : String
  secondName : String
  type : FieldType
  presence : Presence

abbrev Form := List Field

/-- The fields that are set, in the order of their form. -/
abbrev Record := List (String × FieldValue)

/-- The document form of what a field holds. -/
def FieldValue.toValue : FieldValue → Value
  | .text value => .text value
  | .texts values => .array (values.map .text)
  | .flag value => .bool value
  | .count value => .int value
  | .measure value => .double value
  | .moment value => .text value.text

/-- The pattern that a pattern text of a form writes.  Forms are read with an engine of their own: a
dollar sign means the very end to it, and its digits are those of Unicode 16. -/
def formPattern? (written : String) : Option Pattern :=
  (Pattern.ofTextClosed? written.toList).map Pattern.withRecentDigits

namespace TextRule

/-- Whether there is any limit at all. -/
def isLimited (rule : TextRule) : Bool :=
  rule.least != 0 || rule.most.isSome || rule.pattern.isSome

/-- A text is gone through only where it has to keep a limit. -/
def check (rule : TextRule) (text : String) : Except FieldFault String :=
  if rule.isLimited && !Text.isEncodable text then .error .notUnicode
  else if text.length < rule.least then .error (.textTooShort rule.least)
  else
    match rule.most with
    | some most => if most < text.length then .error (.textTooLong most) else pattern
    | none => pattern
where
  pattern : Except FieldFault String :=
    match rule.pattern with
    | none => .ok text
    | some written =>
      if (formPattern? written).any fun pattern => pattern.foundIn text then .ok text
      else .error (.unmatched written)

def read (rule : TextRule) (value : Value) : Except FieldFault String := do
  rule.check (← Lenient.readText value)

end TextRule

/-- The outcomes of reading each item of a list, apart: what was read, and the issues. -/
def readEach (rule : TextRule) : Nat → List Value → List String × List FieldIssue
  | _, [] => ([], [])
  | position, item :: items =>
    let (texts, issues) := readEach rule (position + 1) items
    match rule.read item with
    | .ok text => (text :: texts, issues)
    | .error fault => (texts, ⟨[.index position], fault⟩ :: issues)

def distinctTexts : List String → Bool
  | [] => true
  | text :: rest => !rest.contains text && distinctTexts rest

/-- The items of an array, a tuple or a set. -/
def listOf? : Value → Option (List Value)
  | .foreign .set _ => some []
  | value => value.asItems?

def readTexts (rule : TextRule) (least : Nat) (distinct : Bool) (value : Value) :
    Except (List FieldIssue) (List String) :=
  match listOf? value with
  | none => .error [.here .notList]
  | some items =>
    let (texts, issues) := readEach rule 0 items
    let few := if texts.length < least then [FieldIssue.here (.tooFew least texts.length)] else []
    if !(issues ++ few).isEmpty then .error (issues ++ few)
    else if distinct && !distinctTexts texts then
      .error [.here (.rejected "subtasks must be unique")]
    else .ok texts

def readChoice (options : List String) (value : Value) : Except FieldFault String :=
  match Lenient.textOf? value with
  | some text => if options.contains text then .ok text else .error (.notAmong options)
  | none => .error (.notAmong options)

def readPoints (value : Value) : Except FieldFault Int := do
  let points ← Lenient.readWhole value
  if Estimate.pointsOutOfRange (.int points) then .error (.rejected Estimate.pointsMessage)
  else .ok points

def readHours (value : Value) : Except FieldFault Double := do
  let hours ← Lenient.readDouble value
  if Estimate.hoursOutOfRange (.double hours) then .error (.rejected Estimate.hoursMessage)
  else .ok hours

/-- A fault of a whole field is an issue right there. -/
def atField {α : Type} (outcome : Except FieldFault α) (wrap : α → FieldValue) :
    Except (List FieldIssue) FieldValue :=
  match outcome with
  | .ok value => .ok (wrap value)
  | .error fault => .error [.here fault]

def FieldType.read (type : FieldType) (value : Value) : Except (List FieldIssue) FieldValue :=
  match type with
  | .text rule => atField (rule.read value) .text
  | .choice options => atField (readChoice options value) .text
  | .texts rule least distinct =>
    match readTexts rule least distinct value with
    | .ok found => .ok (.texts found)
    | .error issues => .error issues
  | .flag => atField (Lenient.readFlag value) .flag
  | .points => atField (readPoints value) .count
  | .hours => atField (readHours value) .measure
  | .moment => atField (Lenient.readMoment value) .moment

namespace Field

/-- The member that a field is read from, and the name it is found under. -/
def find? (field : Field) (members : Members) : Option (String × Value) :=
  match members.lookup field.name with
  | some value => some (field.name, value)
  | none => (members.lookup field.secondName).map fun value => (field.secondName, value)

/-- What a field holds after reading, if it is set at all. -/
def read (field : Field) (members : Members) :
    Except (List FieldIssue) (Option FieldValue) :=
  match field.find? members, field.presence with
  | none, .required => .error [⟨[.key field.name], .missing⟩]
  | none, .optional => .ok none
  | none, .withDefault value => .ok (some value)
  | some (_, .null), .optional => .ok none
  | some (name, value), _ =>
    match field.type.read value with
    | .ok value => .ok (some value)
    | .error issues => .error (issues.map (.under (.key name)))

/-- Whether a field is read from the member with a key. -/
def claims (field : Field) (members : Members) (key : String) : Bool :=
  match field.find? members with
  | some (name, _) => name == key
  | none => false

end Field

namespace Form

/-- The fields that are set and the issues of the others. -/
def readFields (members : Members) : Form → Record × List FieldIssue
  | [] => ([], [])
  | field :: fields =>
    let (entries, issues) := readFields members fields
    match field.read members with
    | .ok (some value) => ((field.name, value) :: entries, issues)
    | .ok none => (entries, issues)
    | .error found => (entries, found ++ issues)

def undeclared (form : Form) (members : Members) : List FieldIssue :=
  (members.filter fun member => !form.any fun field => field.claims members member.1).map
    fun member => ⟨[.key member.1], .undeclared⟩

/-- The record of an object, or everything that is wrong with it. -/
def readMembers (form : Form) (members : Members) : Except (List FieldIssue) Record :=
  let (entries, issues) := readFields members form
  let issues := issues ++ form.undeclared members
  if issues.isEmpty then .ok entries else .error issues

/-- The record of a value that has to be an object; `name` is what such records are called. -/
def read (form : Form) (name : String) (value : Value) : Except (List FieldIssue) Record :=
  match value with
  | .object members => form.readMembers members
  | _ => .error [.here (.notRecord name)]

end Form

namespace Record

/-- A record as the members of a document. -/
def toMembers (record : Record) : Members :=
  record.map fun (name, value) => (name, value.toValue)

def toValue (record : Record) : Value :=
  .object record.toMembers

end Record

end WorkItems
