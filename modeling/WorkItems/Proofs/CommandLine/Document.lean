import WorkItems.Proofs.CommandLine.Arguments
import WorkItems.Proofs.CommandLine.Report
import WorkItems.Proofs.Json.Reader
import WorkItems.Proofs.Verdict

namespace WorkItems.CommandLine

/-! What the command says about a document, beside what the library says.

The command tells by itself what a document is about and asks the schema engine directly.  It comes
to the same errors as a check by the library, except where an item of any kind is asked for and the
document is no object: it goes by the tag then, as if the document had none.  Where the library
breaks down on a machine, so does the command.
-/

/-- Whether a report lists just these errors, in this order: it ends well when there are none, and
otherwise gives their number first and ends with the exit code two. -/
structure Report.Lists (report : Report) (errors : List String) : Prop where
  fine : report.ending = .ok 0 ↔ errors = []
  counted : errors ≠ [] → report =
    ⟨lines (("INVALID: " ++ toString errors.length ++ " error(s)") :: errors.map ("- " ++ ·)),
      .ok 2⟩

namespace DocumentCheck

variable {limits : Limits} {options : Options} {content : Content} {document : Value}
  {subject : Subject} {strict crossChecked : Bool} {errors : List String} {report : Report}
  {found : Except Failure (List String)}

/-- What the library checks a document as. -/
def Content.target : Content → Contract.Target
  | .project => .one .project
  | .taggedItem => .anyItem
  | .item kind => .one (.item kind)

/-- What a document is about, which an item of any kind has to say by its tag. -/
def Content.subject? : Content → Value → Option Subject
  | .project, _ => some .project
  | .item kind, _ => some (.item kind)
  | .taggedItem, .object members =>
    ((Members.valueAt members "type").asText?.bind ItemType.ofText?).map .item
  | .taggedItem, _ => none

/-- The errors that a check lists in its finding, unless it breaks down. -/
def errorsOfCheck : Except Failure Unit → Except Failure (List String)
  | .ok () => .ok []
  | .error failure => failure.finding?.elim (.error failure) fun finding => .ok finding.errors

/-- What the cross-check finds, if it is asked for and the document says what it is about, as far
as there is room. -/
def crossErrors (limits : Limits) (options : Options) (document : Value) :
    Except Failure (List String) :=
  match options.crossChecked, options.content.subject? document with
  | true, some subject =>
    if limits.crossChecks document then .ok (Draft7.validate (Contract.schemaOf subject) document)
    else .error (.ofBreakdown limits .noRoom)
  | _, _ => .ok []

/-- What the library finds in a document on a machine: the errors of a check and those of the
cross-check. -/
def libraryErrors (limits : Limits) (options : Options) (document : Value) :
    Except Failure (List String) := do
  let errors ← errorsOfCheck (options.content.target.checkWithin limits options.strict document)
  let others ← crossErrors limits options document
  pure (errors.map ("Contract: " ++ ·) ++ others.map ("Schema: " ++ ·))

/-- Whether the library admits a document, and the cross-check too if that is asked for. -/
def Admitted (limits : Limits) (options : Options) (document : Value) : Prop :=
  options.content.target.checkWithin limits options.strict document = .ok () ∧
    crossErrors limits options document = .ok []

/-- Whether an item of any kind is asked for and the document is no object. -/
def Tagless (content : Content) (document : Value) : Prop :=
  content = .taggedItem ∧ ∀ members, document ≠ .object members

theorem check_of_subject (about : content.subject? document = some subject)
    (engine : Contract.Engine) :
    content.target.check engine document = Contract.check engine subject document := by
  cases content with
  | project | item =>
      cases about
      rfl
  | taggedItem =>
      cases document with
      | object members =>
          obtain ⟨kind, known, rfl⟩ := Option.map_eq_some_iff.mp about
          exact Contract.checkItem_of_tagged (ItemType.ofTag_eq_some_iff.mp known)
      | null | bool | number | text | term | array | tuple | foreign => cases about

theorem schemaName?_of_subject (about : content.subject? document = some subject) :
    ∃ name, schemaName? content document = some name ∧
      name.schema = Contract.schemaOf subject := by
  cases content with
  | project | item =>
      cases about
      exact ⟨_, rfl, rfl⟩
  | taggedItem =>
      cases document with
      | object members =>
          obtain ⟨kind, known, rfl⟩ := Option.map_eq_some_iff.mp about
          refine ⟨.ofItemType kind, ?_, rfl⟩
          rw [schemaName?, tagOf, known]
          rfl
      | null | bool | number | text | term | array | tuple | foreign => cases about

/-- On a machine the engine gives the errors of a subject, or there is no room for that. -/
theorem engineWithin_schemaOf (limits : Limits) (strict : Bool) (subject : Subject) (document : Value) :
    Contract.engineWithin limits strict (Contract.schemaOf subject) document =
      if limits.comparing < Schema.reach (Contract.schemaOf subject) document then
        .error (.ofBreakdown limits .noRoom)
      else .ok (Contract.errors strict subject document) := by
  rw [Contract.engineWithin, Contract.engine, Contract.validate_eq_ok]

/-- The errors of a check are what the engine gives. -/
theorem errorsOfCheck_of_subject (about : content.subject? document = some subject) :
    errorsOfCheck (content.target.checkWithin limits strict document) =
      Contract.engineWithin limits strict (Contract.schemaOf subject) document := by
  rw [Contract.Target.checkWithin, check_of_subject about, Contract.check, engineWithin_schemaOf]
  split
  · rfl
  · cases Contract.errors strict subject document <;> rfl

/-- A document that says what it is about is reported by just what the library finds in it. -/
theorem libraryErrors_of_subject {name : Schema.SchemaName}
    (about : options.content.subject? document = some subject)
    (named : name.schema = Contract.schemaOf subject) : libraryErrors limits options document =
      findings limits options.strict options.crossChecked name document := by
  rw [libraryErrors, errorsOfCheck_of_subject about, crossErrors, about, findings, named]
  cases Contract.engineWithin limits options.strict (Contract.schemaOf subject) document with
  | error failure => rfl
  | ok errors => cases options.crossChecked <;> cases limits.crossChecks document <;> rfl

/-- Whether a report tells what has been found, or breaks down for the same reason. -/
structure Tells (report : Report) (found : Except Failure (List String)) : Prop where
  failed : ∀ failure, found = .error failure → report.ending = .error (.failure failure)
  fine : found = .ok [] → report.ending = .ok 0
  counted : ∀ errors, found = .ok errors → errors ≠ [] → report = invalid errors

theorem ending_invalid (errors : List String) : (invalid errors).ending ≠ .ok 0 := by
  intro ends
  exact absurd (Report.eq_of_ending_exit ends) (by decide)

theorem Tells.fine_iff (tells : Tells report found) : report.ending = .ok 0 ↔ found = .ok [] := by
  refine ⟨fun ends => ?_, tells.fine⟩
  cases given : found with
  | error failure => cases ends.symm.trans (tells.failed failure given)
  | ok errors =>
      by_cases none : errors = []
      · rw [none]
      · rw [tells.counted errors given none] at ends
        exact absurd ends (ending_invalid errors)

theorem invalid_eq (encodable : ∀ error ∈ errors, Text.isEncodable error = true) :
    invalid errors = ⟨Report.lines (heading errors.length :: errors.map ("- " ++ ·)), .ok 2⟩ := by
  refine Report.exit_eq (List.forall_mem_cons.mpr ⟨?_, fun line among => ?_⟩)
  · rw [heading, Text.isEncodable_append, Text.isEncodable_append, Text.isEncodable_toString]
    rfl
  · obtain ⟨error, listed, rfl⟩ := List.mem_map.mp among
    rw [Text.isEncodable_append, encodable error listed]
    rfl

theorem Tells.lists (tells : Tells report found) (given : found = .ok errors)
    (encodable : ∀ error ∈ errors, Text.isEncodable error = true) : report.Lists errors where
  fine := by rw [tells.fine_iff, given, Except.ok.injEq]
  counted some := (tells.counted errors given some).trans (invalid_eq encodable)

theorem SchemaName.text_encodable (name : Schema.SchemaName) :
    Text.isEncodable name.text = true := by
  cases name <;> decide

/-- A document without errors is told by its name. -/
theorem ending_fine {name : String} (encodable : Text.isEncodable name = true)
    (schema : Schema.SchemaName) :
    (Report.exit ["OK: " ++ name ++ " is a valid " ++ schema.text] 0).ending = .ok 0 := by
  rw [Report.exit_eq (List.forall_mem_singleton.mpr ?_)]
  rw [Text.isEncodable_append, Text.isEncodable_append, Text.isEncodable_append, encodable,
    SchemaName.text_encodable]
  rfl

theorem tells_of_subject (encodable : Text.isEncodable options.location.name = true)
    (about : options.content.subject? document = some subject) :
    Tells (reportDocument limits options document) (libraryErrors limits options document) := by
  obtain ⟨name, named, schema⟩ := schemaName?_of_subject about
  rw [reportDocument, named, libraryErrors_of_subject about schema]
  dsimp only
  cases findings limits options.strict options.crossChecked name document with
  | error failure => exact ⟨fun _ same => by cases same; rfl, nofun, nofun⟩
  | ok errors =>
      cases errors with
      | nil =>
          exact ⟨nofun, fun _ => ending_fine encodable name,
            fun errors same some => absurd (Except.ok.inj same).symm some⟩
      | cons error errors =>
          exact ⟨nofun, nofun, fun _ same _ => by cases same; rfl⟩

theorem schemaName?_of_no_subject (unknown : content.subject? document = none) :
    schemaName? content document = none := by
  cases content with
  | project | item => cases unknown
  | taggedItem =>
      cases document with
      | object members =>
          rw [schemaName?, tagOf, Option.map_eq_none_iff.mp unknown]
          rfl
      | null | bool | number | text | term | array | tuple | foreign => rfl

theorem reportDocument_of_no_subject (unknown : options.content.subject? document = none) :
    reportDocument limits options document = reportTag limits (tagOf document) := by
  rw [reportDocument, schemaName?_of_no_subject unknown]

theorem crossErrors_of_no_subject (unknown : options.content.subject? document = none) :
    crossErrors limits options document = .ok [] := by
  rw [crossErrors, unknown]
  cases options.crossChecked <;> rfl

theorem libraryErrors_of_no_subject (unknown : options.content.subject? document = none)
    (tagged : ¬ Tagless options.content document) : libraryErrors limits options document =
      match limits.printFault? (tagOf document) with
      | some breakdown => .error (.ofBreakdown limits breakdown)
      | none => .ok ["Contract: " ++ Failure.kindError (tagOf document)] := by
  obtain ⟨location, content, crossChecked, strict⟩ := options
  cases content with
  | project | item => cases unknown
  | taggedItem =>
      rcases document.object_or_other with ⟨members, rfl⟩ | other
      · have noKind := Option.map_eq_none_iff.mp unknown
        have refused : Contract.checkItem (Contract.engineWithin limits strict) (.object members) =
            .error (.unknownKind (Members.valueAt members "type")) := by
          rw [Contract.checkItem]
          simp only [noKind]
        have told : Content.taggedItem.target.checkWithin limits strict (.object members) =
            match limits.printFault? (Members.valueAt members "type") with
            | some breakdown => .error (.ofBreakdown limits breakdown)
            | none => .error (.unknownKind (Members.valueAt members "type")) := by
          rw [Contract.Target.checkWithin, Content.target, Contract.Target.check, refused,
            Contract.told, Except.mapError, Failure.told, Failure.printed, List.findSome?_singleton]
          cases limits.printFault? (Members.valueAt members "type") <;> rfl
        rw [libraryErrors, told, crossErrors_of_no_subject unknown, tagOf]
        cases limits.printFault? (Members.valueAt members "type") <;> rfl
      · exact absurd ⟨rfl, other⟩ tagged

theorem tells_of_no_subject (unknown : options.content.subject? document = none)
    (tagged : ¬ Tagless options.content document) :
    Tells (reportDocument limits options document) (libraryErrors limits options document) := by
  rw [reportDocument_of_no_subject unknown, libraryErrors_of_no_subject unknown tagged, reportTag]
  cases limits.printFault? (tagOf document) with
  | none => exact ⟨nofun, nofun, fun _ same _ => by cases same; rfl⟩
  | some breakdown =>
      have printed : ∀ line ∈ [heading 1], Text.isEncodable line = true := by decide
      dsimp only
      rw [Report.afterLines_eq printed]
      exact ⟨fun _ same => by cases same; rfl, nofun, nofun⟩

theorem reportDocument_tells (encodable : Text.isEncodable options.location.name = true)
    (tagged : ¬ Tagless options.content document) :
    Tells (reportDocument limits options document) (libraryErrors limits options document) := by
  cases about : options.content.subject? document with
  | some subject => exact tells_of_subject encodable about
  | none => exact tells_of_no_subject about tagged

theorem Tagless.tells_nothing (tagless : Tagless content document) :
    content.subject? document = none ∧ tagOf document = .null := by
  obtain ⟨rfl, other⟩ := tagless
  cases document with
  | object members => exact absurd rfl (other members)
  | null | bool | number | text | term | array | tuple | foreign => exact ⟨rfl, rfl⟩

theorem reportDocument_tagless (tagless : Tagless options.content document) :
    (reportDocument limits options document).Lists
      ["Contract: Expected 'feature', 'bug', or 'task', got 'None'"] := by
  obtain ⟨unknown, untagged⟩ := tagless.tells_nothing
  have told : reportDocument limits options document =
      invalid ["Contract: Expected 'feature', 'bug', or 'task', got 'None'"] := by
    rw [reportDocument_of_no_subject unknown, untagged]
    rfl
  rw [told, invalid_eq (by decide)]
  exact ⟨iff_of_false (fun impossible => absurd (Except.ok.inj impossible) (by decide))
    (List.cons_ne_nil _ _), fun _ => rfl⟩

theorem libraryErrors_tagless (tagless : Tagless options.content document) :
    libraryErrors limits options document = .ok ["Contract: Expected object"] := by
  obtain ⟨location, content, crossChecked, strict⟩ := options
  have unknown := tagless.tells_nothing.left
  obtain ⟨ofAnyKind, other⟩ := tagless
  cases ofAnyKind
  have refused : Content.taggedItem.target.checkWithin limits strict document =
      .error .notItem := by
    cases document with
    | object members => exact absurd rfl (other members)
    | null | bool | number | text | term | array | tuple | foreign => rfl
  rw [libraryErrors, refused, crossErrors_of_no_subject unknown]
  rfl

theorem errorsOfCheck_eq_nil_iff {target : Contract.Target} :
    errorsOfCheck (target.checkWithin limits strict document) = .ok [] ↔
      target.checkWithin limits strict document = .ok () := by
  cases checked : target.checkWithin limits strict document with
  | ok _ => exact iff_of_true rfl rfl
  | error failure =>
      refine iff_of_false (fun same => ?_) nofun
      rcases Contract.finds_of_checkWithin checked with ⟨errors, some, message, finding⟩ | broken
      · rw [errorsOfCheck, finding] at same
        exact some (Except.ok.inj same)
      · obtain ⟨breakdown, rfl⟩ := broken
        cases same

theorem libraryErrors_eq_nil_iff :
    libraryErrors limits options document = .ok [] ↔ Admitted limits options document := by
  rw [Admitted, ← errorsOfCheck_eq_nil_iff]
  constructor
  · intro nothing
    obtain ⟨errors, checked, nothing⟩ := bind_eq_ok_iff.mp nothing
    obtain ⟨others, crossed, nothing⟩ := bind_eq_ok_iff.mp nothing
    obtain ⟨noErrors, noOthers⟩ := List.append_eq_nil_iff.mp (Except.ok.inj nothing)
    rw [List.map_eq_nil_iff] at noErrors noOthers
    subst noErrors noOthers
    exact ⟨checked, crossed⟩
  · rintro ⟨checked, crossed⟩
    rw [libraryErrors, checked, ok_bind, crossed]
    rfl

theorem not_admitted_of_tagless (tagless : Tagless options.content document) :
    ¬ Admitted limits options document := by
  rw [← libraryErrors_eq_nil_iff, libraryErrors_tagless tagless]
  exact nofun

theorem reportDocument_fine_iff (encodable : Text.isEncodable options.location.name = true) :
    (reportDocument limits options document).ending = .ok 0 ↔
      Admitted limits options document := by
  -- Without a tag both refuse the document, whatever they list.
  by_cases tagless : Tagless options.content document
  · rw [(reportDocument_tagless tagless).fine]
    exact iff_of_false (List.cons_ne_nil _ _) (not_admitted_of_tagless tagless)
  · rw [(reportDocument_tells encodable tagless).fine_iff, libraryErrors_eq_nil_iff]

theorem errorsOfCheck_of_room {target : Contract.Target}
    (shallow : document.depth ≤ limits.comparing) (short : document.Short limits.digits) :
    ∃ errors, errorsOfCheck (target.checkWithin limits strict document) = .ok errors := by
  rw [Contract.checkWithin_eq shallow short]
  cases checked : target.check (Contract.engine strict) document with
  | ok _ => exact ⟨[], rfl⟩
  | error failure =>
      obtain ⟨errors, -, message, finding⟩ := Contract.finds_of_target checked
      refine ⟨errors, ?_⟩
      rw [errorsOfCheck, finding]
      rfl

theorem crossErrors_of_room
    (room : options.crossChecked = true → limits.crossChecks document = true) :
    ∃ errors, crossErrors limits options document = .ok errors := by
  rw [crossErrors]
  split
  · rename_i asked _
    exact ⟨_, if_pos (room asked)⟩
  · exact ⟨_, rfl⟩

/-- The numbers in a document that has been read are not too long to be printed. -/
theorem short_of_document {contents : Contents} (read : contents.document limits = .ok document) :
    document.Short limits.digits := by
  obtain ⟨bytes, -, read⟩ := bind_eq_ok_iff.mp read
  split at read
  · cases read
  · rename_i text _
    cases accepted : Json.read limits text with
    | error fault =>
        rw [accepted] at read
        cases read
    | ok found =>
        rw [accepted] at read
        cases read
        exact (Json.read_fits accepted).short

/-- Where there is room for a document that has been read, nothing breaks down. -/
theorem libraryErrors_of_room {contents : Contents}
    (read : contents.document limits = .ok document) (shallow : document.depth ≤ limits.comparing)
    (room : options.crossChecked = true → limits.crossChecks document = true) :
    ∃ errors, libraryErrors limits options document = .ok errors := by
  obtain ⟨errors, checked⟩ := errorsOfCheck_of_room shallow (short_of_document read)
  obtain ⟨others, crossed⟩ := crossErrors_of_room room
  exact ⟨_, bind_eq_ok_iff.mpr ⟨errors, checked, bind_eq_ok_iff.mpr ⟨others, crossed, rfl⟩⟩⟩

end DocumentCheck

end WorkItems.CommandLine
