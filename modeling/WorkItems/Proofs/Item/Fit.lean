import WorkItems.Item.Forms
import WorkItems.Proofs.Item.Form
import WorkItems.Proofs.Pattern.Version
import WorkItems.Proofs.Schema.Closed
import WorkItems.Proofs.Value.Same

namespace WorkItems

/-! Forms beside schemas.

The contract is written twice, as forms and as schemas.  `Form.Fits` says that the two declare the
same fields, that the schema of a field is the one of its type, and that they agree on what has to
be there.

Each has an engine of its own for patterns.  `TextRule.Accepts` is what a form makes of the limits
on a text, and `TextRule.Admits` is what the schema engine makes of them.
-/

open Schema

/-- A limit from below, where zero is none. -/
def leastLimit : Nat → Option Number
  | 0 => none
  | least => some (.int least)

def TextRule.blueprint (rule : TextRule) : Blueprint :=
  .text (leastLimit rule.least) (rule.most.map fun most => .int most) rule.pattern none

def FieldType.blueprint : FieldType → Blueprint
  | .text rule => rule.blueprint
  | .choice options => .choice options
  | .texts rule least distinct => .array rule.blueprint (leastLimit least) none distinct
  | .flag => .flag
  | .points => .number (some (.int 1)) (some (.int 21)) true
  | .hours => .number (some (.int 0)) none false
  | .moment => .momentText

variable {strict : Bool} {value : Value} {type : FieldType} {held : FieldValue}

theorem leastLimit_iff {least count : Nat} :
    (∀ limit ∈ leastLimit least, (Number.int count).less limit = false) ↔ least ≤ count := by
  cases least with
  | zero => simp [leastLimit]
  | succ least =>
      simp only [leastLimit, Option.mem_some, forall_eq', Number.less_int, decide_eq_false_iff_not]
      omega

theorem within_leastLimit {least count : Nat} {most : Option Nat} :
    Within (leastLimit least) (most.map fun most => .int most) (.int count) ↔
      least ≤ count ∧ ∀ limit ∈ most, count ≤ limit := by
  have upper : (∀ limit ∈ most.map fun most => Number.int most,
      limit.less (.int count) = false) ↔ ∀ limit ∈ most, count ≤ limit := by
    cases most with
    | none => simp
    | some most => simp [Number.less_int]
  exact and_congr leastLimit_iff upper

namespace TextRule

variable {rule : TextRule} {text : String}

/-- Whether a text keeps all limits as the schema engine takes them. -/
structure Admits (rule : TextRule) (text : String) : Prop where
  atLeast : rule.least ≤ text.length
  atMost : ∀ most ∈ rule.most, text.length ≤ most
  matched : ∀ written ∈ rule.pattern,
    ((Pattern.ofTextClosed? written.toList).any fun pattern => pattern.foundIn text) = true

theorem admits_iff : rule.blueprint.Admits (.engine strict) value ↔
    ∃ text, value.asText? = some text ∧ rule.Admits text := by
  constructor
  · intro admitted
    rcases admitted with ⟨text, isText, within, matched⟩
    obtain ⟨atLeast, atMost⟩ := within_leastLimit.mp within
    exact ⟨text, isText, atLeast, atMost, matched⟩
  · intro admitted
    rcases admitted with ⟨text, isText, admits⟩
    exact ⟨text, isText, within_leastLimit.mpr ⟨admits.atLeast, admits.atMost⟩, admits.matched⟩

theorem admits_text_iff :
    rule.blueprint.Admits (.engine strict) (.text text) ↔ rule.Admits text := by
  rw [admits_iff]
  exact ⟨fun ⟨_, same, admits⟩ => Option.some.inj same ▸ admits, fun admits => ⟨text, rfl, admits⟩⟩

/-- Whether forms and the schema engine read the pattern of a rule alike. -/
def ReadAlike (rule : TextRule) : Prop :=
  ∀ written ∈ rule.pattern, formPattern? written = Pattern.ofTextClosed? written.toList

/-- Whether forms take whatever the schema engine takes, if only it has a form in bytes. -/
def Yields (rule : TextRule) : Prop :=
  ∀ text, rule.Admits text → (rule.isLimited = true → Text.isEncodable text = true) →
    rule.Accepts text

theorem ReadAlike.admits (alike : rule.ReadAlike) (accepts : rule.Accepts text) :
    rule.Admits text where
  atLeast := accepts.atLeast
  atMost := accepts.atMost
  matched written given := alike written given ▸ accepts.matched written given

theorem ReadAlike.yields (alike : rule.ReadAlike) : rule.Yields := fun _ admits encodable =>
  ⟨encodable, admits.atLeast, admits.atMost, fun written given =>
    (alike written given).symm ▸ admits.matched written given⟩

end TextRule

/-- What the schema and the form of the metadata say of a version. -/
def versionRule : TextRule := { pattern := some versionPattern }

theorem versionRule_admits {text : String} :
    versionRule.Admits text ↔ IsVersion Text.isDigit text := by
  rw [← versionPattern_matches]
  constructor
  · intro admits
    exact admits.matched versionPattern rfl
  · intro found
    refine ⟨Nat.zero_le _, nofun, fun written given => ?_⟩
    obtain rfl : versionPattern = written := Option.some.inj given
    exact found

theorem versionRule_accepts {text : String} :
    versionRule.Accepts text ↔ IsVersion Text.isRecentDigit text := by
  constructor
  · intro accepts
    exact formVersion_matches.mp (accepts.matched versionPattern rfl)
  · intro version
    refine ⟨fun _ => version.encodable, Nat.zero_le _, nofun, fun written given => ?_⟩
    obtain rfl : versionPattern = written := Option.some.inj given
    exact formVersion_matches.mpr version

theorem versionRule_yields : versionRule.Yields := fun _ admits _ =>
  versionRule_accepts.mpr (isVersion_iff_settled.mp (versionRule_admits.mp admits)).left

/-- The limits on the texts that a field holds. -/
def FieldType.textRule? : FieldType → Option TextRule
  | .text rule | .texts rule _ _ => some rule
  | _ => none

/-- The texts that a field holds. -/
def FieldValue.heldTexts : FieldValue → List String
  | .text value => [value]
  | .texts values => values
  | _ => []

/-- Whether the schema engine takes the texts that a field holds. -/
def FieldType.AdmitsTexts (type : FieldType) (held : FieldValue) : Prop :=
  ∀ rule ∈ type.textRule?, ∀ text ∈ held.heldTexts, rule.Admits text

/-- What a field holds is admitted by the schema of its type if the engine takes its texts. -/
theorem FieldType.admits_toValue_iff (strict : Bool) (holds : type.Holds held) :
    type.blueprint.Admits (.engine strict) held.toValue ↔ type.AdmitsTexts held := by
  cases holds with
  | @text rule text accepts =>
      rw [AdmitsTexts, textRule?, FieldValue.heldTexts]
      simp only [Option.mem_some, forall_eq', List.forall_mem_singleton]
      exact TextRule.admits_text_iff
  | choice among => exact iff_of_true ⟨_, among, rfl⟩ nofun
  | @texts rule least distinct texts each enough nodup =>
      rw [AdmitsTexts, textRule?, FieldValue.heldTexts]
      simp only [Option.mem_some, forall_eq']
      constructor
      · rintro ⟨items, same, -, all, -⟩ text member
        obtain rfl : texts.map Value.text = items := Option.some.inj same
        exact TextRule.admits_text_iff.mp (all _ (List.mem_map_of_mem member))
      · intro all
        refine ⟨texts.map .text, rfl, ?_, fun item member => ?_, fun wanted => ?_⟩
        · rw [List.length_map]
          exact ⟨leastLimit_iff.mpr enough, nofun⟩
        · obtain ⟨text, among, rfl⟩ := List.mem_map.mp member
          exact TextRule.admits_text_iff.mpr (all text among)
        · rw [List.pairwise_map]
          refine (nodup wanted).imp fun different => ?_
          rw [← Bool.not_eq_true, Value.same_text]
          exact fun same => different (Option.some.inj same)
  | flag flag => exact iff_of_true ⟨flag, rfl⟩ nofun
  | @points points atLeast atMost =>
      refine iff_of_true ⟨.int points, rfl, ⟨?_, ?_⟩, fun _ => rfl⟩ nofun
      · simpa [Number.less_int] using atLeast
      · simpa [Number.less_int] using atMost
  | @hours hours notNegative =>
      refine iff_of_true ⟨.double hours, rfl, ⟨fun limit given => ?_, nofun⟩, nofun⟩ nofun
      obtain rfl := Option.some.inj given
      exact notNegative
  | moment moment => exact iff_of_true ⟨moment.text, rfl, ⟨nofun, nofun⟩, nofun⟩ nofun

/-- Texts that a form takes are taken by the engine too if it reads the pattern alike. -/
theorem FieldType.admitsTexts_of_alike (holds : type.Holds held)
    (alike : ∀ rule ∈ type.textRule?, rule.ReadAlike) : type.AdmitsTexts held := by
  intro rule given text among
  cases holds with
  | text accepts =>
      obtain rfl := Option.some.inj given
      obtain rfl := List.mem_singleton.mp among
      exact (alike _ rfl).admits accepts
  | texts each =>
      obtain rfl := Option.some.inj given
      exact (alike _ rfl).admits (each text among)
  | choice | flag | points | hours | moment => cases given

/-- What a field holds is admitted by the schema of its type if the engine reads patterns alike. -/
theorem FieldType.admits_toValue (alike : ∀ rule ∈ type.textRule?, rule.ReadAlike)
    (holds : type.Holds held) : type.blueprint.Admits (.engine strict) held.toValue :=
  (admits_toValue_iff strict holds).mpr (admitsTexts_of_alike holds alike)

namespace Presence

def isRequired : Presence → Bool
  | .required => true
  | _ => false

def isOptional : Presence → Bool
  | .optional => true
  | _ => false

end Presence

/-- Whether a property is what is right for a field: the schema of its type, perhaps with null
when the field is optional, or the constant that is the only choice. -/
inductive Field.Fits (field : Field) : Blueprint → Prop where
  | plain : Fits field field.type.blueprint
  | nullable (optional : field.presence = .optional) :
    Fits field (.nullable field.type.blueprint)
  | constant {tag : String} (only : field.type = .choice [tag]) : Fits field (.constant (.text tag))

/-- Whether a property of the name of a field fits the field. -/
def Field.FitsIn (field : Field) (blueprint : Blueprint) : Prop :=
  ∃ inner, blueprint.propertyAt field.name = some inner ∧ field.Fits inner

theorem Field.Fits.admits_toValue_iff {field : Field} {inner : Blueprint}
    (fits : field.Fits inner) (holds : field.type.Holds held) :
    inner.Admits (.engine strict) held.toValue ↔ field.type.AdmitsTexts held := by
  cases fits with
  | plain => exact FieldType.admits_toValue_iff strict holds
  | nullable optional =>
      rw [← FieldType.admits_toValue_iff strict holds]
      exact or_iff_left fun isNull => FieldValue.toValue_ne_null held isNull.left
  | constant only =>
      rw [only] at holds ⊢
      cases holds with
      | choice among =>
          obtain rfl := List.mem_singleton.mp among
          exact iff_of_true (Value.same_text.mpr rfl) nofun

namespace Form

/-- Whether a form and a closed object schema are written for the same documents. -/
structure Fits (form : Form) (blueprint : Blueprint) : Prop where
  isObject : blueprint.isObject = true
  isClosed : blueprint.isClosed = true
  refusesNull : blueprint.allowsNull = false
  property : ∀ field ∈ form, field.FitsIn blueprint
  declared : ∀ name ∈ blueprint.declaredNames, name ∈ form.map Field.name
  required : ∀ name ∈ blueprint.requiredNames, ∃ field ∈ form,
    field.name = name ∧ field.presence.isOptional = false
  present : ∀ field ∈ form, field.presence.isRequired = true →
    field.name ∈ blueprint.requiredNames
  yields : ∀ field ∈ form, ∀ rule ∈ field.type.textRule?, rule.Yields

/-- Whether a form and the schema engine read all its patterns alike. -/
def ReadAlike (form : Form) : Prop :=
  ∀ field ∈ form, ∀ rule ∈ field.type.textRule?, rule.ReadAlike

variable {form : Form} {blueprint : Blueprint} {found : Field → Option FieldValue}

/-- A record of a form is admitted by the schema that the form fits just if the engine takes its
texts. -/
theorem Fits.admits_recordOf_iff (fits : form.Fits blueprint) (proper : form.Proper)
    (filled : form.Filled found) :
    blueprint.Admits (.engine strict) (form.recordOf found).toValue ↔
      ∀ field ∈ form, ∀ held, found field = some held → field.type.AdmitsTexts held := by
  rw [Record.toValue, Blueprint.admits_members_iff fits.isObject]
  constructor
  · rintro ⟨-, each⟩ field declared held given
    obtain ⟨inner, property, fit⟩ := fits.property field declared
    have among : (field.name, held) ∈ form.recordOf found :=
      mem_recordOf.mpr ⟨field, declared, given, rfl⟩
    have admitted := each _ (List.mem_map_of_mem among)
    rw [Blueprint.admitsMember_iff fits.isObject, property] at admitted
    exact (fit.admits_toValue_iff ((filled field declared).left held given)).mp admitted
  · intro texts
    refine ⟨fun name required => ?_, fun member entry => ?_⟩
    · obtain ⟨field, declared, rfl, set⟩ := fits.required name required
      rw [Members.hasKey, lookup_toMembers, lookup_recordOf found proper.distinct declared]
      cases given : found field with
      | some held => rfl
      | none =>
          rw [(filled field declared).right given] at set
          cases set
    · obtain ⟨⟨name, held⟩, among, rfl⟩ := List.mem_map.mp entry
      obtain ⟨field, declared, given, rfl⟩ := mem_recordOf.mp among
      obtain ⟨inner, property, fit⟩ := fits.property field declared
      exact Blueprint.admitsMember_of_property fits.isObject property
        ((fit.admits_toValue_iff ((filled field declared).left held given)).mpr
          (texts field declared held given))

end Form

/-- The pattern of identifiers is the same to forms as to the schema engine. -/
theorem formPattern_identifier : formPattern? idPattern = some (Pattern.word identifierClass) := by
  rw [formPattern?, idPattern_word]
  rfl

namespace Forms

theorem shared_defaults (statuses : List String) (kind : ItemType) :
    ∀ field ∈ shared statuses kind, ∀ held,
      field.presence = .withDefault held → field.type.Holds held := by
  simp only [shared, plainField, List.forall_mem_cons, reduceCtorEq, false_implies,
    implies_true, true_and, Presence.withDefault.injEq, forall_eq']
  exact ⟨.texts (by simp) (Nat.zero_le _) (by simp), .choice List.mem_cons_self, by simp⟩

theorem ofItemType_proper (kind : ItemType) : (ofItemType kind).Proper where
  distinct := by cases kind <;> decide
  secondNames := by cases kind <;> decide
  defaults := by
    cases kind <;> exact List.forall_mem_append.mpr ⟨shared_defaults _ _, by simp [plainField]⟩

/-- The shared fields fit the properties that an item schema inherits, and the two of its own that
stand among them. -/
theorem shared_fit {statuses required : List String} {kind : ItemType}
    {properties : List (String × Blueprint)}
    (fresh : ∀ name ∈ Blueprint.baseItem.declaredNames, properties.lookup name = none)
    (status : properties.lookup "status" = some (.choice statuses))
    (tag : properties.lookup "type" = some (.constant (.text kind.text))) :
    ∀ field ∈ shared statuses kind, field.FitsIn (.extension .baseItem required properties) := by
  have inherited {name : String} {inner : Blueprint}
      (base : Blueprint.baseItem.propertyAt name = some inner) :
      (Blueprint.extension .baseItem required properties).propertyAt name = some inner := by
    rw [Blueprint.propertyAt, fresh name (Blueprint.mem_declaredNames base), Option.none_or, base]
  have own {name : String} {inner : Blueprint} (given : properties.lookup name = some inner) :
      (Blueprint.extension .baseItem required properties).propertyAt name = some inner := by
    rw [Blueprint.propertyAt, given, Option.some_or]
  simp only [shared, List.forall_mem_cons]
  exact ⟨⟨_, inherited rfl, .plain⟩, ⟨_, inherited rfl, .plain⟩, ⟨_, inherited rfl, .plain⟩,
    ⟨_, own status, .plain⟩, ⟨_, inherited rfl, .plain⟩, ⟨_, inherited rfl, .nullable rfl⟩,
    ⟨_, inherited rfl, .plain⟩, ⟨_, inherited rfl, .plain⟩, ⟨_, inherited rfl, .plain⟩,
    ⟨_, own tag, .constant rfl⟩, List.forall_mem_nil _⟩

theorem ofItemType_property (kind : ItemType) :
    ∀ field ∈ ofItemType kind, field.FitsIn (.registered (.ofItemType kind)) := by
  cases kind with
  | feature =>
      refine List.forall_mem_append.mpr ⟨shared_fit (by decide) rfl rfl, ?_⟩
      simp only [List.forall_mem_cons]
      exact ⟨⟨_, rfl, .nullable rfl⟩, ⟨_, rfl, .plain⟩, ⟨_, rfl, .plain⟩, List.forall_mem_nil _⟩
  | bug =>
      refine List.forall_mem_append.mpr ⟨shared_fit (by decide) rfl rfl, ?_⟩
      simp only [List.forall_mem_cons]
      exact ⟨⟨_, rfl, .plain⟩, ⟨_, rfl, .plain⟩, ⟨_, rfl, .plain⟩, ⟨_, rfl, .plain⟩,
        ⟨_, rfl, .nullable rfl⟩, List.forall_mem_nil _⟩
  | task =>
      refine List.forall_mem_append.mpr ⟨shared_fit (by decide) rfl rfl, ?_⟩
      simp only [List.forall_mem_cons]
      exact ⟨⟨_, rfl, .nullable rfl⟩, ⟨_, rfl, .plain⟩, ⟨_, rfl, .plain⟩, ⟨_, rfl, .plain⟩,
        List.forall_mem_nil _⟩

/-- The patterns of items have no digits but those of ASCII. -/
theorem ofItemType_alike (kind : ItemType) : (ofItemType kind).ReadAlike := by
  have alike : formPattern? idPattern = Pattern.ofTextClosed? idPattern.toList :=
    formPattern_identifier.trans idPattern_word.symm
  cases kind <;>
    simp [Form.ReadAlike, ofItemType, shared, feature, bug, task, plainField, FieldType.textRule?,
      TextRule.ReadAlike, nonempty, identifier, alike]

/-- The form of a kind of item fits the schema that is registered for the kind. -/
theorem ofItemType_fits (kind : ItemType) :
    (ofItemType kind).Fits (.registered (.ofItemType kind)) where
  isObject := by cases kind <;> rfl
  isClosed := by cases kind <;> rfl
  refusesNull := by cases kind <;> rfl
  property := ofItemType_property kind
  declared := by cases kind <;> decide
  required := by cases kind <;> decide
  present := by cases kind <;> decide
  yields field declared rule given := (ofItemType_alike kind field declared rule given).yields

theorem metadata_proper : metadata.Proper where
  distinct := by decide
  secondNames := by decide
  defaults := by simp [metadata, plainField]

theorem metadata_fits : metadata.Fits Blueprint.projectMetadata where
  isObject := rfl
  isClosed := rfl
  refusesNull := rfl
  property := by
    simp only [metadata, List.forall_mem_cons]
    exact ⟨⟨_, rfl, .plain⟩, ⟨_, rfl, .plain⟩, ⟨_, rfl, .plain⟩, List.forall_mem_nil _⟩
  declared := by decide
  required := by decide
  present := by decide
  yields := by
    have name : TextRule.ReadAlike { least := 1, most := some 100 } := nofun
    simp only [metadata, plainField, List.forall_mem_cons, FieldType.textRule?, Option.mem_some,
      forall_eq']
    exact ⟨name.yields, versionRule_yields, nofun, List.forall_mem_nil _⟩

/-- The field of the version. -/
def versionField : Field :=
  plainField "version" (.text versionRule) .required

theorem versionField_mem : versionField ∈ metadata :=
  List.mem_cons_of_mem _ List.mem_cons_self

end Forms

end WorkItems
