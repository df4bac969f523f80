import WorkItems.Proofs.Pattern.Language
import WorkItems.Proofs.Schema.Rules
import WorkItems.Schema.Registry

namespace WorkItems.Schema

/-! The registered schemas as blueprints.

The item schemas extend the fields that all items share.  `build_registered` says that the builders
make the registered schemas of them, so that everything proved of well-formed blueprints is proved
of the registered schemas.
-/

namespace Blueprint

def anyText : Blueprint := .text none none none none

def nonemptyText : Blueprint := .text (some (.int 1)) none none none

def momentText : Blueprint := .text none none none (some "date-time")

def baseItem : Blueprint :=
  .object
    [("id", .text (some (.int 1)) none (some idPattern) none),
     ("title", .text (some (.int 1)) (some (.int 200)) none none),
     ("description", .text none (some (.int 2000)) none none),
     ("priority", .choice (Priority.all.map Priority.text)),
     ("assignee", .nullable anyText),
     ("tags", .array anyText none none false),
     ("createdAt", momentText),
     ("updatedAt", momentText)]
    sharedRequired true

def feature : Blueprint :=
  .extension baseItem ["type", "acceptanceCriteria"]
    [("type", .constant (.text "feature")),
     ("status", .choice (FeatureStatus.all.map FeatureStatus.text)),
     ("epic", .nullable nonemptyText),
     ("storyPoints", .number (some (.int 1)) (some (.int 21)) true),
     ("acceptanceCriteria", .array nonemptyText (some (.int 1)) none false)]

def bug : Blueprint :=
  .extension baseItem ["type", "severity", "reproducible", "stepsToReproduce", "environment"]
    [("type", .constant (.text "bug")),
     ("status", .choice (BugStatus.all.map BugStatus.text)),
     ("severity", .choice (Severity.all.map Severity.text)),
     ("reproducible", .flag),
     ("stepsToReproduce", .array nonemptyText (some (.int 1)) none false),
     ("environment", nonemptyText),
     ("resolution", .nullable nonemptyText)]

def task : Blueprint :=
  .extension baseItem ["type", "subtasks"]
    [("type", .constant (.text "task")),
     ("status", .choice (TaskStatus.all.map TaskStatus.text)),
     ("dueDate", .nullable momentText),
     ("estimatedHours", .number (some (.int 0)) none false),
     ("actualHours", .number (some (.int 0)) none false),
     ("subtasks", .array (.text none none (some idPattern) none) none none true)]

def projectMetadata : Blueprint :=
  .object
    [("projectName", .text (some (.int 1)) (some (.int 100)) none none),
     ("version", .text none none (some versionPattern) none),
     ("lastUpdated", momentText)]
    ["projectName", "version", "lastUpdated"] true

def projectData : Blueprint :=
  .object
    [("features", .array feature none none false),
     ("bugs", .array bug none none false),
     ("tasks", .array task none none false),
     ("metadata", projectMetadata)]
    ["features", "bugs", "tasks", "metadata"] true

def registered : SchemaName → Blueprint
  | .baseItem => baseItem
  | .feature => feature
  | .bug => bug
  | .task => task
  | .projectData => projectData

theorem build_registered (name : SchemaName) : (registered name).build = .ok name.schema := by
  cases name <;> rfl

end Blueprint

/-- The class of the characters that an identifier may have. -/
def identifierClass : List ClassPart :=
  [.range 'a' 'z', .range 'A' 'Z', .range '0' '9', .range '_' '_', .range '-' '-']

theorem idPattern_word :
    Pattern.ofTextClosed? idPattern.toList = some (Pattern.word identifierClass) := by
  decide +kernel

theorem idPattern_anchored : Pattern.EndAnchored idPattern :=
  ⟨[.anchor .textStart, .repeated (.oneOf false identifierClass) 1 none], by decide +kernel,
    idPattern_word⟩

/-- The class of the characters that the qualifier of a version may have. -/
def qualifierClass : List ClassPart :=
  [.range 'a' 'z', .range 'A' 'Z', .range '0' '9']

/-- What a version is made of: three runs of digits with points between them, and perhaps a hyphen
with a run of letters and digits. -/
def versionParts (digit : ClassPart) : List Pattern :=
  [.repeated (.oneOf false [digit]) 1 none,
   .oneOf false [.range '.' '.'],
   .repeated (.oneOf false [digit]) 1 none,
   .oneOf false [.range '.' '.'],
   .repeated (.oneOf false [digit]) 1 none,
   .repeated (.sequence (.sequence (.oneOf false [.range '-' '-'])
     (.sequence (.repeated (.oneOf false qualifierClass) 1 none) .empty)) .empty) 0 (some 1)]

theorem versionPattern_parts : Pattern.ofTextClosed? versionPattern.toList =
    some (Pattern.anchored (.anchor .textStart :: versionParts (.digit false)) .textEnd) := by
  decide +kernel

theorem versionPattern_anchored : Pattern.EndAnchored versionPattern :=
  ⟨.anchor .textStart :: versionParts (.digit false), by decide +kernel, versionPattern_parts⟩

namespace Blueprint

/-- What keeps a part of a schema from being read in two ways: its patterns end in a dollar sign,
and null is not declared beside a list of all that is allowed. -/
def PortablePart : Blueprint → Prop
  | .text _ _ pattern _ => ∀ written ∈ pattern, Pattern.EndAnchored written
  | .object properties _ _ => Members.Distinct properties
  | .nullable inner => inner.lists = false
  | .extension base _ properties => base.isObject = true ∧ Members.Distinct properties
  | _ => True

def Portable (blueprint : Blueprint) : Prop :=
  blueprint.Every PortablePart

theorem Portable.wellFormed {blueprint : Blueprint} (portable : blueprint.Portable) :
    blueprint.WellFormed := by
  refine Every.imp portable fun part holds => ?_
  cases part with
  | text least most pattern format =>
      intro written given
      obtain ⟨parts, -, closed⟩ := holds written given
      rw [closed, Option.isSome_some]
  | object properties required closed => exact holds
  | extension base required properties => exact holds
  | choice | flag | number | array | constant | nullable => trivial

/-- Whether the pattern of a schema of strings is of some kind. -/
def PatternPart (kind : String → Prop) : Blueprint → Prop
  | .text _ _ pattern _ => ∀ written ∈ pattern, kind written
  | _ => True

def Patterns (kind : String → Prop) (blueprint : Blueprint) : Prop :=
  blueprint.Every (PatternPart kind)

theorem Portable.patterns {blueprint : Blueprint} (portable : blueprint.Portable) :
    blueprint.Patterns Pattern.EndAnchored := by
  refine Every.imp portable fun part holds => ?_
  cases part with
  | text least most pattern format => exact holds
  | choice | flag | number | array | constant | object | nullable | extension => trivial

section

variable {inner base : Blueprint} {least most : Option Number} {pattern format : Option String}
  {options required : List String} {integral unique closed : Bool}
  {properties : List (String × Blueprint)} {value : Value}

@[simp] theorem portable_text_iff : (text least most pattern format).Portable ↔
    ∀ written ∈ pattern, Pattern.EndAnchored written :=
  Iff.rfl

@[simp] theorem portable_choice : (choice options).Portable :=
  trivial

@[simp] theorem portable_flag : flag.Portable :=
  trivial

@[simp] theorem portable_number : (number least most integral).Portable :=
  trivial

@[simp] theorem portable_constant : (constant value).Portable :=
  trivial

@[simp] theorem portable_array_iff : (array inner least most unique).Portable ↔ inner.Portable :=
  ⟨And.right, fun portable => ⟨trivial, portable⟩⟩

@[simp] theorem portable_nullable_iff : (nullable inner).Portable ↔
    inner.lists = false ∧ inner.Portable :=
  Iff.rfl

theorem portable_object_iff : (object properties required closed).Portable ↔
    Members.Distinct properties ∧ ∀ property ∈ properties, property.2.Portable :=
  and_congr_right fun _ => everyProperty_iff

theorem portable_extension_iff : (extension base required properties).Portable ↔
    (base.isObject = true ∧ Members.Distinct properties) ∧ base.Portable ∧
      ∀ property ∈ properties, property.2.Portable :=
  and_congr_right fun _ => and_congr_right fun _ => everyProperty_iff

end

theorem baseItem_portable : baseItem.Portable := by
  refine portable_object_iff.mpr ⟨by decide, ?_⟩
  simp [anyText, momentText, lists, idPattern_anchored]

theorem feature_portable : feature.Portable := by
  refine portable_extension_iff.mpr ⟨⟨rfl, by decide⟩, baseItem_portable, ?_⟩
  simp [nonemptyText, lists]

theorem bug_portable : bug.Portable := by
  refine portable_extension_iff.mpr ⟨⟨rfl, by decide⟩, baseItem_portable, ?_⟩
  simp [nonemptyText, lists]

theorem task_portable : task.Portable := by
  refine portable_extension_iff.mpr ⟨⟨rfl, by decide⟩, baseItem_portable, ?_⟩
  simp [momentText, lists, idPattern_anchored]

theorem projectMetadata_portable : projectMetadata.Portable := by
  refine portable_object_iff.mpr ⟨by decide, ?_⟩
  simp [momentText, versionPattern_anchored]

theorem projectData_portable : projectData.Portable := by
  refine ⟨?_, ⟨trivial, feature_portable⟩, ⟨trivial, bug_portable⟩, ⟨trivial, task_portable⟩,
    projectMetadata_portable, trivial⟩
  simp [PortablePart, Members.Distinct]

theorem registered_portable (name : SchemaName) : (registered name).Portable := by
  cases name with
  | baseItem => exact baseItem_portable
  | feature => exact feature_portable
  | bug => exact bug_portable
  | task => exact task_portable
  | projectData => exact projectData_portable

theorem schema_eq_rules (name : SchemaName) : name.schema = .object (registered name).rules := by
  have built := build_registered name
  rw [build_eq (registered_portable name).wellFormed] at built
  exact (Except.ok.inj built).symm

end Blueprint

end WorkItems.Schema
