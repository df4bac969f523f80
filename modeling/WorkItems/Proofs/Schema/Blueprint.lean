import WorkItems.Proofs.Members
import WorkItems.Schema.Builder

namespace WorkItems.Schema

/-! Schemas as they are put together by the builders.

A blueprint is a term of the builders, and `build` calls them from the inside out.  Everything
that is proved of built schemas goes through `rules`, the members of the schema that a well-formed
blueprint builds.
-/

/-- A schema that is put together by the builders; a limit, a pattern or a format that is not
given is left out. -/
inductive Blueprint where
  | text (minLength maxLength : Option Number) (pattern format : Option String)
  | choice (options : List String)
  | flag
  | number (minimum maximum : Option Number) (integral : Bool)
  | array (items : Blueprint) (minItems maxItems : Option Number) (unique : Bool)
  | constant (value : Value)
  | object (properties : List (String × Blueprint)) (required : List String) (closed : Bool)
  | nullable (inner : Blueprint)
  | extension (base : Blueprint) (required : List String)
      (properties : List (String × Blueprint))

namespace Blueprint

def limit (given : Option Number) : Value :=
  given.elim .null .number

def word (given : Option String) : Value :=
  given.elim .null .text

mutual

def build : Blueprint → Except Fault Value
  | .text minLength maxLength pattern format =>
    .ok (textSchema (limit minLength) (limit maxLength) (word pattern) (word format))
  | .choice options => .ok (choiceSchema (options.map .text))
  | .flag => .ok booleanSchema
  | .number minimum maximum integral =>
    .ok (numberSchema (limit minimum) (limit maximum) integral)
  | .array items minItems maxItems unique => do
    let items ← build items
    pure (arraySchema items (limit minItems) (limit maxItems) unique)
  | .constant value => .ok (constantSchema value)
  | .object properties required closed => do
    let properties ← buildProperties properties
    pure (objectSchema properties (required.map .text) closed)
  | .nullable inner => do
    let inner ← build inner
    Schema.nullable inner
  | .extension base required properties => do
    let base ← build base
    let properties ← buildProperties properties
    Schema.extend base (.array (required.map .text)) (.object properties)
termination_by structural blueprint => blueprint

def buildProperties : List (String × Blueprint) → Except Fault Members
  | [] => .ok []
  | (name, blueprint) :: rest => do
    let schema ← build blueprint
    let others ← buildProperties rest
    pure ((name, schema) :: others)
termination_by structural properties => properties

end

/-- The name of the declared type; only constants declare none. -/
def typeName? : Blueprint → Option String
  | .text .. | .choice _ => some "string"
  | .flag => some "boolean"
  | .number _ _ integral => some (if integral then "integer" else "number")
  | .array .. => some "array"
  | .constant _ => none
  | .object .. => some "object"
  | .nullable inner => inner.typeName?
  | .extension base _ _ => base.typeName?

/-- Whether null is declared beside the type. -/
def allowsNull : Blueprint → Bool
  | .nullable inner => inner.typeName?.isSome
  | .extension base _ _ => base.allowsNull
  | _ => false

def isObject : Blueprint → Bool
  | .object .. => true
  | .nullable inner => inner.isObject
  | .extension base _ _ => base.isObject
  | _ => false

def isClosed : Blueprint → Bool
  | .object _ _ closed => closed
  | .nullable inner => inner.isClosed
  | .extension base _ _ => base.isClosed
  | _ => false

/-- The names in the required entry: those of the base come first, then the new ones. -/
def requiredEntries : Blueprint → List String
  | .object _ required _ => required
  | .nullable inner => inner.requiredEntries
  | .extension base required _ =>
    base.requiredEntries ++ required.filter fun name => !base.requiredEntries.contains name
  | _ => []

/-- What is declared for a key; an extension overrides its base. -/
def propertyAt : Blueprint → String → Option Blueprint
  | .object properties _ _, key => properties.lookup key
  | .nullable inner, key => inner.propertyAt key
  | .extension base _ properties, key => (properties.lookup key).or (base.propertyAt key)
  | _, _ => none

/-- Induction on blueprints, with a hypothesis for every property. -/
@[elab_as_elim]
theorem byParts {motive : Blueprint → Prop}
    (text : ∀ minLength maxLength pattern format,
      motive (.text minLength maxLength pattern format))
    (choice : ∀ options, motive (.choice options))
    (flag : motive .flag)
    (number : ∀ minimum maximum integral, motive (.number minimum maximum integral))
    (array : ∀ items minItems maxItems unique, motive items →
      motive (.array items minItems maxItems unique))
    (constant : ∀ value, motive (.constant value))
    (object : ∀ properties required closed, (∀ property ∈ properties, motive property.2) →
      motive (.object properties required closed))
    (nullable : ∀ inner, motive inner → motive (.nullable inner))
    (extension : ∀ base required properties, motive base →
      (∀ property ∈ properties, motive property.2) →
      motive (.extension base required properties))
    (blueprint : Blueprint) : motive blueprint := by
  refine Blueprint.rec (motive_1 := motive)
    (motive_2 := fun properties => ∀ property ∈ properties, motive property.2)
    (motive_3 := fun property => motive property.2)
    text choice flag number array constant object nullable extension ?_ ?_ ?_ blueprint
  · intro property member
    cases member
  · intro first rest firstHolds restHolds property member
    rcases List.mem_cons.mp member with same | later
    · exact same ▸ firstHolds
    · exact restHolds property later
  · intro name inner holds
    exact holds

/-- Induction that takes all object schemas together, whether they are built at once, by
extension or made nullable, with a hypothesis for whatever they declare. -/
@[elab_as_elim]
theorem byShape {motive : Blueprint → Prop}
    (text : ∀ minLength maxLength pattern format,
      motive (.text minLength maxLength pattern format))
    (choice : ∀ options, motive (.choice options))
    (flag : motive .flag)
    (number : ∀ minimum maximum integral, motive (.number minimum maximum integral))
    (array : ∀ items minItems maxItems unique, motive items →
      motive (.array items minItems maxItems unique))
    (constant : ∀ value, motive (.constant value))
    (object : ∀ blueprint, blueprint.isObject = true →
      (∀ key inner, blueprint.propertyAt key = some inner → motive inner) → motive blueprint)
    (nullable : ∀ inner, inner.isObject = false → motive inner → motive (.nullable inner))
    (stray : ∀ base required properties, base.isObject = false →
      motive (.extension base required properties))
    (blueprint : Blueprint) : motive blueprint := by
  suffices strong : motive blueprint ∧
      ∀ key inner, blueprint.propertyAt key = some inner → motive inner from strong.1
  induction blueprint using byParts with
  | text => exact ⟨text _ _ _ _, fun _ _ found => nomatch found⟩
  | choice => exact ⟨choice _, fun _ _ found => nomatch found⟩
  | flag => exact ⟨flag, fun _ _ found => nomatch found⟩
  | number => exact ⟨number _ _ _, fun _ _ found => nomatch found⟩
  | array _ _ _ _ items => exact ⟨array _ _ _ _ items.1, fun _ _ found => nomatch found⟩
  | constant => exact ⟨constant _, fun _ _ found => nomatch found⟩
  | object properties required closed ih =>
      have declared : ∀ key inner, properties.lookup key = some inner → motive inner :=
        fun key inner found => (ih (key, inner) (Members.mem_of_lookup found)).1
      exact ⟨object _ rfl declared, declared⟩
  | nullable inner ih =>
      refine ⟨?_, ih.2⟩
      cases shape : inner.isObject with
      | true => exact object _ shape ih.2
      | false => exact nullable inner shape ih.1
  | extension base required properties baseHolds ih =>
      have declared : ∀ key inner,
          (properties.lookup key).or (base.propertyAt key) = some inner → motive inner := by
        intro key inner found
        cases own : properties.lookup key with
        | some property =>
            rw [own, Option.some_or, Option.some.injEq] at found
            exact found ▸ (ih (key, property) (Members.mem_of_lookup own)).1
        | none =>
            rw [own, Option.none_or] at found
            exact baseHolds.2 key inner found
      refine ⟨?_, declared⟩
      cases shape : base.isObject with
      | true => exact object _ shape declared
      | false => exact stray base required properties shape

mutual

/-- Whether a blueprint and all blueprints in it have a property. -/
def Every (holds : Blueprint → Prop) : Blueprint → Prop
  | .array items minItems maxItems unique =>
    holds (.array items minItems maxItems unique) ∧ Every holds items
  | .object properties required closed =>
    holds (.object properties required closed) ∧ EveryProperty holds properties
  | .nullable inner => holds (.nullable inner) ∧ Every holds inner
  | .extension base required properties =>
    holds (.extension base required properties) ∧ Every holds base ∧
      EveryProperty holds properties
  | blueprint => holds blueprint
termination_by structural blueprint => blueprint

def EveryProperty (holds : Blueprint → Prop) : List (String × Blueprint) → Prop
  | [] => True
  | (_, blueprint) :: rest => Every holds blueprint ∧ EveryProperty holds rest
termination_by structural properties => properties

end

/-- A pattern has to be one, no two properties share a name, and only object schemas are
extended. -/
def Sound : Blueprint → Prop
  | .text _ _ pattern _ =>
    ∀ written ∈ pattern, (Pattern.ofTextClosed? written.toList).isSome = true
  | .object properties _ _ => Members.Distinct properties
  | .extension base _ properties => base.isObject = true ∧ Members.Distinct properties
  | _ => True

def WellFormed (blueprint : Blueprint) : Prop :=
  blueprint.Every Sound

variable {holds : Blueprint → Prop} {blueprint inner : Blueprint} {key : String}

theorem everyProperty_iff {properties : List (String × Blueprint)} :
    EveryProperty holds properties ↔ ∀ property ∈ properties, property.2.Every holds := by
  induction properties with
  | nil => simp [EveryProperty]
  | cons property rest ih => simp [EveryProperty, ih]

/-- What holds of every blueprint in another one holds of the other one. -/
theorem Every.whole (every : blueprint.Every holds) : holds blueprint := by
  cases blueprint with
  | array => exact every.1
  | object => exact every.1
  | nullable => exact every.1
  | extension => exact every.1
  | text | choice | flag | number | constant => exact every

theorem Every.imp {other : Blueprint → Prop} (every : blueprint.Every holds)
    (implies : ∀ part, holds part → other part) : blueprint.Every other := by
  induction blueprint using Blueprint.byParts with
  | text | choice | flag | number | constant => exact implies _ every
  | array items _ _ _ ih => exact ⟨implies _ every.1, ih every.2⟩
  | object properties _ _ ih =>
      refine ⟨implies _ every.1, everyProperty_iff.mpr fun property member => ?_⟩
      exact ih property member (everyProperty_iff.mp every.2 property member)
  | nullable wrapped ih => exact ⟨implies _ every.1, ih every.2⟩
  | extension base _ properties baseHolds ih =>
      refine ⟨implies _ every.1, baseHolds every.2.1,
        everyProperty_iff.mpr fun property member => ?_⟩
      exact ih property member (everyProperty_iff.mp every.2.2 property member)

theorem Every.and {other : Blueprint → Prop} (every : blueprint.Every holds)
    (everyToo : blueprint.Every other) : blueprint.Every fun part => holds part ∧ other part := by
  induction blueprint using Blueprint.byParts with
  | text | choice | flag | number | constant => exact ⟨every, everyToo⟩
  | array items _ _ _ ih => exact ⟨⟨every.1, everyToo.1⟩, ih every.2 everyToo.2⟩
  | object properties _ _ ih =>
      refine ⟨⟨every.1, everyToo.1⟩, everyProperty_iff.mpr fun property member => ?_⟩
      exact ih property member (everyProperty_iff.mp every.2 property member)
        (everyProperty_iff.mp everyToo.2 property member)
  | nullable wrapped ih => exact ⟨⟨every.1, everyToo.1⟩, ih every.2 everyToo.2⟩
  | extension base _ properties baseHolds ih =>
      refine ⟨⟨every.1, everyToo.1⟩, baseHolds every.2.1 everyToo.2.1,
        everyProperty_iff.mpr fun property member => ?_⟩
      exact ih property member (everyProperty_iff.mp every.2.2 property member)
        (everyProperty_iff.mp everyToo.2.2 property member)

theorem Every.propertyAt (every : blueprint.Every holds)
    (declared : blueprint.propertyAt key = some inner) : inner.Every holds := by
  induction blueprint using Blueprint.byParts with
  | object properties required closed _ =>
      exact everyProperty_iff.mp every.2 (key, inner) (Members.mem_of_lookup declared)
  | nullable wrapped ih => exact ih every.2 declared
  | extension base required properties baseHolds _ =>
      simp only [Blueprint.propertyAt] at declared
      cases own : properties.lookup key with
      | some property =>
          rw [own, Option.some_or, Option.some.injEq] at declared
          exact declared ▸ everyProperty_iff.mp every.2.2 _ (Members.mem_of_lookup own)
      | none =>
          rw [own, Option.none_or] at declared
          exact baseHolds every.2.1 declared
  | text | choice | flag | number | array | constant => cases declared

end Blueprint

end WorkItems.Schema
