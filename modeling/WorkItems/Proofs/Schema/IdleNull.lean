import WorkItems.Proofs.Schema.Rules

namespace WorkItems.Schema.Blueprint

/-! Null beside a list of choices.

A choice made nullable has null among its types but not among its choices.  `IdleNull` says that a
value has a null in such a place.
-/

variable {blueprint inner : Blueprint} {value : Value} {items : List Value} {members : Members}
  {least most : Option Number} {unique : Bool}

/-- Whether null stands somewhere in a value where only a type allows it, beside a list of
choices. -/
inductive IdleNull : Blueprint → Value → Prop where
  | here {inner : Blueprint} (chosen : inner.lists = true) (typed : inner.typeName?.isSome = true) :
    IdleNull (.nullable inner) .null
  | inside {inner : Blueprint} {value : Value} (idle : IdleNull inner value) :
    IdleNull (.nullable inner) value
  | item {inner : Blueprint} {least most : Option Number} {unique : Bool} {items : List Value}
    {item : Value} (entry : item ∈ items) (idle : IdleNull inner item) :
    IdleNull (.array inner least most unique) (.array items)
  | member {blueprint inner : Blueprint} {members : Members} {key : String} {value : Value}
    (shape : blueprint.isObject = true) (declared : blueprint.propertyAt key = some inner)
    (entry : (key, value) ∈ members) (idle : IdleNull inner value) :
    IdleNull blueprint (.object members)

theorem idleNull_array_iff : (array inner least most unique).IdleNull (.array items) ↔
    ∃ item ∈ items, inner.IdleNull item := by
  constructor
  · intro idle
    cases idle with
    | item entry idle => exact ⟨_, entry, idle⟩
  · intro idle
    obtain ⟨item, entry, idle⟩ := idle
    exact .item entry idle

theorem idleNull_object_iff (shape : blueprint.isObject = true) :
    blueprint.IdleNull value ↔ ∃ members : Members, value = .object members ∧
      ∃ member ∈ members, ∃ inner, blueprint.propertyAt member.1 = some inner ∧
        inner.IdleNull member.2 := by
  constructor
  · intro idle
    induction idle with
    | @here inner chosen =>
        have notChosen : inner.lists = false := lists_of_isObject shape
        rw [notChosen] at chosen
        cases chosen
    | inside idle ih => exact ih shape
    | item => cases shape
    | member _ declared entry idle => exact ⟨_, rfl, _, entry, _, declared, idle⟩
  · intro idle
    obtain ⟨members, rfl, member, entry, inner, declared, idle⟩ := idle
    exact .member shape declared entry idle

theorem idleNull_nullable_iff (other : inner.isObject = false) :
    (nullable inner).IdleNull value ↔
      (value = .null ∧ inner.lists = true ∧ inner.typeName?.isSome = true) ∨
        inner.IdleNull value := by
  constructor
  · intro idle
    cases idle with
    | here chosen typed => exact .inl ⟨rfl, chosen, typed⟩
    | inside idle => exact .inr idle
    | member shape =>
        rw [isObject, other] at shape
        cases shape
  · intro idle
    rcases idle with ⟨rfl, chosen, typed⟩ | idle
    · exact .here chosen typed
    · exact .inside idle

theorem not_idleNull_of_scalar (notObject : blueprint.isObject = false)
    (notArray : ∀ inner least most unique, blueprint ≠ .array inner least most unique)
    (notNullable : ∀ inner, blueprint ≠ .nullable inner) : ¬ blueprint.IdleNull value := by
  intro idle
  cases idle with
  | here | inside => exact notNullable _ rfl
  | item => exact notArray _ _ _ _ rfl
  | member shape =>
      rw [notObject] at shape
      cases shape

theorem IdleNull.lists_of_null (idle : blueprint.IdleNull .null) : blueprint.lists = true := by
  generalize same : Value.null = value at idle
  induction idle with
  | here chosen => exact chosen
  | inside idle ih => exact ih same
  | item | member => cases same

/-- Null itself is idle under choices alone. -/
theorem idleNull_null_iff (typed : inner.typeName?.isSome = true) :
    (nullable inner).IdleNull .null ↔ inner.lists = true := by
  constructor
  · intro idle
    exact idle.lists_of_null
  · intro chosen
    exact .here chosen typed

/-- Where nothing nullable is a choice, no null is idle. -/
theorem not_idleNull_of_every (every : blueprint.Every fun part =>
    ∀ inner, part = .nullable inner → inner.lists = false) : ¬ blueprint.IdleNull value := by
  intro idle
  induction idle with
  | here chosen =>
      rw [every.1 _ rfl] at chosen
      cases chosen
  | inside idle ih => exact ih every.2
  | item entry idle ih => exact ih every.2
  | member shape declared entry idle ih => exact ih (every.propertyAt declared)

end WorkItems.Schema.Blueprint
