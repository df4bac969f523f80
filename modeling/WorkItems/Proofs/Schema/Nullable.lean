import WorkItems.Proofs.Schema.Agreement

namespace WorkItems.Schema

/-! Schemas made nullable, under the engine and under draft 7.

The engine lets null pass where a type allows it and looks at nothing else, while draft 7 still
holds it against a list of choices.  On schemas without end anchors this is all that the two differ
in.
-/

open Blueprint

variable {blueprint inner : Blueprint} {value : Value} {members : Members} {items : List Value}
  {key : String}

theorem draft7_validate_iff (wellFormed : blueprint.WellFormed)
    (unanchored : blueprint.Patterns Pattern.Unanchored) (plain : value.Plain) :
    Draft7.validate (.object blueprint.rules) value = [] ↔
      validate true (.object blueprint.rules) value = .ok [] ∧ ¬ blueprint.IdleNull value := by
  rw [draft7_validate_nil_iff, validate_eq_nil_iff wellFormed,
    ← draft7_iff_engine wellFormed unanchored]
  exact draft7_decides wellFormed plain

theorem draft7_field_iff (wellFormed : blueprint.WellFormed)
    (unanchored : blueprint.Patterns Pattern.Unanchored) (plain : value.Plain) :
    Draft7.validate (objectSchema [(key, .object blueprint.rules)] [] false)
        (.object [(key, value)]) = [] ↔
      validate true (objectSchema [(key, .object blueprint.rules)] [] false)
        (.object [(key, value)]) = .ok [] ∧ ¬ blueprint.IdleNull value := by
  have fieldWellFormed : (Blueprint.object [(key, blueprint)] [] false).WellFormed :=
    ⟨List.nodup_singleton key, wellFormed, trivial⟩
  have fieldUnanchored : (Blueprint.object [(key, blueprint)] [] false).Patterns _ :=
    ⟨trivial, unanchored, trivial⟩
  have fieldPlain : (Value.object [(key, value)]).Plain :=
    Value.every_object_iff.mpr ⟨List.nodup_singleton key, List.forall_mem_singleton.mpr plain⟩
  have idle : (Blueprint.object [(key, blueprint)] [] false).IdleNull (.object [(key, value)]) ↔
      blueprint.IdleNull value := by
    rw [idleNull_object_iff rfl]
    simp [propertyAt, Members.lookup_cons]
  rw [← idle]
  exact draft7_validate_iff fieldWellFormed fieldUnanchored fieldPlain

theorem draft7_items_iff (wellFormed : blueprint.WellFormed)
    (unanchored : blueprint.Patterns Pattern.Unanchored) (plain : (Value.array items).Plain) :
    Draft7.validate (arraySchema (.object blueprint.rules) .null .null false) (.array items) = [] ↔
      validate true (arraySchema (.object blueprint.rules) .null .null false) (.array items) =
        .ok [] ∧ ∀ item ∈ items, ¬ blueprint.IdleNull item := by
  have arrayWellFormed : (Blueprint.array blueprint none none false).WellFormed :=
    ⟨trivial, wellFormed⟩
  have arrayUnanchored : (Blueprint.array blueprint none none false).Patterns _ :=
    ⟨trivial, unanchored⟩
  have idle : (¬ (Blueprint.array blueprint none none false).IdleNull (.array items)) ↔
      ∀ item ∈ items, ¬ blueprint.IdleNull item := by
    rw [idleNull_array_iff]
    simp
  rw [← idle]
  exact draft7_validate_iff arrayWellFormed arrayUnanchored plain

theorem validate_field_null (wellFormed : inner.WellFormed)
    (typed : inner.typeName?.isSome = true) :
    validate true (objectSchema [(key, .object (Blueprint.nullable inner).rules)] [] false)
      (.object [(key, .null)]) = .ok [] := by
  have fieldWellFormed :
      (Blueprint.object [(key, Blueprint.nullable inner)] [] false).WellFormed :=
    ⟨List.nodup_singleton key, ⟨trivial, wellFormed⟩, trivial⟩
  have declared : (Blueprint.object [(key, Blueprint.nullable inner)] [] false).propertyAt key =
      some (.nullable inner) := by
    rw [propertyAt, Members.lookup_cons, if_pos rfl]
  have nullAdmitted : (Blueprint.nullable inner).Admits (.engine true) .null :=
    Or.inr ⟨rfl, typed⟩
  have admits : (Blueprint.object [(key, Blueprint.nullable inner)] [] false).Admits (.engine true)
      (.object [(key, .null)]) := by
    refine (admits_members_iff rfl).mpr ⟨List.forall_mem_nil _, List.forall_mem_singleton.mpr ?_⟩
    exact admitsMember_of_property rfl declared nullAdmitted
  exact (validate_eq_nil_iff fieldWellFormed).mpr admits

/-- A nullable schema without end anchors means the same to the engine and to draft 7, as a field
and in an array, apart from null beside a list of choices: the engine always accepts it and draft 7
never. -/
theorem nullable_agrees {inner : Blueprint} (typed : inner.typeName?.isSome = true)
    (wellFormed : inner.WellFormed) (unanchored : inner.Patterns Pattern.Unanchored)
    (key : String) (value : Value) (plain : value.Plain) (items : List Value)
    (plainItems : (Value.array items).Plain) :
    ∃ schema, (Blueprint.nullable inner).build = .ok schema ∧
      (Draft7.validate (objectSchema [(key, schema)] [] false) (.object [(key, value)]) = [] ↔
        validate true (objectSchema [(key, schema)] [] false) (.object [(key, value)]) = .ok [] ∧
          ¬ (Blueprint.nullable inner).IdleNull value) ∧
      (Draft7.validate (arraySchema schema .null .null false) (.array items) = [] ↔
        validate true (arraySchema schema .null .null false) (.array items) = .ok [] ∧
          ∀ item ∈ items, ¬ (Blueprint.nullable inner).IdleNull item) ∧
      validate true (objectSchema [(key, schema)] [] false) (.object [(key, .null)]) = .ok [] ∧
      (Draft7.validate (objectSchema [(key, schema)] [] false) (.object [(key, .null)]) = [] ↔
        inner.lists = false) := by
  have nullableWellFormed : (Blueprint.nullable inner).WellFormed := ⟨trivial, wellFormed⟩
  have nullableUnanchored : (Blueprint.nullable inner).Patterns Pattern.Unanchored :=
    ⟨trivial, unanchored⟩
  have nullAccepted : validate true
      (objectSchema [(key, .object (Blueprint.nullable inner).rules)] [] false)
      (.object [(key, .null)]) = .ok [] := validate_field_null wellFormed typed
  have nullPlain : Value.null.Plain := trivial
  refine ⟨_, build_eq nullableWellFormed,
    draft7_field_iff nullableWellFormed nullableUnanchored plain,
    draft7_items_iff nullableWellFormed nullableUnanchored plainItems, nullAccepted, ?_⟩
  rw [draft7_field_iff nullableWellFormed nullableUnanchored nullPlain, idleNull_null_iff typed,
    Bool.not_eq_true]
  exact and_iff_right nullAccepted

/-- One of two levels. -/
def level : Blueprint := .choice ["low", "high"]

theorem level_wellFormed : level.WellFormed := trivial

theorem level_unanchored : level.Patterns Pattern.Unanchored := trivial

theorem low_not_idle : ¬ (Blueprint.nullable level).IdleNull (.text "low") := by
  intro idle
  rcases (idleNull_nullable_iff rfl).mp idle with ⟨impossible, -⟩ | idle
  · cases impossible
  · cases idle

theorem levels_plain : (Value.array [.text "low", .null]).Plain := by
  simp [Value.Plain, Value.PlainPart, Value.Every, Value.EveryItem]

theorem level_agrees :
    level.typeName?.isSome = true ∧ level.WellFormed ∧ level.Patterns Pattern.Unanchored ∧
      (Value.text "low").Plain ∧ (Value.array [.text "low", .null]).Plain ∧
      ∃ schema, (Blueprint.nullable level).build = .ok schema ∧
        Draft7.validate (objectSchema [("level", schema)] [] false)
          (.object [("level", .text "low")]) = [] ∧
        Draft7.validate (arraySchema schema .null .null false) (.array [.text "low", .null]) ≠
          [] := by
  have plain : (Value.text "low").Plain := trivial
  obtain ⟨schema, built, field, items, -⟩ := nullable_agrees rfl level_wellFormed level_unanchored
    "level" (.text "low") plain [.text "low", .null] levels_plain
  have same : schema = .object (Blueprint.nullable level).rules := Except.ok.inj built.symm
  have accepted : validate true (objectSchema [("level", schema)] [] false)
      (.object [("level", .text "low")]) = .ok [] := by
    rw [same]
    exact eq_ok_of_toOption (by decide +kernel)
  refine ⟨rfl, level_wellFormed, level_unanchored, plain, levels_plain, schema, built,
    field.mpr ⟨accepted, low_not_idle⟩, fun accepted => ?_⟩
  exact (items.mp accepted).2 .null (by simp) (.here rfl rfl)

theorem nullable_level_differs : ∃ schema, (Blueprint.nullable level).build = .ok schema ∧
    validate true (objectSchema [("level", schema)] [] false) (.object [("level", .null)]) =
      .ok [] ∧
    Draft7.validate (objectSchema [("level", schema)] [] false) (.object [("level", .null)]) ≠
      [] := by
  refine ⟨_, rfl, eq_ok_of_toOption (by decide +kernel), fun accepted => ?_⟩
  have wellFormed : (Blueprint.nullable level).WellFormed := ⟨trivial, level_wellFormed⟩
  have unanchored : (Blueprint.nullable level).Patterns Pattern.Unanchored :=
    ⟨trivial, level_unanchored⟩
  have plain : Value.null.Plain := trivial
  exact ((draft7_field_iff wellFormed unanchored plain).mp accepted).2 (.here rfl rfl)

end WorkItems.Schema
