import WorkItems.Proofs.Schema.Draft7Meaning

namespace WorkItems.Schema

/-! The schema engine and draft 7 agree on the registered schemas.

Both decide the meaning of a schema, and differ only in how they read it: where a dollar sign
matches.  A pattern that ends in a dollar sign is found more often by draft 7, and as often in a
text that does not end in a line break.
-/

open Blueprint

variable {reading other : Reading} {blueprint : Blueprint} {value : Value}

/-- What is admitted under one reading is admitted under another one that is as lenient with
members and finds the patterns of the schema in the texts of the value. -/
theorem Blueprint.Admits.transfer {kind good : String → Prop}
    (lenient : other.strict = true → reading.strict = true)
    (finds : ∀ written text, kind written → good text →
      reading.finds written text = true → other.finds written text = true)
    (wellFormed : blueprint.WellFormed) (patterns : blueprint.Patterns kind)
    (texts : value.EveryText good)
    (admitted : blueprint.Admits reading value) : blueprint.Admits other value := by
  induction blueprint using Blueprint.byShape generalizing value with
  | text least most pattern format =>
      obtain ⟨text, isText, within, matched⟩ := admitted
      refine ⟨text, isText, within, fun written given => ?_⟩
      exact finds written text (patterns.whole written given) (texts.whole text isText)
        (matched written given)
  | choice | flag | number | constant => exact admitted
  | array items least most unique ih =>
      obtain ⟨found, isArray, within, each, distinct⟩ := admitted
      refine ⟨found, isArray, within, fun item member => ?_, distinct⟩
      exact ih wellFormed.2 patterns.2 (texts.ofItems isArray item member) (each item member)
  | object blueprint shape ih =>
      rw [admits_object_iff shape] at admitted ⊢
      rcases admitted with isNull | ⟨members, rfl, required, each⟩
      · exact .inl isNull
      · refine .inr ⟨members, rfl, required, fun member found => ?_⟩
        have admits := (admitsMember_iff shape).mp (each member found)
        rw [admitsMember_iff shape]
        cases declared : blueprint.propertyAt member.1 with
        | none =>
            -- An undeclared member is forbidden only where the first reading forbids it too.
            rw [declared] at admits
            intro forbidden
            rw [Bool.and_eq_true] at forbidden
            refine admits ?_
            rw [lenient forbidden.1, forbidden.2]
            rfl
        | some inner =>
            rw [declared] at admits
            exact ih _ inner declared (wellFormed.propertyAt declared)
              (patterns.propertyAt declared) ((Value.every_object_iff.mp texts).2 member found)
              admits
  | nullable inner shape ih =>
      rcases admitted with admitted | isNull
      · exact .inl (ih wellFormed.2 patterns.2 texts admitted)
      · exact .inr isNull
  | stray base required properties shape =>
      have extended := wellFormed.whole.1
      rw [shape] at extended
      cases extended

theorem everyText_true : value.EveryText fun _ => True :=
  Value.every_of_forall fun _ _ _ => trivial

theorem draft7_of_engine (portable : blueprint.Portable)
    (admitted : blueprint.Admits (.engine true) value) : blueprint.Admits .draft7 value :=
  admitted.transfer (fun _ => rfl) (fun _ _ anchored _ found => anchored.foundIn_of_closed found)
    portable.wellFormed portable.patterns everyText_true

theorem engine_of_strict {strict : Bool} (portable : blueprint.Portable)
    (admitted : blueprint.Admits (.engine true) value) :
    blueprint.Admits (.engine strict) value := by
  have lenient : (Reading.engine strict).strict = true → (Reading.engine true).strict = true :=
    fun _ => rfl
  exact admitted.transfer lenient (fun _ _ _ _ found => found) portable.wellFormed
    portable.patterns everyText_true

/-- Without end anchors there is nothing that the engine and draft 7 read in two ways. -/
theorem draft7_iff_engine (wellFormed : blueprint.WellFormed)
    (unanchored : blueprint.Patterns Pattern.Unanchored) :
    blueprint.Admits .draft7 value ↔ blueprint.Admits (.engine true) value := by
  have patterns : blueprint.Patterns fun written =>
      Pattern.Unanchored written ∧ (Pattern.ofTextClosed? written.toList).isSome = true := by
    refine (Every.and wellFormed unanchored).imp fun part holds => ?_
    cases part with
    | text least most pattern format =>
        exact fun written given => ⟨holds.2 written given, holds.1 written given⟩
    | choice | flag | number | array | constant | object | nullable | extension => trivial
  have sameFinds : ∀ written text, Pattern.Unanchored written ∧
      (Pattern.ofTextClosed? written.toList).isSome = true →
        Reading.draft7.finds written text = (Reading.engine true).finds written text := by
    intro written text fine
    obtain ⟨meaning, compiles⟩ := Option.isSome_iff_exists.mp fine.2
    have compilesToo := compiles
    rw [fine.1.ofTextClosed?_eq] at compilesToo
    simp only [Reading.draft7, Reading.engine, compiles, compilesToo, Option.all_some,
      Option.any_some]
  constructor
  · intro admitted
    refine admitted.transfer (fun _ => rfl) ?_ wellFormed patterns everyText_true
    exact fun written text fine _ found => sameFinds written text fine ▸ found
  · intro admitted
    refine admitted.transfer (fun _ => rfl) ?_ wellFormed patterns everyText_true
    exact fun written text fine _ found => (sameFinds written text fine).symm ▸ found

/-- No text in a value ends in a line break. -/
def NoFinalBreak (value : Value) : Prop :=
  value.EveryText fun text => text.toList.getLast? ≠ some '\n'

theorem engine_of_draft7 (portable : blueprint.Portable) (noBreak : NoFinalBreak value)
    (admitted : blueprint.Admits .draft7 value) : blueprint.Admits (.engine true) value :=
  admitted.transfer (fun _ => rfl)
    (fun _ _ anchored noBreak found => anchored.foundIn_of_open noBreak found)
    portable.wellFormed portable.patterns noBreak

theorem draft7_validate_nil_iff {schema : Value} :
    Draft7.validate schema value = [] ↔ Draft7.schemaIssues schema value = [] := by
  rw [Draft7.validate, List.map_eq_nil_iff, List.eq_nil_iff_forall_not_mem,
    List.eq_nil_iff_forall_not_mem]
  simp only [List.mem_mergeSort]

theorem registered_eq (name : SchemaName) : registered (.text name.text) = .ok name.schema := by
  cases name <;> rfl

/-- What each of the two finds in a document, in terms of the meaning of a registered schema. -/
theorem validate_registered_iff (name : SchemaName) (strict : Bool) :
    validate strict name.schema value = .ok [] ↔
      (Blueprint.registered name).Admits (.engine strict) value := by
  rw [schema_eq_rules, validate_eq_nil_iff (registered_portable name).wellFormed]

theorem draft7_registered_iff (name : SchemaName) (plain : value.Plain) :
    Draft7.validate name.schema value = [] ↔ (Blueprint.registered name).Admits .draft7 value := by
  rw [draft7_validate_nil_iff, schema_eq_rules]
  exact schemaIssues_nil_iff (registered_portable name) plain

/-- On plain documents, what the engine admits under a registered schema draft 7 admits too, and
both admit the same documents as long as no text ends in a line break. -/
theorem registered_agree (name : SchemaName) (document : Value) (plain : document.Plain) :
    ∃ schema, registered (.text name.text) = .ok schema ∧
      (validate true schema document = .ok [] → Draft7.validate schema document = []) ∧
      (NoFinalBreak document →
        Draft7.validate schema document = [] → validate true schema document = .ok []) := by
  have portable := registered_portable name
  refine ⟨name.schema, registered_eq name, fun accepted => ?_, fun noBreak accepted => ?_⟩
  · rw [draft7_registered_iff name plain]
    exact draft7_of_engine portable ((validate_registered_iff name true).mp accepted)
  · rw [validate_registered_iff]
    exact engine_of_draft7 portable noBreak ((draft7_registered_iff name plain).mp accepted)

/-- A project with nothing to do. -/
def emptyProject : Value :=
  .object
    [("features", .array []), ("bugs", .array []), ("tasks", .array []),
     ("metadata", .object
       [("projectName", .text "garden"), ("version", .text "1.0.0-rc1"),
        ("lastUpdated", .text "2024-05-01T12:00:00Z")])]

theorem emptyProject_plain : emptyProject.Plain := by
  simp [Value.Plain, emptyProject, Value.PlainPart, Members.Distinct, Value.Every,
    Value.EveryItem, Value.EveryMember]

theorem emptyProject_agrees :
    emptyProject.Plain ∧ NoFinalBreak emptyProject ∧
      validate true projectData emptyProject = .ok [] ∧
      Draft7.validate projectData emptyProject = [] := by
  have noBreak : NoFinalBreak emptyProject := by
    simp [NoFinalBreak, Value.EveryText, emptyProject, Value.Every, Value.EveryItem,
      Value.EveryMember, Value.asText?]
  obtain ⟨schema, found, forward, backward⟩ :=
    registered_agree .projectData emptyProject emptyProject_plain
  have same : schema = projectData := by
    rw [registered_eq, Except.ok.injEq] at found
    exact found.symm
  subst same
  have accepted : validate true projectData emptyProject = .ok [] :=
    eq_ok_of_toOption (by decide +kernel)
  exact ⟨emptyProject_plain, noBreak, backward noBreak (forward accepted), forward accepted⟩

end WorkItems.Schema
