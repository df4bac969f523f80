import WorkItems.Proofs.Outcome
import WorkItems.Proofs.Schema.Meaning

namespace WorkItems.Schema

/-! The rules of a built schema.

`Blueprint.rules` gives the members of the schema that a well-formed blueprint builds, `build_eq`
says that they are, and the other lemmas say what is found in them under the names that a checker
asks for.  A checker that reads rules by name needs nothing else of the builders.
-/

/-- The members of a value that is known to be an object. -/
def membersIn (value : Value) : Members :=
  value.asMembers?.getD []

theorem lookup_rule (name : String) (value : Value) (key : String) :
    (rule name value).lookup key =
      if key = name ∧ value.isNull = false then some value else none := by
  cases absent : value.isNull with
  | true => simp [rule, absent]
  | false => simp [rule, absent, Members.lookup_cons]

theorem valueAt_cons (entry : String × Value) (rest : Members) (key : String) :
    Members.valueAt (entry :: rest) key =
      if key = entry.1 then entry.2 else Members.valueAt rest key := by
  rw [Members.valueAt, Members.lookup_cons]
  by_cases same : key = entry.1
  · rw [if_pos same, if_pos same, Option.getD_some]
  · rw [if_neg same, if_neg same, Members.valueAt]

theorem valueAt_nil (key : String) : Members.valueAt [] key = .null := rfl

theorem valueAt_rule_append (name : String) (value : Value) (rest : Members) (key : String) :
    Members.valueAt (rule name value ++ rest) key =
      if key = name ∧ value.isNull = false then value else Members.valueAt rest key := by
  cases absent : value.isNull with
  | true => simp [rule, absent]
  | false => simp [rule, absent, valueAt_cons]

theorem valueAt_rule (name : String) (value : Value) (key : String) :
    Members.valueAt (rule name value) key = if key = name then value else .null := by
  rw [Members.valueAt, lookup_rule]
  by_cases same : key = name
  · cases value <;> simp [same, Value.isNull]
  · simp [same]

/-- A value that is null where it is null. -/
theorem ite_isNull (value : Value) : (if value.isNull = false then value else .null) = value := by
  cases value <;> rfl

namespace Blueprint

mutual

def rules : Blueprint → Members
  | .text minLength maxLength pattern format =>
    membersIn (textSchema (limit minLength) (limit maxLength) (word pattern) (word format))
  | .choice options => membersIn (choiceSchema (options.map .text))
  | .flag => membersIn booleanSchema
  | .number minimum maximum integral =>
    membersIn (numberSchema (limit minimum) (limit maximum) integral)
  | .array items minItems maxItems unique =>
    membersIn (arraySchema (.object (rules items)) (limit minItems) (limit maxItems) unique)
  | .constant value => membersIn (constantSchema value)
  | .object properties required closed =>
    membersIn (objectSchema (propertyRules properties) (required.map .text) closed)
  | .nullable inner =>
    match inner.typeName? with
    | none => rules inner
    | some name => Members.put (rules inner) "type" (.array [.text name, .text "null"])
  | .extension base required properties =>
    Members.put
      (Members.put (rules base) "required"
        (.array ((requiredEntries (.extension base required properties)).map .text)))
      "properties"
      (.object (Members.merge (membersIn (Members.valueAt (rules base) "properties"))
        (propertyRules properties)))
termination_by structural blueprint => blueprint

def propertyRules : List (String × Blueprint) → Members
  | [] => []
  | (name, blueprint) :: rest => (name, .object (rules blueprint)) :: propertyRules rest
termination_by structural properties => properties

end

variable {blueprint base inner : Blueprint} {properties : List (String × Blueprint)}
variable {least most : Option Number} {pattern format : Option String} {integral unique : Bool}
variable {required : List String} {closed : Bool}

theorem rules_text : (Blueprint.text least most pattern format).rules =
    ("type", .text "string") :: (rule "minLength" (limit least) ++ rule "maxLength" (limit most) ++
      rule "pattern" (word pattern) ++ rule "format" (word format)) := rfl

theorem rules_flag : Blueprint.flag.rules = [("type", .text "boolean")] := rfl

theorem rules_number : (Blueprint.number least most integral).rules =
    ("type", .text (if integral then "integer" else "number")) ::
      (rule "minimum" (limit least) ++ rule "maximum" (limit most)) := rfl

theorem rules_array : (Blueprint.array inner least most unique).rules =
    ("type", .text "array") :: ("items", .object inner.rules) :: (rule "minItems" (limit least) ++
      rule "maxItems" (limit most) ++ if unique then [("uniqueItems", .bool true)] else []) := rfl

theorem rules_object : (Blueprint.object properties required closed).rules =
    ("type", .text "object") ::
      ((if (required.map Value.text).isEmpty then [] else
          [("required", .array (required.map .text))]) ++
        [("properties", .object (propertyRules properties))] ++
        if closed then [("additionalProperties", .bool false)] else []) := rfl

theorem rules_nullable : (Blueprint.nullable inner).rules =
    match inner.typeName? with
    | none => inner.rules
    | some name => Members.put inner.rules "type" (.array [.text name, .text "null"]) := rfl

theorem rules_nullable_of_none (undeclared : inner.typeName? = none) :
    (Blueprint.nullable inner).rules = inner.rules := by
  rw [rules_nullable, undeclared]

theorem rules_nullable_of_some {name : String} (declared : inner.typeName? = some name) :
    (Blueprint.nullable inner).rules =
      Members.put inner.rules "type" (.array [.text name, .text "null"]) := by
  rw [rules_nullable, declared]

theorem rules_extension : (Blueprint.extension base required properties).rules =
    Members.put
      (Members.put base.rules "required"
        (.array ((requiredEntries (.extension base required properties)).map .text)))
      "properties"
      (.object (Members.merge (membersIn (Members.valueAt base.rules "properties"))
        (propertyRules properties))) := rfl

theorem propertyRules_eq_map :
    propertyRules properties =
      properties.map fun property => (property.1, .object property.2.rules) := by
  induction properties with
  | nil => rfl
  | cons property rest ih => rw [propertyRules, ih, List.map_cons]

theorem lookup_propertyRules (key : String) :
    (propertyRules properties).lookup key =
      (properties.lookup key).map fun inner => .object inner.rules := by
  rw [propertyRules_eq_map]
  exact Members.lookup_map_value properties (fun inner => Value.object inner.rules) key

theorem propertyRules_distinct (distinct : Members.Distinct properties) :
    Members.Distinct (propertyRules properties) := by
  rw [propertyRules_eq_map, Members.Distinct, List.map_map]
  exact distinct

theorem forall_mem_limit {name : String} {given : Option Number} {holds : String × Value → Prop} :
    (∀ entry ∈ rule name (limit given), holds entry) ↔
      ∀ number ∈ given, holds (name, .number number) := by
  cases given with
  | none =>
      exact iff_of_true (fun entry member => nomatch member) (fun number given => nomatch given)
  | some number => simp [limit, rule, Value.isNull]

theorem forall_mem_word {name : String} {given : Option String} {holds : String × Value → Prop} :
    (∀ entry ∈ rule name (word given), holds entry) ↔
      ∀ text ∈ given, holds (name, .text text) := by
  cases given with
  | none => exact iff_of_true (fun entry member => nomatch member) (fun text given => nomatch given)
  | some text => simp [word, rule, Value.isNull]

theorem typeName_ne_null {name : String} (declared : blueprint.typeName? = some name) :
    name ≠ "null" := by
  induction blueprint using Blueprint.byParts with
  | number minimum maximum integral =>
      cases integral <;> simp only [typeName?, Option.some.injEq] at declared <;> simp [← declared]
  | nullable wrapped ih => exact ih declared
  | extension extended _ _ ih _ => exact ih declared
  | constant => cases declared
  | text | choice | flag | array | object =>
      simp only [typeName?, Option.some.injEq] at declared
      simp [← declared]

theorem typeName_of_isObject (shape : blueprint.isObject = true) :
    blueprint.typeName? = some "object" := by
  induction blueprint using Blueprint.byParts with
  | object => rfl
  | nullable wrapped ih => exact ih shape
  | extension extended _ _ ih _ => exact ih shape
  | text | choice | flag | number | array | constant => cases shape

theorem isObject_of_typeName (declared : blueprint.typeName? = some "object") :
    blueprint.isObject = true := by
  induction blueprint using Blueprint.byParts with
  | number minimum maximum integral => cases integral <;> simp [typeName?] at declared
  | object => rfl
  | nullable wrapped ih => exact ih declared
  | extension extended _ _ ih _ => exact ih declared
  | text | choice | flag | array | constant => simp [typeName?] at declared

theorem allowsNull_of_typeName_none (undeclared : blueprint.typeName? = none) :
    blueprint.allowsNull = false := by
  induction blueprint using Blueprint.byParts with
  | nullable wrapped _ =>
      simp only [typeName?] at undeclared
      rw [allowsNull, undeclared, Option.isSome_none]
  | extension extended _ _ ih _ => exact ih undeclared
  | text | choice | flag | number | array | constant | object => rfl

/-- What stands under `type`: the name of a type, or a list of it and null. -/
def typeEntry (blueprint : Blueprint) : Option Value :=
  blueprint.typeName?.map fun name =>
    if blueprint.allowsNull then .array [.text name, .text "null"] else .text name

theorem lookup_type : blueprint.rules.lookup "type" = blueprint.typeEntry := by
  induction blueprint using Blueprint.byParts with
  | nullable wrapped ih =>
      cases declared : wrapped.typeName? with
      | none =>
          rw [rules_nullable_of_none declared, ih]
          simp only [typeEntry, typeName?, declared, Option.map_none]
      | some name =>
          simp only [rules_nullable_of_some declared, Members.lookup_put, ↓reduceIte, typeEntry,
            typeName?, allowsNull, declared, Option.map_some, Option.isSome_some]
  | extension extended required properties ih _ =>
      rw [rules_extension, Members.lookup_put, if_neg (by decide), Members.lookup_put,
        if_neg (by decide), ih]
      rfl
  | constant => rfl
  | object properties required closed _ => rfl
  | number minimum maximum integral => rfl
  | text | choice | flag | array => rfl

theorem expectedType_rules : expectedType blueprint.rules =
    (blueprint.typeName?.map Value.text).getD .null := by
  rw [expectedType, Members.valueAt, lookup_type, typeEntry]
  cases declared : blueprint.typeName? with
  | none => rfl
  | some name =>
      have notNull : (Value.text name).isText "null" = false := by
        simpa [Value.isText, Value.asText?] using typeName_ne_null declared
      cases blueprint.allowsNull <;> simp [Value.asItems?, List.find?, notNull]

theorem acceptsNull_rules : acceptsNull blueprint.rules = blueprint.allowsNull := by
  rw [acceptsNull, Members.valueAt, lookup_type, typeEntry]
  cases declared : blueprint.typeName? with
  | none =>
      rw [allowsNull_of_typeName_none declared]
      rfl
  | some name =>
      have notNull := typeName_ne_null declared
      cases blueprint.allowsNull <;> simp [Value.asItems?, Value.isText, Value.asText?, notNull]

section

variable (least most pattern format integral unique)

theorem valueAt_text :
    (Blueprint.text least most pattern format).rules.valueAt "minLength" = limit least ∧
    (Blueprint.text least most pattern format).rules.valueAt "maxLength" = limit most ∧
    (Blueprint.text least most pattern format).rules.valueAt "pattern" = word pattern := by
  refine ⟨?_, ?_, ?_⟩ <;>
    simp [rules_text, valueAt_cons, valueAt_rule_append, valueAt_rule, ite_isNull]

theorem valueAt_number :
    (Blueprint.number least most integral).rules.valueAt "minimum" = limit least ∧
    (Blueprint.number least most integral).rules.valueAt "maximum" = limit most := by
  refine ⟨?_, ?_⟩ <;>
    simp [rules_number, valueAt_cons, valueAt_rule_append, valueAt_rule, ite_isNull]

theorem valueAt_array (inner : Blueprint) :
    (Blueprint.array inner least most unique).rules.valueAt "items" = .object inner.rules ∧
    (Blueprint.array inner least most unique).rules.valueAt "minItems" = limit least ∧
    (Blueprint.array inner least most unique).rules.valueAt "maxItems" = limit most ∧
    (Blueprint.array inner least most unique).rules.valueAt "uniqueItems" =
      if unique then .bool true else .null := by
  refine ⟨?_, ?_, ?_, ?_⟩ <;> cases unique <;>
    simp [rules_array, valueAt_cons, valueAt_rule_append, valueAt_rule, valueAt_nil, ite_isNull]

end

/-- Making an object schema nullable or extending it leaves all other rules as they are. -/
theorem lookup_rules_nullable {key : String} (shape : (Blueprint.nullable inner).isObject = true)
    (other : key ≠ "type") :
    (Blueprint.nullable inner).rules.lookup key = inner.rules.lookup key := by
  have declared : inner.typeName? = some "object" := typeName_of_isObject shape
  rw [rules_nullable_of_some declared, Members.lookup_put, if_neg other]

theorem lookup_rules_extension {key : String} (notRequired : key ≠ "required")
    (notProperties : key ≠ "properties") :
    (Blueprint.extension base required properties).rules.lookup key = base.rules.lookup key := by
  rw [rules_extension, Members.lookup_put, if_neg notProperties, Members.lookup_put,
    if_neg notRequired]

theorem lookup_rules_object (key : String) :
    (Blueprint.object properties required closed).rules.lookup key =
      if key = "type" then some (.text "object")
      else if key = "required" ∧ required ≠ [] then some (.array (required.map .text))
      else if key = "properties" then some (.object (propertyRules properties))
      else if key = "additionalProperties" ∧ closed = true then some (.bool false)
      else none := by
  cases required <;> cases closed <;>
    simp [rules_object, Members.lookup_cons]

/-- Whether a blueprint is made of a choice or a constant, which say outright what a value is. -/
def lists : Blueprint → Bool
  | .choice _ | .constant _ => true
  | .nullable inner => inner.lists
  | .extension base _ _ => base.lists
  | _ => false

theorem lists_of_isObject (shape : blueprint.isObject = true) : blueprint.lists = false := by
  induction blueprint using Blueprint.byParts with
  | object => rfl
  | nullable wrapped ih => exact ih shape
  | extension extended _ _ ih _ => exact ih shape
  | text | choice | flag | number | array | constant => cases shape

theorem lookup_listed {key : String} (other : blueprint.lists = false)
    (listed : key = "enum" ∨ key = "const") : blueprint.rules.lookup key = none := by
  have notType : key ≠ "type" := by rcases listed with rfl | rfl <;> decide
  induction blueprint using Blueprint.byParts with
  | text =>
      rcases listed with rfl | rfl <;>
        simp [rules_text, Members.lookup_cons, List.lookup_append, lookup_rule]
  | flag => simp [rules_flag, Members.lookup_cons, notType]
  | number =>
      rcases listed with rfl | rfl <;>
        simp [rules_number, Members.lookup_cons, List.lookup_append, lookup_rule]
  | array items minItems maxItems unique =>
      rcases listed with rfl | rfl <;> cases unique <;>
        simp [rules_array, Members.lookup_cons, List.lookup_append, lookup_rule]
  | object => rcases listed with rfl | rfl <;> simp [lookup_rules_object]
  | nullable wrapped ih =>
      cases declared : wrapped.typeName? with
      | none =>
          rw [rules_nullable_of_none declared]
          exact ih other
      | some name =>
          rw [rules_nullable_of_some declared, Members.lookup_put, if_neg notType]
          exact ih other
  | extension extended required properties ih _ =>
      have notRequired : key ≠ "required" := by rcases listed with rfl | rfl <;> decide
      have notProperties : key ≠ "properties" := by rcases listed with rfl | rfl <;> decide
      rw [lookup_rules_extension notRequired notProperties]
      exact ih other
  | choice | constant => cases other

theorem lookup_enum (chosen : blueprint.lists = true) (typed : blueprint.typeName?.isSome = true) :
    ∃ options : List String, blueprint.rules.lookup "enum" = some (.array (options.map .text)) := by
  induction blueprint using Blueprint.byParts with
  | choice options => exact ⟨options, rfl⟩
  | constant => cases typed
  | nullable wrapped ih =>
      cases declared : wrapped.typeName? with
      | none =>
          rw [typeName?, declared] at typed
          cases typed
      | some name =>
          rw [rules_nullable_of_some declared, Members.lookup_put, if_neg (by decide)]
          exact ih chosen typed
  | extension extended required properties ih _ =>
      rw [lookup_rules_extension (by decide) (by decide)]
      exact ih chosen typed
  | text | flag | number | array | object => cases chosen

theorem lookup_required (shape : blueprint.isObject = true) :
    (blueprint.rules.lookup "required").getD (.array []) =
      .array (blueprint.requiredEntries.map .text) := by
  induction blueprint using Blueprint.byParts with
  | object properties required closed _ =>
      rw [lookup_rules_object]
      cases required <;> simp [requiredEntries]
  | nullable wrapped ih =>
      rw [lookup_rules_nullable shape (by decide)]
      exact ih shape
  | extension extended required properties _ _ =>
      rw [rules_extension, Members.lookup_put, if_neg (by decide), Members.lookup_put, if_pos rfl]
      rfl
  | text | choice | flag | number | array | constant => cases shape

/-- The schemas of the properties, by their names. -/
def declaredRules (blueprint : Blueprint) : Members :=
  membersIn (blueprint.rules.valueAt "properties")

theorem lookup_properties (shape : blueprint.isObject = true) :
    blueprint.rules.lookup "properties" = some (.object blueprint.declaredRules) := by
  suffices isObject : ∃ members : Members,
      blueprint.rules.lookup "properties" = some (.object members) by
    obtain ⟨members, found⟩ := isObject
    rw [declaredRules, Members.valueAt, found]
    rfl
  induction blueprint using Blueprint.byParts with
  | object properties required closed _ => exact ⟨_, by rw [lookup_rules_object]; rfl⟩
  | nullable wrapped ih =>
      rw [lookup_rules_nullable shape (by decide)]
      exact ih shape
  | extension extended required properties _ _ =>
      exact ⟨_, by rw [rules_extension, Members.lookup_put, if_pos rfl]⟩
  | text | choice | flag | number | array | constant => cases shape

theorem declaredRules_object :
    (Blueprint.object properties required closed).declaredRules = propertyRules properties := by
  rw [declaredRules, Members.valueAt, lookup_rules_object]
  rfl

theorem declaredRules_nullable (shape : (Blueprint.nullable inner).isObject = true) :
    (Blueprint.nullable inner).declaredRules = inner.declaredRules := by
  rw [declaredRules, Members.valueAt, lookup_rules_nullable shape (by decide)]
  rfl

theorem declaredRules_extension :
    (Blueprint.extension base required properties).declaredRules =
      base.declaredRules.merge (propertyRules properties) := by
  rw [declaredRules, Members.valueAt, rules_extension, Members.lookup_put, if_pos rfl]
  rfl

theorem lookup_declaredRules (wellFormed : blueprint.WellFormed)
    (shape : blueprint.isObject = true) (key : String) :
    blueprint.declaredRules.lookup key =
      (blueprint.propertyAt key).map fun inner => .object inner.rules := by
  induction blueprint using Blueprint.byParts with
  | object properties required closed _ =>
      rw [declaredRules_object]
      exact lookup_propertyRules key
  | nullable wrapped ih =>
      rw [declaredRules_nullable shape]
      exact ih wellFormed.2 shape
  | extension extended required properties ih _ =>
      have distinct := propertyRules_distinct wellFormed.whole.2
      rw [declaredRules_extension, Members.lookup_merge distinct, lookup_propertyRules,
        ih wellFormed.2.1 shape, propertyAt]
      cases properties.lookup key <;> rfl
  | text | choice | flag | number | array | constant => cases shape

theorem declaredRules_distinct (wellFormed : blueprint.WellFormed)
    (shape : blueprint.isObject = true) : Members.Distinct blueprint.declaredRules := by
  induction blueprint using Blueprint.byParts with
  | object properties required closed _ =>
      rw [declaredRules_object]
      exact propertyRules_distinct wellFormed.whole
  | nullable wrapped ih =>
      rw [declaredRules_nullable shape]
      exact ih wellFormed.2 shape
  | extension extended required properties ih _ =>
      rw [declaredRules_extension]
      exact Members.merge_distinct (ih wellFormed.2.1 shape)
  | text | choice | flag | number | array | constant => cases shape

theorem lookup_additional (shape : blueprint.isObject = true) :
    blueprint.rules.lookup "additionalProperties" =
      if blueprint.isClosed then some (.bool false) else none := by
  induction blueprint using Blueprint.byParts with
  | object properties required closed _ =>
      cases closed <;> rw [lookup_rules_object] <;> rfl
  | nullable wrapped ih =>
      rw [lookup_rules_nullable shape (by decide)]
      exact ih shape
  | extension extended required properties ih _ =>
      rw [lookup_rules_extension (by decide) (by decide)]
      exact ih shape
  | text | choice | flag | number | array | constant => cases shape

/-- An object schema has no rules but the four on objects. -/
theorem lookup_other (shape : blueprint.isObject = true) {key : String}
    (other : key ∉ ["type", "required", "properties", "additionalProperties"]) :
    blueprint.rules.lookup key = none := by
  simp only [List.mem_cons, List.not_mem_nil, or_false, not_or] at other
  obtain ⟨notType, notRequired, notProperties, notAdditional⟩ := other
  induction blueprint using Blueprint.byParts with
  | object properties required closed _ =>
      simp [lookup_rules_object, notType, notRequired, notProperties, notAdditional]
  | nullable wrapped ih =>
      rw [lookup_rules_nullable shape notType]
      exact ih shape
  | extension extended required properties ih _ =>
      rw [lookup_rules_extension notRequired notProperties]
      exact ih shape
  | text | choice | flag | number | array | constant => cases shape

theorem rules_distinct : Members.Distinct blueprint.rules := by
  induction blueprint using Blueprint.byParts with
  | text least most pattern format =>
      cases least <;> cases most <;> cases pattern <;> cases format <;>
        simp [rules_text, Members.Distinct, rule, limit, word, Value.isNull]
  | choice => simp [rules, membersIn, choiceSchema, Value.asMembers?, Members.Distinct]
  | flag => simp [rules_flag, Members.Distinct]
  | number least most =>
      cases least <;> cases most <;>
        simp [rules_number, Members.Distinct, rule, limit, Value.isNull]
  | array items least most unique =>
      cases least <;> cases most <;> cases unique <;>
        simp [rules_array, Members.Distinct, rule, limit, Value.isNull]
  | constant => simp [rules, membersIn, constantSchema, Value.asMembers?, Members.Distinct]
  | object properties required closed =>
      cases required <;> cases closed <;> simp [rules_object, Members.Distinct]
  | nullable wrapped ih =>
      cases declared : wrapped.typeName? with
      | none =>
          rw [rules_nullable_of_none declared]
          exact ih
      | some name =>
          rw [rules_nullable_of_some declared]
          exact Members.put_distinct ih
  | extension extended required properties ih _ =>
      rw [rules_extension]
      exact Members.put_distinct (Members.put_distinct ih)

theorem buildProperties_eq
    (each : ∀ property ∈ properties, property.2.build = .ok (.object property.2.rules)) :
    buildProperties properties = .ok (propertyRules properties) := by
  induction properties with
  | nil => rfl
  | cons property rest ih =>
      have first := each property List.mem_cons_self
      have others := ih fun later member => each later (List.mem_cons_of_mem _ member)
      rw [buildProperties, propertyRules, first, others]
      rfl

theorem nullable_eq :
    Schema.nullable (.object inner.rules) = .ok (.object (Blueprint.nullable inner).rules) := by
  have entry : inner.rules.valueAt "type" = inner.typeEntry.getD .null := by
    rw [Members.valueAt, lookup_type]
  cases declared : inner.typeName? with
  | none =>
      rw [typeEntry, declared] at entry
      rw [rules_nullable_of_none declared]
      simp only [Schema.nullable, membersOf, ok_bind, entry]
      rfl
  | some name =>
      have notNull := typeName_ne_null declared
      rw [typeEntry, declared] at entry
      cases allowed : inner.allowsNull <;>
        simp [Schema.nullable, membersOf, ok_bind, pure_eq_ok, entry,
          rules_nullable_of_some declared, allowed, Value.asItems?, Value.isText, Value.asText?,
          notNull]

theorem isInherited_text (names : List String) (name : String) :
    isInherited (.array (names.map .text)) (.text name) = .ok (names.contains name) := by
  have among : isAmong (names.map .text) (.text name) = names.contains name := by
    rw [isAmong, List.any_map, List.contains_eq_any_beq]
    refine List.any_congr rfl fun other => ?_
    exact Bool.beq_comm
  rw [← among]
  rfl

/-- The names among the given ones that a base does not require. -/
theorem filterM_notInherited (names given : List String) :
    (given.map Value.text).filterM (fun name => do
      let known ← isInherited (.array (names.map .text)) name
      pure !known) =
      .ok ((given.filter fun name => !names.contains name).map .text) := by
  have agrees : ∀ name ∈ given.map Value.text, (do
      let known ← isInherited (.array (names.map .text)) name
      pure !known) = Except.ok (!names.contains (name.asText?.getD "")) := by
    intro name member
    obtain ⟨text, _, rfl⟩ := List.mem_map.mp member
    rw [isInherited_text]
    rfl
  rw [filterM_eq_filter agrees, List.filter_map]
  rfl

theorem extend_eq (shape : base.isObject = true) :
    Schema.extend (.object base.rules) (.array (required.map .text))
      (.object (propertyRules properties)) =
      .ok (.object (Blueprint.extension base required properties).rules) := by
  have added := filterM_notInherited base.requiredEntries required
  rw [rules_extension, requiredEntries, List.map_append, ← declaredRules]
  simp only [Schema.extend, membersOf, ok_bind, lookup_required shape, lookup_properties shape,
    Option.getD_some, elements, mappingOf, added]
  cases properties <;> rfl

/-- A well-formed blueprint builds the schema of its rules. -/
theorem build_eq (wellFormed : blueprint.WellFormed) :
    blueprint.build = .ok (.object blueprint.rules) := by
  induction blueprint using Blueprint.byParts with
  | text | choice | flag | number | constant => rfl
  | array items minItems maxItems unique ih =>
      rw [build, ih wellFormed.2]
      rfl
  | object properties required closed ih =>
      have each := everyProperty_iff.mp wellFormed.2
      rw [build,
        buildProperties_eq fun property member => ih property member (each property member)]
      rfl
  | nullable wrapped ih =>
      rw [build, ih wellFormed.2]
      exact nullable_eq
  | extension extended required properties ih propertiesHold =>
      have each := everyProperty_iff.mp wellFormed.2.2
      rw [build, ih wellFormed.2.1, buildProperties_eq fun property member =>
        propertiesHold property member (each property member)]
      exact extend_eq wellFormed.whole.1

end Blueprint

end WorkItems.Schema
