import WorkItems.Proofs.Schema.Draft7Rules
import WorkItems.Proofs.Schema.IdleNull
import WorkItems.Proofs.Schema.Registered

namespace WorkItems.Schema

/-! Draft 7 decides the meaning of portable schemas.

On plain values, the rules of a portable schema say under draft 7 what the schema means, with
undeclared members refused and a dollar sign that also matches before a line break at the end.
-/

/-- The reading of draft 7. -/
def Reading.draft7 : Reading where
  strict := true
  finds written text :=
    (Pattern.ofText? written.toList).all fun pattern => pattern.foundIn text

open Blueprint Draft7

variable {all : Members} {value : Value} {least most : Option Number}
variable {pattern format : Option String} {options : List String} {integral unique : Bool}
variable {inner blueprint : Blueprint}

/-- Whether none of some rules has an issue with a value. -/
def Silent (all rules : Members) (value : Value) : Prop :=
  ∀ entry ∈ rules, entryIssues all entry.1 entry.2 value = []

theorem silent_text (plain : value.Plain) :
    Silent all (Blueprint.text least most pattern format).rules value ↔
      (Blueprint.text least most pattern format).Admits .draft7 value := by
  simp only [Silent, rules_text, List.forall_mem_cons, List.forall_mem_append, forall_mem_limit,
    forall_mem_word, entry_type_text plain, entry_minLength, entry_maxLength, entry_pattern,
    entry_format, hasType_string]
  constructor
  · intro silent
    rcases silent with ⟨⟨text, isText⟩, ⟨⟨short, long⟩, matched⟩, -⟩
    exact ⟨text, isText, ⟨fun limit given => short limit given text isText,
      fun limit given => long limit given text isText⟩,
      fun written given => matched written given text isText⟩
  · intro admitted
    rcases admitted with ⟨text, isText, ⟨short, long⟩, matched⟩
    have only : ∀ other, value.asText? = some other → other = text := fun other isOther => by
      rw [isText, Option.some.injEq] at isOther
      exact isOther.symm
    refine ⟨⟨text, isText⟩, ⟨⟨?_, ?_⟩, ?_⟩, fun _ _ => trivial⟩
    · intro limit given other isOther
      rw [only other isOther]
      exact short limit given
    · intro limit given other isOther
      rw [only other isOther]
      exact long limit given
    · intro written given other isOther
      rw [only other isOther]
      exact matched written given

theorem silent_choice (plain : value.Plain) :
    Silent all (Blueprint.choice options).rules value ↔
      (Blueprint.choice options).Admits .draft7 value := by
  have rules : (Blueprint.choice options).rules =
    [("type", .text "string"), ("enum", .array (options.map .text))] := rfl
  simp only [Silent, rules, List.forall_mem_cons, entry_type_text plain, entry_enum plain,
    hasType_string]
  constructor
  · intro silent
    rcases silent with ⟨-, listed, -⟩
    exact listed
  · intro admitted
    rcases admitted with ⟨option, member, isText⟩
    exact ⟨⟨option, isText⟩, ⟨option, member, isText⟩, fun _ member => nomatch member⟩

theorem silent_flag (plain : value.Plain) :
    Silent all Blueprint.flag.rules value ↔ Blueprint.flag.Admits .draft7 value := by
  simp only [Silent, rules_flag, List.forall_mem_cons, entry_type_text plain, hasType_boolean,
    List.not_mem_nil, false_implies, implies_true, and_true, Admits]

theorem silent_number (plain : value.Plain) :
    Silent all (Blueprint.number least most integral).rules value ↔
      (Blueprint.number least most integral).Admits .draft7 value := by
  have isNumber : Schema.hasType value (.text (if integral then "integer" else "number")) = true ↔
      ∃ number, value = .number number ∧ (integral = true → number.isIntegral = true) := by
    cases integral with
    | true => simpa using hasType_integer
    | false => simpa using hasType_number
  simp only [Silent, rules_number, List.forall_mem_cons, List.forall_mem_append, forall_mem_limit,
    entry_type_text plain, entry_minimum, entry_maximum, isNumber]
  constructor
  · intro silent
    rcases silent with ⟨⟨number, rfl, whole⟩, small, large⟩
    exact ⟨number, rfl, ⟨fun limit given => small limit given number rfl,
      fun limit given => large limit given number rfl⟩, whole⟩
  · intro admitted
    rcases admitted with ⟨number, rfl, ⟨small, large⟩, whole⟩
    refine ⟨⟨number, rfl, whole⟩, ?_, ?_⟩
    · rintro limit given _ ⟨⟩
      exact small limit given
    · rintro limit given _ ⟨⟩
      exact large limit given

theorem silent_array {holds : Value → Prop} (plain : value.Plain)
    (each : ∀ item, item.Plain → (schemaIssues (.object inner.rules) item = [] ↔ holds item)) :
    Silent all (Blueprint.array inner least most unique).rules value ↔
      ∃ items, value = .array items ∧ Within least most (.int items.length) ∧
        (∀ item ∈ items, holds item) ∧
        (unique = true → items.Pairwise fun first second => first.same second = false) := by
  have uniqueRule : (∀ entry ∈ (if unique then [("uniqueItems", .bool true)] else [] : Members),
      entryIssues all entry.1 entry.2 value = []) ↔
      (unique = true → ∀ items, value = .array items → Draft7.allDistinct items = true) := by
    cases unique with
    | false => simp
    | true => simp [entry_uniqueItems]
  simp only [Silent, rules_array, List.forall_mem_cons, List.forall_mem_append, forall_mem_limit,
    uniqueRule, entry_type_text plain, entry_items, entry_minItems, entry_maxItems, hasType_array,
    plain.asItems_iff]
  constructor
  · intro silent
    rcases silent with ⟨⟨items, rfl⟩, itemsSilent, ⟨few, many⟩, distinct⟩
    refine ⟨items, rfl, ⟨fun limit given => few limit given items rfl,
      fun limit given => many limit given items rfl⟩, ?_, fun wanted => ?_⟩
    · intro item member
      exact (each item (plain.ofArray item member)).mp (itemsSilent items rfl item member)
    · rw [← allDistinct_iff, ← allDistinct_eq plain.ofArray]
      exact distinct wanted items rfl
  · intro allowed
    rcases allowed with ⟨items, rfl, ⟨few, many⟩, admitted, distinct⟩
    refine ⟨⟨items, rfl⟩, ?_, ⟨?_, ?_⟩, ?_⟩
    · rintro _ ⟨⟩ item member
      exact (each item (plain.ofArray item member)).mpr (admitted item member)
    · rintro limit given _ ⟨⟩
      exact few limit given
    · rintro limit given _ ⟨⟩
      exact many limit given
    · rintro wanted _ ⟨⟩
      rw [allDistinct_eq plain.ofArray, allDistinct_iff]
      exact distinct wanted

theorem silent_constant {wanted : Value} (plain : value.Plain) :
    Silent all (Blueprint.constant wanted).rules value ↔
      (Blueprint.constant wanted).Admits .draft7 value := by
  have rules : (Blueprint.constant wanted).rules = [("const", wanted)] := rfl
  simp only [Silent, rules, List.forall_mem_cons, entry_const plain, List.not_mem_nil,
    false_implies, implies_true, and_true, Admits]

/-- Rules under distinct names, one by one. -/
theorem silent_iff_lookup {rules : Members} (distinct : Members.Distinct rules) :
    Silent all rules value ↔
      ∀ name rule, rules.lookup name = some rule → entryIssues all name rule value = [] := by
  constructor
  · intro silent name rule found
    exact silent (name, rule) (Members.mem_of_lookup found)
  · intro each entry member
    exact each entry.1 entry.2 (Members.lookup_of_mem distinct member)

theorem silent_type (plain : value.Plain) {name : String}
    (declared : blueprint.typeName? = some name) :
    (∀ rule, blueprint.rules.lookup "type" = some rule →
      entryIssues all "type" rule value = []) ↔
      Schema.hasType value (.text name) = true ∨
        (value = .null ∧ blueprint.allowsNull = true) := by
  rw [lookup_type, typeEntry, declared, Option.map_some]
  cases blueprint.allowsNull <;> simp [entry_type_text plain, entry_type_orNull plain]

theorem silent_required (shape : blueprint.isObject = true) :
    (∀ rule, blueprint.rules.lookup "required" = some rule →
      entryIssues all "required" rule value = []) ↔
      ∀ members, value = .object members →
        ∀ name ∈ blueprint.requiredNames, Members.hasKey members name = true := by
  have entries := lookup_required shape
  simp only [← mem_requiredEntries]
  cases found : blueprint.rules.lookup "required" with
  | none =>
      rw [found, Option.getD_none, Value.array.injEq] at entries
      have noNames : blueprint.requiredEntries = [] := List.map_eq_nil_iff.mp entries.symm
      simp [noNames]
  | some entry =>
      rw [found, Option.getD_some] at entries
      subst entries
      simp only [Option.some.injEq, forall_eq', entry_required]

theorem silent_properties (wellFormed : blueprint.WellFormed)
    (shape : blueprint.isObject = true) :
    (∀ rule, blueprint.rules.lookup "properties" = some rule →
      entryIssues all "properties" rule value = []) ↔
      ∀ members, value = .object members → ∀ key inner, blueprint.propertyAt key = some inner →
        ∀ value, members.lookup key = some value →
          schemaIssues (.object inner.rules) value = [] := by
  have declared := lookup_declaredRules wellFormed shape
  simp only [lookup_properties shape, Option.some.injEq, forall_eq', entry_properties]
  constructor
  · intro silent members isObject key inner found
    have entry : blueprint.declaredRules.lookup key = some (.object inner.rules) := by
      rw [declared, found, Option.map_some]
    exact silent members isObject _ (Members.mem_of_lookup entry)
  · rintro silent members isObject ⟨key, schema⟩ member
    have entry := Members.lookup_of_mem (declaredRules_distinct wellFormed shape) member
    rw [declared, Option.map_eq_some_iff] at entry
    obtain ⟨inner, found, rfl⟩ := entry
    exact silent members isObject key inner found

theorem silent_additional (wellFormed : blueprint.WellFormed)
    (shape : blueprint.isObject = true) :
    (∀ rule, blueprint.rules.lookup "additionalProperties" = some rule →
      entryIssues blueprint.rules "additionalProperties" rule value = []) ↔
      (blueprint.isClosed = true → ∀ members, value = .object members →
        ∀ member ∈ members, (blueprint.propertyAt member.1).isSome = true) := by
  have declares : ∀ key, Members.hasKey blueprint.declaredRules key =
      (blueprint.propertyAt key).isSome := fun key => by
    rw [Members.hasKey, lookup_declaredRules wellFormed shape, Option.isSome_map]
  rw [lookup_additional shape]
  cases blueprint.isClosed with
  | false => simp
  | true => simp [entry_additional (lookup_properties shape), declares]

/-- The rules of an object schema are the four on objects. -/
theorem silent_of_isObject (shape : blueprint.isObject = true) :
    Silent all blueprint.rules value ↔
      ∀ name ∈ ["type", "required", "properties", "additionalProperties"],
        ∀ rule, blueprint.rules.lookup name = some rule → entryIssues all name rule value = [] := by
  rw [silent_iff_lookup rules_distinct]
  constructor
  · intro silent name _
    exact silent name
  · intro silent name rule found
    by_cases known : name ∈ ["type", "required", "properties", "additionalProperties"]
    · exact silent name known rule found
    · rw [lookup_other shape known] at found
      cases found

theorem silent_object {holds : Blueprint → Value → Prop} (plain : value.Plain)
    (wellFormed : blueprint.WellFormed) (shape : blueprint.isObject = true)
    (each : ∀ key inner, blueprint.propertyAt key = some inner → ∀ value, value.Plain →
      (schemaIssues (.object inner.rules) value = [] ↔ holds inner value)) :
    Silent blueprint.rules blueprint.rules value ↔
      (value = .null ∧ blueprint.allowsNull = true) ∨
      ∃ members : Members, value = .object members ∧
        (∀ name ∈ blueprint.requiredNames, members.hasKey name = true) ∧
        ∀ member ∈ members, (blueprint.propertyAt member.1).elim (¬ blueprint.isClosed = true)
          fun inner => holds inner member.2 := by
  rw [silent_of_isObject shape]
  simp only [List.forall_mem_cons, List.not_mem_nil, false_implies, implies_true, and_true,
    silent_type plain (typeName_of_isObject shape), hasType_object, silent_required shape,
    silent_properties wellFormed shape, silent_additional wellFormed shape]
  constructor
  · intro silent
    rcases silent with ⟨⟨members, rfl⟩ | isNull, required, properties, additional⟩
    · refine .inr ⟨members, rfl, required members rfl, fun member found => ?_⟩
      have atKey := Members.lookup_of_mem plain.whole found
      cases declared : blueprint.propertyAt member.1 with
      | none =>
          intro closed
          have known := additional closed members rfl member found
          rw [declared] at known
          cases known
      | some inner =>
          exact (each _ inner declared _ (plain.ofObject member found)).mp
            (properties members rfl _ inner declared _ atKey)
    · exact .inl isNull
  · intro allows
    rcases allows with ⟨rfl, allowed⟩ | ⟨members, rfl, required, admitted⟩
    · exact ⟨.inr ⟨rfl, allowed⟩, fun _ isObject => (nomatch isObject),
        fun _ isObject => (nomatch isObject), fun _ _ isObject => (nomatch isObject)⟩
    · refine ⟨.inl ⟨members, rfl⟩, ?_, ?_, ?_⟩
      · rintro _ ⟨⟩
        exact required
      · rintro _ ⟨⟩ key inner declared value atKey
        have member := Members.mem_of_lookup atKey
        have admits := admitted _ member
        rw [declared] at admits
        exact (each key inner declared value (plain.ofObject _ member)).mpr admits
      · rintro closed _ ⟨⟩ member found
        have admits := admitted member found
        cases declared : blueprint.propertyAt member.1 with
        | none =>
            rw [declared] at admits
            exact absurd closed admits
        | some inner => rfl

theorem silent_iff_type : Silent all blueprint.rules value ↔
    (∀ rule, blueprint.rules.lookup "type" = some rule →
      entryIssues all "type" rule value = []) ∧
    ∀ name, name ≠ "type" → ∀ rule, blueprint.rules.lookup name = some rule →
      entryIssues all name rule value = [] := by
  rw [silent_iff_lookup rules_distinct]
  constructor
  · intro silent
    exact ⟨silent "type", fun name _ => silent name⟩
  · rintro ⟨type, others⟩ name
    by_cases isType : name = "type"
    · subst isType
      exact type
    · exact others name isType

/-- No choice is null, whatever the type is. -/
theorem lists_of_silent_null (plain : value.Plain) (isNull : value = .null)
    (typed : inner.typeName?.isSome = true)
    (others : ∀ name, name ≠ "type" → ∀ rule, inner.rules.lookup name = some rule →
      entryIssues all name rule value = []) : inner.lists = false := by
  cases chosen : inner.lists with
  | false => rfl
  | true =>
      obtain ⟨options, listed⟩ := lookup_enum chosen typed
      obtain ⟨option, -, isText⟩ := (entry_enum plain).mp (others "enum" (by decide) _ listed)
      rw [isNull] at isText
      cases isText

theorem silent_nullable (plain : value.Plain) {name : String}
    (declared : inner.typeName? = some name) :
    Silent (Blueprint.nullable inner).rules (Blueprint.nullable inner).rules value ↔
      Silent inner.rules inner.rules value ∨ (value = .null ∧ inner.lists = false) := by
  have sameLookup : ∀ key, key ≠ "type" →
      (Blueprint.nullable inner).rules.lookup key = inner.rules.lookup key := fun key notType => by
    rw [rules_nullable_of_some declared, Members.lookup_put, if_neg notType]
  have sameEntry : ∀ key rule, entryIssues (Blueprint.nullable inner).rules key rule value =
      entryIssues inner.rules key rule value := fun key rule => by
    refine entryIssues_congr ?_
    rw [Members.valueAt, sameLookup _ (by decide), Members.valueAt]
  -- Only a type, a list of choices or a constant can refuse null.
  have saysNothing : value = .null → inner.lists = false → ∀ key, key ≠ "type" → ∀ rule,
      inner.rules.lookup key = some rule → entryIssues inner.rules key rule value = [] := by
    rintro rfl other key notType rule found
    refine entry_null notType ?_ ?_
    · rintro rfl
      rw [lookup_listed other (.inl rfl)] at found
      cases found
    · rintro rfl
      rw [lookup_listed other (.inr rfl)] at found
      cases found
  have allowed : (Blueprint.nullable inner).allowsNull = true := by
    rw [allowsNull, declared, Option.isSome_some]
  have others : (∀ key, key ≠ "type" → ∀ rule,
      (Blueprint.nullable inner).rules.lookup key = some rule →
        entryIssues (Blueprint.nullable inner).rules key rule value = []) ↔
      ∀ key, key ≠ "type" → ∀ rule, inner.rules.lookup key = some rule →
        entryIssues inner.rules key rule value = [] := by
    refine forall_congr' fun key => forall_congr' fun notType => ?_
    simp only [sameLookup key notType, sameEntry]
  rw [silent_iff_type, silent_iff_type, others, silent_type plain declared,
    silent_type plain (show (Blueprint.nullable inner).typeName? = some name from declared),
    allowed]
  constructor
  · intro silent
    rcases silent with ⟨typed | isNull, rest⟩
    · exact .inl ⟨.inl typed, rest⟩
    · have typed : inner.typeName?.isSome = true := by rw [declared, Option.isSome_some]
      exact .inr ⟨isNull.1, lists_of_silent_null plain isNull.1 typed rest⟩
  · intro either
    rcases either with ⟨typed | isNull, rest⟩ | ⟨isNull, other⟩
    · exact ⟨.inl typed, rest⟩
    · exact ⟨.inr ⟨isNull.1, rfl⟩, rest⟩
    · exact ⟨.inr ⟨isNull, rfl⟩, saysNothing isNull other⟩

/-- Whether draft 7 finds nothing exactly where a value is in the meaning of a schema and has no
idle null. -/
def Draft7Decides (blueprint : Blueprint) (value : Value) : Prop :=
  schemaIssues (.object blueprint.rules) value = [] ↔
    blueprint.Admits .draft7 value ∧ ¬ blueprint.IdleNull value

theorem schemaIssues_eq_nil_iff_silent {rules : Members} :
    schemaIssues (.object rules) value = [] ↔ Silent rules rules value :=
  rulesIssues_nil_iff

theorem array_draft7 (plain : value.Plain)
    (each : ∀ item, item.Plain → Draft7Decides inner item) :
    Draft7Decides (.array inner least most unique) value := by
  rw [Draft7Decides, schemaIssues_eq_nil_iff_silent, silent_array plain each]
  constructor
  · intro silent
    rcases silent with ⟨items, rfl, within, each, distinct⟩
    refine ⟨⟨items, rfl, within, fun item entry => (each item entry).1, distinct⟩, fun idle => ?_⟩
    obtain ⟨item, entry, idle⟩ := idleNull_array_iff.mp idle
    exact (each item entry).2 idle
  · intro allowed
    rcases allowed with ⟨⟨items, isArray, within, admitted, distinct⟩, notIdle⟩
    obtain rfl := plain.asItems_iff.mp isArray
    refine ⟨items, rfl, within, fun item entry => ⟨admitted item entry, fun idle => ?_⟩, distinct⟩
    exact notIdle (.item entry idle)

theorem object_draft7 (plain : value.Plain) (wellFormed : blueprint.WellFormed)
    (shape : blueprint.isObject = true)
    (each : ∀ key inner, blueprint.propertyAt key = some inner → ∀ value, value.Plain →
      Draft7Decides inner value) : Draft7Decides blueprint value := by
  rw [Draft7Decides, schemaIssues_eq_nil_iff_silent, silent_object plain wellFormed shape each,
    admits_object_iff shape, idleNull_object_iff shape]
  simp only [admitsMember_iff shape]
  constructor
  · intro silent
    rcases silent with ⟨rfl, allowed⟩ | ⟨members, rfl, required, each⟩
    · exact ⟨.inl ⟨rfl, allowed⟩, fun idle => nomatch idle⟩
    · refine ⟨.inr ⟨members, rfl, required, fun member entry => ?_⟩, fun idle => ?_⟩
      · have holds := each member entry
        cases declared : blueprint.propertyAt member.1 with
        | none =>
            rw [declared] at holds
            exact holds
        | some inner =>
            rw [declared] at holds
            exact holds.1
      · obtain ⟨others, same, member, entry, inner, declared, idle⟩ := idle
        obtain rfl := Value.object.inj same
        have holds := each member entry
        rw [declared] at holds
        exact holds.2 idle
  · intro allowed
    rcases allowed with ⟨isNull | ⟨members, rfl, required, admitted⟩, notIdle⟩
    · exact .inl isNull
    · refine .inr ⟨members, rfl, required, fun member entry => ?_⟩
      have admits := admitted member entry
      cases declared : blueprint.propertyAt member.1 with
      | none =>
          rw [declared] at admits
          exact admits
      | some inner =>
          rw [declared] at admits
          exact ⟨admits, fun idle => notIdle ⟨members, rfl, member, entry, inner, declared, idle⟩⟩

theorem nullable_draft7 (plain : value.Plain) (shape : inner.isObject = false)
    (inside : Draft7Decides inner value) : Draft7Decides (.nullable inner) value := by
  rw [Draft7Decides]
  cases declared : inner.typeName? with
  | none =>
      rw [rules_nullable_of_none declared, idleNull_nullable_iff shape, Admits, declared]
      refine Iff.trans inside ?_
      simp
  | some name =>
      have typed : inner.typeName?.isSome = true := by rw [declared, Option.isSome_some]
      rw [schemaIssues_eq_nil_iff_silent, silent_nullable plain declared]
      by_cases isNull : value = .null
      · subst isNull
        rw [idleNull_null_iff typed, Bool.not_eq_true]
        constructor
        · intro silent
          refine ⟨Or.inr ⟨rfl, typed⟩, ?_⟩
          rcases silent with silent | other
          · exact lists_of_silent_null plain rfl typed (silent_iff_type.mp silent).2
          · exact other.2
        · intro allowed
          exact .inr ⟨rfl, allowed.2⟩
      · have sameMeaning : (Blueprint.nullable inner).Admits .draft7 value ↔
            inner.Admits .draft7 value := or_iff_left fun allowed => isNull allowed.1
        have sameIdle : (Blueprint.nullable inner).IdleNull value ↔ inner.IdleNull value := by
          rw [idleNull_nullable_iff shape]
          exact or_iff_right fun idle => isNull idle.1
        rw [sameMeaning, sameIdle, or_iff_left fun allowed => isNull allowed.1,
          ← schemaIssues_eq_nil_iff_silent]
        exact inside

/-- Draft 7 finds no issue exactly when a value is in the meaning of the schema and has no null
that is allowed only beside a list of choices. -/
theorem draft7_decides (wellFormed : blueprint.WellFormed) (plain : value.Plain) :
    Draft7Decides blueprint value := by
  have scalar : ∀ {part : Blueprint} {value : Value}, ¬ part.IdleNull value →
      (Silent part.rules part.rules value ↔ part.Admits .draft7 value) →
        Draft7Decides part value := fun notIdle silent =>
    schemaIssues_eq_nil_iff_silent.trans (silent.trans (and_iff_left notIdle).symm)
  -- By shape, an extension is met as the one object that it amounts to.
  induction blueprint using Blueprint.byShape generalizing value with
  | text => exact scalar (not_idleNull_of_scalar rfl nofun nofun) (silent_text plain)
  | choice => exact scalar (not_idleNull_of_scalar rfl nofun nofun) (silent_choice plain)
  | flag => exact scalar (not_idleNull_of_scalar rfl nofun nofun) (silent_flag plain)
  | number => exact scalar (not_idleNull_of_scalar rfl nofun nofun) (silent_number plain)
  | constant => exact scalar (not_idleNull_of_scalar rfl nofun nofun) (silent_constant plain)
  | array items least most unique ih =>
      exact array_draft7 plain fun item plain => ih wellFormed.2 plain
  | object blueprint shape ih =>
      exact object_draft7 plain wellFormed shape fun key inner found value plain =>
        ih key inner found (wellFormed.propertyAt found) plain
  | nullable inner shape ih => exact nullable_draft7 plain shape (ih wellFormed.2 plain)
  | stray base required properties shape =>
      have extended := wellFormed.whole.1
      rw [shape] at extended
      cases extended

/-- Under a portable schema no null is idle. -/
theorem schemaIssues_nil_iff (portable : blueprint.Portable) (plain : value.Plain) :
    schemaIssues (.object blueprint.rules) value = [] ↔ blueprint.Admits .draft7 value := by
  have unlisted : blueprint.Every fun part =>
      ∀ inner, part = .nullable inner → inner.lists = false := by
    refine Every.imp portable fun part holds inner same => ?_
    subst same
    exact holds
  exact (draft7_decides portable.wellFormed plain).trans
    (and_iff_left (not_idleNull_of_every unlisted))

end WorkItems.Schema
