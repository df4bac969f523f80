import WorkItems.Proofs.Number.Order
import WorkItems.Proofs.Schema.Decision
import WorkItems.Proofs.Schema.Rules
import WorkItems.Proofs.Value.Same

namespace WorkItems.Schema

/-! The schema engine decides the meaning of the schemas that the builders make.

A field check looks at null, then at the declared type, then at the content; `fieldIssues_typed`
takes that apart once, so that each kind of schema is left with its content.
-/

variable {strict : Bool} {rules members : Members} {value expected : Value}
variable {blueprint : Blueprint}

open Blueprint

/-- The rules on what a value has inside, which bind only under the declared type. -/
def innerIssues (strict : Bool) (rules : Members) (expected : Value) :
    Value → Except Fault (List Issue)
  | .array items | .tuple items =>
    if expected.isText "array" then do
      let whole ← arrayIssues rules items
      let each ← itemsIssues strict (rules.valueAt "items") 0 items
      pure (whole ++ each)
    else pure []
  | .object members =>
    if expected.isText "object" then objectIssues strict rules members else pure []
  | _ => pure []

/-- Everything that is checked once the type is right. -/
def contentIssues (strict : Bool) (rules : Members) (expected value : Value) :
    Except Fault (List Issue) := do
  let scalar ← scalarIssues rules expected value
  let unlisted ← enumIssues rules value
  let inner ← innerIssues strict rules expected value
  pure (scalar ++ unlisted ++ constIssues rules value ++ inner)

theorem fieldIssues_eq : fieldIssues strict (.object rules) value =
    if value.isNull && acceptsNull rules then pure []
    else if !(expectedType rules).isNull && !hasType value (expectedType rules) then
      pure [.here (.wrongKind (expectedType rules) value.kind)]
    else contentIssues strict rules (expectedType rules) value := by
  cases value with
  | array items =>
      cases typed : (expectedType rules).isText "array" <;>
        simp [fieldIssues, contentIssues, innerIssues, typed, membersOf, ok_bind]
  | tuple items =>
      cases typed : (expectedType rules).isText "array" <;>
        simp [fieldIssues, contentIssues, innerIssues, typed, membersOf, ok_bind]
  | object members =>
      cases typed : (expectedType rules).isText "object" <;>
        simp [fieldIssues, contentIssues, innerIssues, objectIssues, typed, membersOf, ok_bind]
  | _ => rfl

theorem contentIssues_decides {scalarHolds listedHolds constantHolds innerHolds : Prop}
    (scalar : Decides (scalarIssues rules expected value) scalarHolds)
    (listed : Decides (enumIssues rules value) listedHolds)
    (constant : constIssues rules value = [] ↔ constantHolds)
    (inner : Decides (innerIssues strict rules expected value) innerHolds) :
    Decides (contentIssues strict rules expected value)
      (scalarHolds ∧ listedHolds ∧ constantHolds ∧ innerHolds) := by
  rw [contentIssues]
  refine scalar.bind fun scalarFound scalarEmpty => ?_
  refine listed.bind fun listedFound listedEmpty => ?_
  refine inner.bind fun innerFound innerEmpty => ?_
  refine ⟨_, rfl, ?_⟩
  rw [List.append_eq_nil_iff, List.append_eq_nil_iff, List.append_eq_nil_iff, scalarEmpty,
    listedEmpty, constant, innerEmpty, and_assoc, and_assoc]

theorem enumIssues_unlisted (other : blueprint.lists = false) :
    Decides (enumIssues blueprint.rules value) True := by
  rw [enumIssues, lookup_listed other (.inl rfl)]
  exact Decides.nothing

theorem constIssues_unlisted (other : blueprint.lists = false) :
    constIssues blueprint.rules value = [] ↔ True := by
  rw [constIssues, lookup_listed other (.inr rfl)]
  exact iff_of_true rfl trivial

theorem hasType_named {name : String} (other : name ≠ "integer") :
    hasType value (.text name) = true ↔ value.kind.name = name := by
  have text : ∀ known, (Value.text name).isText known = true ↔ known = name := fun known => by
    rw [Value.isText_iff, Value.asText?, Option.some.injEq, eq_comm]
  have notInteger : (Value.text name).isText "integer" = false :=
    Bool.eq_false_iff.mpr fun same => other ((text _).mp same).symm
  rw [hasType, notInteger, if_neg Bool.false_ne_true, text]

theorem hasType_string : hasType value (.text "string") = true ↔
    ∃ text, value.asText? = some text := by
  rw [hasType_named (by decide)]
  cases value with
  | foreign kind mark =>
      cases kind <;> simp [Value.kind, Kind.name, ForeignKind.name, Value.asText?]
  | _ => simp [Value.kind, Kind.name, Value.asText?]

theorem hasType_boolean : hasType value (.text "boolean") = true ↔ ∃ flag, value = .bool flag := by
  rw [hasType_named (by decide)]
  cases value with
  | foreign kind mark => cases kind <;> simp [Value.kind, Kind.name, ForeignKind.name]
  | _ => simp [Value.kind, Kind.name]

theorem hasType_number : hasType value (.text "number") = true ↔
    ∃ number, value = .number number := by
  rw [hasType_named (by decide)]
  cases value with
  | foreign kind mark => cases kind <;> simp [Value.kind, Kind.name, ForeignKind.name]
  | _ => simp [Value.kind, Kind.name]

theorem hasType_integer : hasType value (.text "integer") = true ↔
    ∃ number, value = .number number ∧ number.isIntegral = true := by
  cases value <;> simp [hasType, Value.isText, Value.asText?, isIntegral]

theorem hasType_array : hasType value (.text "array") = true ↔
    ∃ items, value.asItems? = some items := by
  rw [hasType_named (by decide)]
  cases value with
  | foreign kind mark =>
      cases kind <;> simp [Value.kind, Kind.name, ForeignKind.name, Value.asItems?]
  | _ => simp [Value.kind, Kind.name, Value.asItems?]

theorem hasType_object : hasType value (.text "object") = true ↔
    ∃ members, value = .object members := by
  rw [hasType_named (by decide)]
  cases value with
  | foreign kind mark => cases kind <;> simp [Value.kind, Kind.name, ForeignKind.name]
  | _ => simp [Value.kind, Kind.name]

/-- Under a declared type, null is settled first and a wrong type next. -/
theorem fieldIssues_typed {name : String} {holds : Prop}
    (declared : blueprint.typeName? = some name)
    (null : value = .null → blueprint.allowsNull = true → holds)
    (typed : holds → (value = .null ∧ blueprint.allowsNull = true) ∨
      hasType value (.text name) = true)
    (content : hasType value (.text name) = true →
      Decides (contentIssues strict blueprint.rules (.text name) value) holds) :
    Decides (fieldIssues strict (.object blueprint.rules) value) holds := by
  have expected : expectedType blueprint.rules = .text name := by
    rw [expectedType_rules, declared]
    rfl
  rw [fieldIssues_eq, expected, acceptsNull_rules]
  by_cases settled : value = .null ∧ blueprint.allowsNull = true
  · obtain ⟨isNull, allowed⟩ := settled
    have holdsNull := null isNull allowed
    rw [isNull, allowed]
    exact Decides.nothing.congr (iff_of_true trivial holdsNull)
  · have passed : (value.isNull && blueprint.allowsNull) = false := by
      rw [Bool.and_eq_false_imp]
      intro isNull
      cases value with
      | null => exact Bool.eq_false_iff.mpr fun allowed => settled ⟨rfl, allowed⟩
      | _ => cases isNull
    rw [passed]
    cases right : hasType value (.text name) with
    | true => exact content right
    | false =>
        refine (Decides.refuses _ []).congr (iff_of_false id fun admitted => ?_)
        rcases typed admitted with isNull | hasRight
        · exact settled isNull
        · rw [right] at hasRight
          cases hasRight

theorem scalarIssues_text {text : String} (isText : value.asText? = some text) :
    scalarIssues rules (.text "string") value = textIssues rules text := by
  cases value with
  | text written => cases isText; rfl
  | term term => cases isText; rfl
  | null | bool | number | array | tuple | object | foreign => cases isText

theorem innerIssues_text {text : String} (isText : value.asText? = some text) :
    Decides (innerIssues strict rules expected value) True := by
  cases value with
  | text | term => exact Decides.nothing
  | null | bool | number | array | tuple | object | foreign => cases isText

section

variable {least most : Option Number} {pattern format : Option String} {options : List String}
variable {integral unique : Bool} {inner : Blueprint}

theorem text_decides (wellFormed : (Blueprint.text least most pattern format).WellFormed) :
    Decides (fieldIssues strict
        (.object (Blueprint.text least most pattern format).rules) value)
      ((Blueprint.text least most pattern format).Admits (.engine strict) value) := by
  refine fieldIssues_typed rfl (fun _ allowed => nomatch allowed) ?_ fun right => ?_
  · intro admitted
    rcases admitted with ⟨text, isText, -⟩
    exact .inr (hasType_string.mpr ⟨text, isText⟩)
  · obtain ⟨text, isText⟩ := hasType_string.mp right
    obtain ⟨short, long, written⟩ := valueAt_text least most pattern format
    have scalar := textIssues_decides strict text short long written wellFormed
    rw [← scalarIssues_text isText] at scalar
    refine (contentIssues_decides scalar (enumIssues_unlisted rfl) (constIssues_unlisted rfl)
      (innerIssues_text isText)).congr ?_
    simp [Admits, isText]

theorem choice_decides :
    Decides (fieldIssues strict (.object (Blueprint.choice options).rules) value)
      ((Blueprint.choice options).Admits (.engine strict) value) := by
  refine fieldIssues_typed rfl (fun _ allowed => nomatch allowed) ?_ fun right => ?_
  · intro admitted
    rcases admitted with ⟨option, -, isText⟩
    exact .inr (hasType_string.mpr ⟨option, isText⟩)
  · obtain ⟨text, isText⟩ := hasType_string.mp right
    have scalar : Decides (scalarIssues (Blueprint.choice options).rules (.text "string") value)
        True := by
      rw [scalarIssues_text isText]
      exact Decides.nothing
    have listed : Decides (enumIssues (Blueprint.choice options).rules value)
        (text ∈ options) := by
      have run : enumIssues (Blueprint.choice options).rules value =
          .ok (if (options.map Value.text).any value.same = true then [] else
            [.here (.unlisted (options.map .text))]) := rfl
      rw [run]
      refine (Decides.ofTest _ _).congr ?_
      simp [Value.same_text, isText]
    refine (contentIssues_decides scalar listed (iff_of_true rfl trivial)
      (innerIssues_text isText)).congr ?_
    simp [Admits, isText]

theorem flag_decides :
    Decides (fieldIssues strict (.object Blueprint.flag.rules) value)
      (Blueprint.flag.Admits (.engine strict) value) := by
  refine fieldIssues_typed rfl (fun _ allowed => nomatch allowed) ?_ fun right => ?_
  · intro isFlag
    exact .inr (hasType_boolean.mpr isFlag)
  · obtain ⟨flag, rfl⟩ := hasType_boolean.mp right
    exact Decides.nothing.congr (iff_of_true trivial ⟨flag, rfl⟩)

theorem number_decides :
    Decides (fieldIssues strict (.object (Blueprint.number least most integral).rules) value)
      ((Blueprint.number least most integral).Admits (.engine strict) value) := by
  have isNumber : ∀ name, name = (if integral then "integer" else "number") →
      (hasType value (.text name) = true ↔
        ∃ number, value = .number number ∧ (integral = true → number.isIntegral = true)) := by
    rintro name rfl
    cases integral with
    | true => simpa using hasType_integer
    | false => simpa using hasType_number
  refine fieldIssues_typed rfl (fun _ allowed => nomatch allowed) ?_ fun right => ?_
  · intro admitted
    rcases admitted with ⟨number, same, -, whole⟩
    exact .inr ((isNumber _ rfl).mpr ⟨number, same, whole⟩)
  · obtain ⟨number, rfl, whole⟩ := (isNumber _ rfl).mp right
    obtain ⟨small, large⟩ := valueAt_number least most integral
    have scalar : Decides
        (scalarIssues (Blueprint.number least most integral).rules
          (.text (if integral then "integer" else "number")) (.number number))
        (Within least most number) := by
      rw [scalarIssues, if_pos (by cases integral <;> rfl)]
      exact numberIssues_decides number small large
    refine (contentIssues_decides scalar (enumIssues_unlisted rfl) (constIssues_unlisted rfl)
      Decides.nothing).congr ?_
    constructor
    · intro inRange
      rcases inRange with ⟨within, -⟩
      exact ⟨number, rfl, within, whole⟩
    · intro admitted
      rcases admitted with ⟨other, same, within, -⟩
      cases same
      exact ⟨within, trivial, trivial, trivial⟩

theorem scalarIssues_array {items : List Value} (isArray : value.asItems? = some items) :
    scalarIssues rules expected value = .ok [] := by
  cases value with
  | array | tuple => rfl
  | null | bool | number | text | term | object | foreign => cases isArray

theorem innerIssues_array {items : List Value} (isArray : value.asItems? = some items) :
    innerIssues strict rules (.text "array") value = (do
      let whole ← arrayIssues rules items
      let each ← itemsIssues strict (rules.valueAt "items") 0 items
      pure (whole ++ each)) := by
  cases value with
  | array | tuple =>
      cases isArray
      rfl
  | null | bool | number | text | term | object | foreign => cases isArray

theorem array_decides
    (each : ∀ item, Decides (fieldIssues strict (.object inner.rules) item)
      (inner.Admits (.engine strict) item)) :
    Decides (fieldIssues strict (.object (Blueprint.array inner least most unique).rules) value)
      ((Blueprint.array inner least most unique).Admits (.engine strict) value) := by
  refine fieldIssues_typed rfl (fun _ allowed => nomatch allowed) ?_ fun right => ?_
  · intro admitted
    rcases admitted with ⟨items, isArray, -⟩
    exact .inr (hasType_array.mpr ⟨items, isArray⟩)
  · obtain ⟨items, isArray⟩ := hasType_array.mp right
    obtain ⟨itemSchema, few, many, distinct⟩ := valueAt_array least most unique inner
    have scalar : Decides (scalarIssues (Blueprint.array inner least most unique).rules
        (.text "array") value) True := by
      rw [scalarIssues_array isArray]
      exact Decides.nothing
    have whole : Decides (arrayIssues (Blueprint.array inner least most unique).rules items) _ :=
      arrayIssues_decides few many distinct
    have content := whole.append (itemsIssues_decides items 0 each)
    rw [← itemSchema, ← innerIssues_array isArray] at content
    refine (contentIssues_decides scalar (enumIssues_unlisted rfl) (constIssues_unlisted rfl)
      content).congr ?_
    constructor
    · intro settled
      rcases settled with ⟨-, -, -, ⟨within, apart⟩, admitted⟩
      exact ⟨items, isArray, within, admitted, apart⟩
    · intro allowed
      rcases allowed with ⟨others, isOther, within, admitted, apart⟩
      rw [isArray, Option.some.injEq] at isOther
      subst isOther
      exact ⟨trivial, trivial, trivial, ⟨within, apart⟩, admitted⟩

theorem constant_decides {wanted : Value} :
    Decides (fieldIssues strict (.object (Blueprint.constant wanted).rules) value)
      ((Blueprint.constant wanted).Admits (.engine strict) value) := by
  have noType : expectedType (Blueprint.constant wanted).rules = .null := rfl
  have noNull : acceptsNull (Blueprint.constant wanted).rules = false := rfl
  rw [fieldIssues_eq, noType, noNull, Bool.and_false, if_neg Bool.false_ne_true]
  have constant : constIssues (Blueprint.constant wanted).rules value = [] ↔
      value.same wanted = true := by
    change (if value.same wanted = true then [] else [_]) = [] ↔ _
    cases value.same wanted <;> simp
  have scalar : Decides (scalarIssues (Blueprint.constant wanted).rules .null value) True := by
    cases value <;> exact Decides.nothing
  have inner : Decides (innerIssues strict (Blueprint.constant wanted).rules .null value) True := by
    cases value <;> exact Decides.nothing
  refine (contentIssues_decides scalar Decides.nothing constant inner).congr ?_
  simp [Admits]

end

theorem forbidsUndeclared_rules (shape : blueprint.isObject = true) :
    forbidsUndeclared strict blueprint.rules = (strict && blueprint.isClosed) := by
  rw [forbidsUndeclared, Members.valueAt, lookup_additional shape]
  cases blueprint.isClosed <;> simp

/-- What an object schema says of the members, given what it says of each value it declares. -/
theorem objectIssues_decides (wellFormed : blueprint.WellFormed)
    (shape : blueprint.isObject = true)
    (each : ∀ key inner, blueprint.propertyAt key = some inner → ∀ value,
      Decides (fieldIssues strict (.object inner.rules) value)
        (inner.Admits (.engine strict) value)) :
    Decides (objectIssues strict blueprint.rules members)
      ((∀ name ∈ blueprint.requiredNames, members.hasKey name = true) ∧
        ∀ member ∈ members, blueprint.AdmitsMember (.engine strict) member.1 member.2) := by
  have missing : Decides (missingIssues blueprint.rules members)
      (∀ name ∈ blueprint.requiredNames, members.hasKey name = true) :=
    (missingIssues_decides (lookup_required shape)).congr (by simp only [mem_requiredEntries])
  have others : Decides (membersIssues strict blueprint.rules members)
      (∀ member ∈ members, blueprint.AdmitsMember (.engine strict) member.1 member.2) := by
    refine membersIssues_decides (lookup_properties shape) (fun key value undeclared => ?_)
      fun key schema value declared => ?_
    · rw [lookup_declaredRules wellFormed shape, Option.map_eq_none_iff] at undeclared
      rw [admitsMember_iff shape, undeclared, forbidsUndeclared_rules shape]
      exact Bool.not_eq_true _ ▸ Iff.rfl
    · rw [lookup_declaredRules wellFormed shape, Option.map_eq_some_iff] at declared
      obtain ⟨inner, found, rfl⟩ := declared
      refine ⟨rfl, (each key inner found value).congr ?_⟩
      rw [admitsMember_iff shape, found]
      rfl
  exact missing.append others

theorem object_decides (wellFormed : blueprint.WellFormed) (shape : blueprint.isObject = true)
    (each : ∀ key inner, blueprint.propertyAt key = some inner → ∀ value,
      Decides (fieldIssues strict (.object inner.rules) value)
        (inner.Admits (.engine strict) value)) :
    Decides (fieldIssues strict (.object blueprint.rules) value)
      (blueprint.Admits (.engine strict) value) := by
  rw [admits_object_iff shape]
  refine fieldIssues_typed (typeName_of_isObject shape)
    (fun isNull allowed => .inl ⟨isNull, allowed⟩) ?_ fun right => ?_
  · intro admitted
    rcases admitted with isNull | ⟨members, isObject, -⟩
    · exact .inl isNull
    · exact .inr (hasType_object.mpr ⟨members, isObject⟩)
  · obtain ⟨members, rfl⟩ := hasType_object.mp right
    have inner : Decides (objectIssues strict blueprint.rules members) _ :=
      objectIssues_decides wellFormed shape each
    have scalar : Decides (scalarIssues blueprint.rules (.text "object") (.object members)) True :=
      Decides.nothing
    refine (contentIssues_decides scalar (enumIssues_unlisted (lists_of_isObject shape))
      (constIssues_unlisted (lists_of_isObject shape)) inner).congr ?_
    simp

/-- What stands under `type` is of no concern to the checks of the content. -/
theorem contentIssues_put_type (entry : Value) :
    contentIssues strict (rules.put "type" entry) expected value =
      contentIssues strict rules expected value := by
  have sameLookup : ∀ key, key ≠ "type" → (rules.put "type" entry).lookup key = rules.lookup key :=
    fun key notType => by rw [Members.lookup_put, if_neg notType]
  have sameValue : ∀ key, key ≠ "type" →
      (rules.put "type" entry).valueAt key = rules.valueAt key :=
    fun key notType => by rw [Members.valueAt_put, if_neg notType]
  have scalar : scalarIssues (rules.put "type" entry) expected value =
      scalarIssues rules expected value := by
    have text : ∀ text, textIssues (rules.put "type" entry) text = textIssues rules text :=
      fun text => by
        rw [textIssues, textIssues, sameValue "minLength" (by decide),
          sameValue "maxLength" (by decide), sameValue "pattern" (by decide)]
    have number : ∀ number, numberIssues (rules.put "type" entry) number =
        numberIssues rules number := fun number => by
      rw [numberIssues, numberIssues, sameValue "minimum" (by decide),
        sameValue "maximum" (by decide)]
    cases value <;> simp only [scalarIssues, text, number]
  have array : ∀ items, arrayIssues (rules.put "type" entry) items = arrayIssues rules items :=
    fun items => by
      rw [arrayIssues, arrayIssues, sameValue "minItems" (by decide),
        sameValue "maxItems" (by decide), sameValue "uniqueItems" (by decide)]
  have missing : ∀ members, missingIssues (rules.put "type" entry) members =
      missingIssues rules members := fun members => by
    rw [missingIssues, missingIssues, sameLookup "required" (by decide)]
  have each : ∀ members, membersIssues strict (rules.put "type" entry) members =
      membersIssues strict rules members := by
    intro members
    induction members with
    | nil => rfl
    | cons member rest ih =>
        rw [membersIssues, membersIssues, ih, forbidsUndeclared,
          sameValue "properties" (by decide), sameValue "additionalProperties" (by decide),
          ← forbidsUndeclared]
  have inner : innerIssues strict (rules.put "type" entry) expected value =
      innerIssues strict rules expected value := by
    cases value <;>
      simp only [innerIssues, objectIssues, array, missing, each, sameValue "items" (by decide)]
  rw [contentIssues, contentIssues, scalar, inner, enumIssues, enumIssues, constIssues, constIssues,
    sameLookup "enum" (by decide), sameLookup "const" (by decide)]

theorem fieldIssues_nullable {inner : Blueprint}
    (unsettled : ¬ (value = .null ∧ inner.typeName?.isSome = true)) :
    fieldIssues strict (.object (Blueprint.nullable inner).rules) value =
      fieldIssues strict (.object inner.rules) value := by
  cases declared : inner.typeName? with
  | none => rw [rules_nullable_of_none declared]
  | some name =>
      have notNull : value.isNull = false := by
        cases value with
        | null => exact absurd ⟨rfl, by rw [declared]; rfl⟩ unsettled
        | _ => rfl
      have expected : expectedType (Blueprint.nullable inner).rules = expectedType inner.rules := by
        rw [expectedType_rules, expectedType_rules]
        rfl
      rw [fieldIssues_eq, fieldIssues_eq, notNull, Bool.false_and, Bool.false_and, expected,
        rules_nullable_of_some declared, contentIssues_put_type]

/-- The check of a single value decides the meaning of the schema. -/
theorem fieldIssues_decides (wellFormed : blueprint.WellFormed) :
    Decides (fieldIssues strict (.object blueprint.rules) value)
      (blueprint.Admits (.engine strict) value) := by
  induction blueprint using Blueprint.byShape generalizing value with
  | text => exact text_decides wellFormed
  | choice => exact choice_decides
  | flag => exact flag_decides
  | number => exact number_decides
  | array items least most unique ih => exact array_decides fun item => ih wellFormed.2
  | constant => exact constant_decides
  | object blueprint shape ih =>
      exact object_decides wellFormed shape fun key inner found value =>
        ih key inner found (wellFormed.propertyAt found)
  | nullable inner shape ih =>
      -- Null is settled by the type alone; on all else the schema and the inner one agree.
      by_cases settled : value = .null ∧ inner.typeName?.isSome = true
      · have accepted : acceptsNull (Blueprint.nullable inner).rules = true := by
          rw [acceptsNull_rules]
          exact settled.2
        rw [fieldIssues_eq, accepted, settled.1]
        exact Decides.nothing.congr (iff_of_true trivial (.inr ⟨rfl, settled.2⟩))
      · rw [fieldIssues_nullable settled]
        exact (ih wellFormed.2).congr (or_iff_left settled).symm
  | stray base required properties shape =>
      have extended := wellFormed.whole.1
      rw [shape] at extended
      cases extended

/-- Objects are looked into at once only under the type of objects, with no null beside it. -/
theorem isText_type_rules : (blueprint.rules.valueAt "type").isText "object" = true ↔
    blueprint.isObject = true ∧ blueprint.allowsNull = false := by
  rw [Value.isText_iff, Members.valueAt, lookup_type, typeEntry]
  cases declared : blueprint.typeName? with
  | none =>
      have notObject : blueprint.isObject = false := by
        cases shape : blueprint.isObject with
        | false => rfl
        | true =>
            rw [typeName_of_isObject shape] at declared
            cases declared
      simp [Value.asText?, notObject]
  | some name =>
      have sameName : name = "object" ↔ blueprint.isObject = true :=
        ⟨fun same => isObject_of_typeName (same ▸ declared), fun shape => by
          rw [typeName_of_isObject shape, Option.some.injEq] at declared
          exact declared.symm⟩
      cases blueprint.allowsNull <;> simp [Value.asText?, sameName]

/-- Checking a whole value decides the meaning too, although it looks into an object at once. -/
theorem validate_decides (wellFormed : blueprint.WellFormed) :
    Decides (validate strict (.object blueprint.rules) value)
      (blueprint.Admits (.engine strict) value) := by
  rw [validate, membersOf, ok_bind]
  by_cases root : (blueprint.rules.valueAt "type").isText "object" = true
  · obtain ⟨shape, noNull⟩ := isText_type_rules.mp root
    rw [if_pos root, admits_object_iff shape, noNull]
    cases value with
    | object members =>
        have inner : Decides (objectIssues strict blueprint.rules members) _ :=
          objectIssues_decides wellFormed shape fun key inner found value =>
            fieldIssues_decides (wellFormed.propertyAt found)
        exact (inner.map Issue.text).congr (by simp)
    | null | bool | number | text | term | array | tuple | foreign =>
        exact (Decides.refuses _ []).congr (by simp)
  · rw [if_neg root]
    exact (fieldIssues_decides wellFormed).map (Issue.textUnder "value")

theorem validate_eq_nil_iff (wellFormed : blueprint.WellFormed) :
    validate strict (.object blueprint.rules) value = .ok [] ↔
      blueprint.Admits (.engine strict) value := by
  obtain ⟨errors, run, empty⟩ : Decides (validate strict (.object blueprint.rules) value) _ :=
    validate_decides wellFormed
  rw [run, Except.ok.injEq]
  exact empty

/-- The engine is correct for every schema that the builders make: building succeeds, checking
never fails, and it finds no error exactly when the value is in the meaning of the schema. -/
theorem build_validate_correct (blueprint : Blueprint) (wellFormed : blueprint.WellFormed)
    (strict : Bool) (value : Value) :
    ∃ schema errors, blueprint.build = .ok schema ∧
      validate strict schema value = .ok errors ∧
      (errors = [] ↔ blueprint.Admits (.engine strict) value) := by
  obtain ⟨errors, run, empty⟩ : Decides (validate strict (.object blueprint.rules) value)
      (blueprint.Admits (.engine strict) value) := validate_decides wellFormed
  exact ⟨_, errors, build_eq wellFormed, run, empty⟩

/-- A closed schema of a name and, by extension, of marks, some of which may be null. -/
def noteBlueprint : Blueprint :=
  .extension
    (.object [("name", .text (some (.int 1)) none (some "^[a-z]+$") none)] ["name"] true)
    ["marks"]
    [("marks", .array (.nullable (.choice ["new", "done"])) none (some (.int 3)) true)]

def note : Value :=
  .object [("marks", .tuple [.text "new", .null]), ("name", .text "milk")]

theorem noteBlueprint_admits_note : ∃ schema,
    noteBlueprint.build = .ok schema ∧ validate true schema note = .ok [] := by
  have wellFormed : noteBlueprint.WellFormed := by
    refine ⟨⟨rfl, by simp [Members.Distinct]⟩, ⟨by simp [Sound, Members.Distinct], ?_, trivial⟩,
      ⟨trivial, trivial, trivial⟩, trivial⟩
    rintro written ⟨⟩
    decide +kernel
  have name : (Blueprint.text (some (.int 1)) none (some "^[a-z]+$") none).Admits
      (.engine true) (.text "milk") := by
    refine ⟨"milk", rfl, ⟨by rintro _ ⟨⟩; rw [Number.less_int]; rfl, by rintro _ ⟨⟩⟩, ?_⟩
    rintro _ ⟨⟩
    decide +kernel
  have marks :
      (Blueprint.array (.nullable (.choice ["new", "done"])) none (some (.int 3)) true).Admits
        (.engine true) (.tuple [.text "new", .null]) := by
    refine ⟨_, rfl, ⟨by rintro _ ⟨⟩, by rintro _ ⟨⟩; rw [Number.less_int]; rfl⟩, ?_, ?_⟩
    · simp [Admits, Value.asText?, typeName?]
    · simp [Value.same, Value.isText, Value.asText?]
  have admits : noteBlueprint.Admits (.engine true) note := by
    refine .inr ⟨_, rfl, by decide, ?_⟩
    rw [List.forall_mem_cons, List.forall_mem_singleton]
    exact ⟨marks, name⟩
  obtain ⟨schema, errors, built, run, empty⟩ :=
    build_validate_correct noteBlueprint wellFormed true note
  exact ⟨schema, built, (empty.mpr admits) ▸ run⟩

end WorkItems.Schema
