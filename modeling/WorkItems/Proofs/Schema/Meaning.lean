import WorkItems.Proofs.Schema.Blueprint

namespace WorkItems.Schema

/-! What a blueprint means: the values that it admits.

`Blueprint.Admits` is defined by recursion on the blueprint and knows nothing of rules, of their
order or of issues.  Two things it takes from a reading: whether closed schemas refuse members that
are not declared, and when a pattern is found in a text.
-/

structure Reading where
  strict : Bool
  /-- Whether a pattern, given as it is written, is found in a text. -/
  finds : String → String → Bool

/-- The reading of the engine, where a dollar sign means the very end of a text. -/
def Reading.engine (strict : Bool) : Reading where
  strict := strict
  finds written text :=
    (Pattern.ofTextClosed? written.toList).any fun pattern => pattern.foundIn text

/-- Neither below the least number nor above the greatest, as far as they are given. -/
def Within (least most : Option Number) (number : Number) : Prop :=
  (∀ limit ∈ least, number.less limit = false) ∧ (∀ limit ∈ most, limit.less number = false)

namespace Blueprint

/-- The names that an object schema requires. -/
def requiredNames : Blueprint → List String
  | .object _ required _ => required
  | .nullable inner => inner.requiredNames
  | .extension base required _ => base.requiredNames ++ required
  | _ => []

mutual

/-- Whether a value is in the meaning of a blueprint.  Formats mean nothing, and null is allowed
beside a declared type only. -/
def Admits (reading : Reading) : Blueprint → Value → Prop
  | .text minLength maxLength pattern _, value =>
    ∃ text, value.asText? = some text ∧ Within minLength maxLength (.int text.length) ∧
      ∀ written ∈ pattern, reading.finds written text = true
  | .choice options, value => ∃ option ∈ options, value.asText? = some option
  | .flag, value => ∃ flag, value = .bool flag
  | .number minimum maximum integral, value =>
    ∃ number, value = .number number ∧ Within minimum maximum number ∧
      (integral = true → number.isIntegral = true)
  | .array itemMeaning minItems maxItems unique, value =>
    ∃ items, value.asItems? = some items ∧ Within minItems maxItems (.int items.length) ∧
      (∀ item ∈ items, Admits reading itemMeaning item) ∧
      (unique = true → items.Pairwise fun first second => first.same second = false)
  | .constant wanted, value => value.same wanted = true
  | .object properties required closed, value =>
    ∃ members : Members, value = .object members ∧ (∀ name ∈ required, members.hasKey name = true) ∧
      ∀ member ∈ members,
        AdmitsAt reading properties (¬ (reading.strict && closed)) member.1 member.2
  | .nullable inner, value =>
    Admits reading inner value ∨ (value = .null ∧ inner.typeName?.isSome = true)
  | .extension base required properties, value =>
    (value = .null ∧ base.allowsNull = true) ∨
    ∃ members : Members, value = .object members ∧
      (∀ name ∈ base.requiredNames ++ required, members.hasKey name = true) ∧
      ∀ member ∈ members, AdmitsAt reading properties
        (AdmitsMember reading base member.1 member.2) member.1 member.2
termination_by structural blueprint => blueprint

/-- Whether the first property of a name admits a value, or else what holds without one. -/
def AdmitsAt (reading : Reading) :
    List (String × Blueprint) → Prop → String → Value → Prop
  | [], otherwise, _, _ => otherwise
  | (name, blueprint) :: rest, otherwise, key, value =>
    if key = name then Admits reading blueprint value
    else AdmitsAt reading rest otherwise key value
termination_by structural properties => properties

/-- Whether an object schema has nothing against a member. -/
def AdmitsMember (reading : Reading) : Blueprint → String → Value → Prop
  | .object properties _ closed, key, value =>
    AdmitsAt reading properties (¬ (reading.strict && closed)) key value
  | .nullable inner, key, value => AdmitsMember reading inner key value
  | .extension base _ properties, key, value =>
    AdmitsAt reading properties (AdmitsMember reading base key value) key value
  | _, _, _ => True
termination_by structural blueprint => blueprint

end

variable {reading : Reading} {blueprint : Blueprint} {key : String} {value : Value}

theorem mem_requiredEntries {name : String} :
    name ∈ blueprint.requiredEntries ↔ name ∈ blueprint.requiredNames := by
  induction blueprint using Blueprint.byParts with
  | nullable inner ih => exact ih
  | extension base required properties ih _ =>
      simp only [requiredEntries, requiredNames, List.mem_append, List.mem_filter,
        Bool.not_eq_true', List.contains_eq_mem, decide_eq_false_iff_not, ih]
      by_cases known : name ∈ base.requiredNames <;> simp [known]
  | object | text | choice | flag | number | array | constant => rfl

theorem admitsAt_iff {properties : List (String × Blueprint)} {otherwise : Prop} :
    AdmitsAt reading properties otherwise key value ↔
      (properties.lookup key).elim otherwise fun inner => inner.Admits reading value := by
  induction properties with
  | nil => rfl
  | cons first rest ih =>
      rw [Members.lookup_cons, AdmitsAt]
      by_cases same : key = first.1
      · rw [if_pos same, if_pos same, Option.elim_some]
      · rw [if_neg same, if_neg same, ih]

/-- A member is either declared, and admitted by what is declared, or not forbidden. -/
theorem admitsMember_iff (shape : blueprint.isObject = true) :
    blueprint.AdmitsMember reading key value ↔
      (blueprint.propertyAt key).elim (¬ (reading.strict && blueprint.isClosed) = true)
        fun inner => inner.Admits reading value := by
  induction blueprint using Blueprint.byParts with
  | object properties required closed _ => exact admitsAt_iff
  | nullable inner ih => exact ih shape
  | extension base required properties ih _ =>
      rw [AdmitsMember, admitsAt_iff, propertyAt, isClosed]
      cases properties.lookup key with
      | some property => exact Iff.rfl
      | none => exact ih shape
  | text | choice | flag | number | array | constant => cases shape

theorem admitsMember_of_property {inner : Blueprint} (shape : blueprint.isObject = true)
    (declared : blueprint.propertyAt key = some inner) (admits : inner.Admits reading value) :
    blueprint.AdmitsMember reading key value := by
  rw [admitsMember_iff shape, declared]
  exact admits

/-- All object schemas mean the same in terms of their names, properties and closedness. -/
theorem admits_object_iff (shape : blueprint.isObject = true) :
    blueprint.Admits reading value ↔
      (value = .null ∧ blueprint.allowsNull = true) ∨
      ∃ members : Members, value = .object members ∧
        (∀ name ∈ blueprint.requiredNames, members.hasKey name = true) ∧
        ∀ member ∈ members, blueprint.AdmitsMember reading member.1 member.2 := by
  induction blueprint using Blueprint.byParts with
  | object properties required closed _ => simp [Admits, AdmitsMember, allowsNull, requiredNames]
  | nullable inner ih =>
      have declares : inner.typeName?.isSome = true := by
        clear ih
        induction inner using Blueprint.byParts with
        | object => rfl
        | nullable wrapped ih => exact ih shape
        | extension base _ _ ih _ => exact ih shape
        | text | choice | flag | number | array | constant => cases shape
      simp only [Admits, ih shape, AdmitsMember, allowsNull, requiredNames, declares, and_true]
      constructor
      · intro allowed
        rcases allowed with (⟨isNull, _⟩ | admitted) | isNull
        · exact .inl isNull
        · exact .inr admitted
        · exact .inl isNull
      · intro allowed
        rcases allowed with isNull | admitted
        · exact .inr isNull
        · exact .inl (.inr admitted)
  | extension base required properties _ _ => rfl
  | text | choice | flag | number | array | constant => cases shape

/-- Without limits an array is admitted when its items are. -/
theorem admits_list_iff {inner : Blueprint} {items : List Value}
    (isArray : value.asItems? = some items) :
    (Blueprint.array inner none none false).Admits reading value ↔
      ∀ item ∈ items, inner.Admits reading item := by
  constructor
  · intro admitted
    rcases admitted with ⟨others, isOther, -, each, -⟩
    rw [isArray, Option.some.injEq] at isOther
    exact isOther ▸ each
  · intro each
    exact ⟨items, isArray, ⟨nofun, nofun⟩, each, nofun⟩

theorem admits_members_iff {members : Members} (shape : blueprint.isObject = true) :
    blueprint.Admits reading (.object members) ↔
      (∀ name ∈ blueprint.requiredNames, members.hasKey name = true) ∧
        ∀ member ∈ members, blueprint.AdmitsMember reading member.1 member.2 := by
  rw [admits_object_iff shape]
  simp

/-- What is admitted stays so exactly when a member is replaced by what its property admits. -/
theorem admits_put_iff {members : Members} {inner : Blueprint} (shape : blueprint.isObject = true)
    (declared : blueprint.propertyAt key = some inner)
    (admitted : blueprint.Admits reading (.object members)) :
    blueprint.Admits reading (.object (members.put key value)) ↔ inner.Admits reading value := by
  obtain ⟨required, each⟩ := (admits_members_iff shape).mp admitted
  rw [admits_members_iff shape]
  constructor
  · intro replaced
    have member := replaced.2 _ Members.mem_put_self
    rwa [admitsMember_iff shape, declared] at member
  · intro admits
    refine ⟨fun name wanted => ?_, fun member among => ?_⟩
    · exact Members.hasKey_iff_mem_keys.mpr (Members.mem_keys_put.mpr
        (.inr (Members.hasKey_iff_mem_keys.mp (required name wanted))))
    · rcases Members.mem_of_mem_put among with rfl | kept
      · exact admitsMember_of_property shape declared admits
      · exact each member kept

end Blueprint

end WorkItems.Schema
