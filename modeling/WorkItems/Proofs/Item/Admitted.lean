import WorkItems.Proofs.Item.Fit
import WorkItems.Proofs.Number.Range

namespace WorkItems

/-! What a schema admits is read by the form that fits it.

Every limit of a type stands in its schema, except for three things that no schema says: that a
text is a moment, that a whole number is in the range of doubles, and that a text with limits has a
form in bytes.
-/

open Schema

variable {strict : Bool} {value : Value} {type : FieldType} {items : List Value}

/-- Whether every text in a value has a form in bytes. -/
def Value.Encodable (value : Value) : Prop :=
  value.EveryText fun text => Text.isEncodable text = true

theorem Value.encodable_text_iff {text : String} :
    (Value.text text).Encodable ↔ Text.isEncodable text = true :=
  ⟨fun encodable => encodable text rfl, fun encodable _ same => Option.some.inj same ▸ encodable⟩

theorem Value.Encodable.ofArray {items : List Value} (encodable : (Value.array items).Encodable) :
    ∀ item ∈ items, item.Encodable := by
  rw [Encodable, EveryText, every_array_iff] at encodable
  exact encodable.right

theorem Value.Encodable.ofObject {members : Members}
    (encodable : (Value.object members).Encodable) : ∀ member ∈ members, member.2.Encodable := by
  rw [Encodable, EveryText, every_object_iff] at encodable
  exact encodable.right

/-- Whether a field of a type takes only texts that have a form in bytes, whatever else they are. -/
def FieldType.needsBytes : FieldType → Bool
  | .text rule | .texts rule _ _ => rule.isLimited
  | .moment => true
  | .choice _ | .flag | .points | .hours => false

/-- What the schema of a type leaves open about a value. -/
structure FieldType.Readable (type : FieldType) (value : Value) : Prop where
  encodable : type.needsBytes = true → value.Encodable
  moment : type = .moment → ∀ text, value = .text text → ∃ moment, Moment.ofText text = .ok moment
  hours : type = .hours → ∀ number, value = .int number → number.natAbs < Double.rangeLimit

theorem texts_of_items {holds : String → Prop}
    (each : ∀ item ∈ items, ∃ text, item = .text text ∧ holds text) :
    ∃ texts : List String, items = texts.map .text ∧ ∀ text ∈ texts, holds text := by
  induction items with
  | nil => exact ⟨[], rfl, by simp⟩
  | cons item items ih =>
      obtain ⟨⟨text, rfl, first⟩, rest⟩ := List.forall_mem_cons.mp each
      obtain ⟨texts, rfl, later⟩ := ih rest
      exact ⟨text :: texts, rfl, List.forall_mem_cons.mpr ⟨first, later⟩⟩

theorem within_of_place {least most : Option Number} {number other : Number}
    (same : number.place? = other.place?) (within : Within least most number) :
    Within least most other := by
  simpa only [Within, Number.less, same] using within

namespace FieldType

theorem read_points (admits : points.blueprint.Admits (.engine strict) value) :
    ∃ held, points.read value = .ok held := by
  obtain ⟨number, rfl, within, integral⟩ := admits
  have inRange {whole : Int} (within : Within (some (.int 1)) (some (.int 21)) (.int whole)) :
      1 ≤ whole ∧ whole ≤ 21 := by
    simpa [Within, Number.less_int] using within
  cases number with
  | int whole =>
      obtain ⟨atLeast, atMost⟩ := inRange within
      exact ⟨.count whole, read_toValue (.points atLeast atMost)⟩
  | double number =>
      obtain ⟨whole, isWhole⟩ := Option.isSome_iff_exists.mp (integral rfl)
      have same : (Number.double number).place? = (Number.int whole).place? :=
        Double.place?_of_toInt isWhole
      have bounds := inRange (within_of_place same within)
      have read : Lenient.readWhole (.double number) = .ok whole := by
        simp [Lenient.readWhole, Value.double, Double.isFinite_of_toInt isWhole, isWhole]
      have points : readPoints (.double number) = .ok whole :=
        bind_eq_ok_iff.mpr
          ⟨whole, read, refuse_eq_ok_iff.mpr ⟨pointsOutOfRange_iff.mpr bounds, rfl⟩⟩
      exact ⟨.count whole, atField_eq_ok_iff.mpr ⟨whole, points, rfl⟩⟩

theorem read_hours (admits : hours.blueprint.Admits (.engine strict) value)
    (readable : hours.Readable value) : ∃ held, hours.read value = .ok held := by
  obtain ⟨number, rfl, within, -⟩ := admits
  have notNegative : number.less (.int 0) = false := within.left _ rfl
  cases number with
  | double number => exact ⟨.measure number, read_toValue (.hours notNegative)⟩
  | int whole =>
      have finite := Double.ofInt_isFinite (readable.hours rfl whole rfl)
      have read : Lenient.readDouble (.int whole) = .ok (Double.ofInt whole) := by
        simp [Lenient.readDouble, Value.int, finite]
      have atLeast : 0 ≤ whole := by simpa [Number.less_int] using notNegative
      have hours : readHours (.int whole) = .ok (Double.ofInt whole) :=
        bind_eq_ok_iff.mpr ⟨_, read, refuse_eq_ok_iff.mpr
          ⟨Bool.eq_false_iff.mp (Double.ofInt_notNegative atLeast), rfl⟩⟩
      exact ⟨.measure (Double.ofInt whole), atField_eq_ok_iff.mpr ⟨_, hours, rfl⟩⟩

theorem read_texts {rule : TextRule} {least : Nat} {distinct : Bool}
    (yields : rule.Yields)
    (admits : (texts rule least distinct).blueprint.Admits (.engine strict) value)
    (plain : value.Plain) (readable : (texts rule least distinct).Readable value) :
    ∃ held, (texts rule least distinct).read value = .ok held := by
  obtain ⟨items, isArray, within, each, unique⟩ := admits
  obtain rfl := plain.asItems_iff.mp isArray
  have written : ∀ item ∈ items, ∃ text, item = .text text ∧ rule.Accepts text := by
    intro item member
    obtain ⟨text, isText, admits⟩ := TextRule.admits_iff.mp (each item member)
    obtain rfl := (plain.ofArray item member).asText_iff.mp isText
    refine ⟨text, rfl, yields text admits fun limited => ?_⟩
    exact Value.encodable_text_iff.mp ((readable.encodable limited).ofArray _ member)
  obtain ⟨texts, rfl, accepts⟩ := texts_of_items written
  rw [List.length_map] at within
  have nodup (wanted : distinct = true) : texts.Nodup := by
    refine (List.pairwise_map.mp (unique wanted)).imp fun different same => ?_
    rw [same, Value.same_text.mpr rfl] at different
    cases different
  exact ⟨.texts texts, read_toValue (.texts accepts (leastLimit_iff.mp within.left) nodup)⟩

/-- A value that the schema of a type admits is read, as far as the schema says enough. -/
theorem read_of_admits (yields : ∀ rule ∈ type.textRule?, rule.Yields)
    (admits : type.blueprint.Admits (.engine strict) value)
    (plain : value.Plain) (readable : type.Readable value) :
    ∃ held, type.read value = .ok held := by
  cases type with
  | text rule =>
      obtain ⟨text, isText, kept⟩ := TextRule.admits_iff.mp admits
      obtain rfl := plain.asText_iff.mp isText
      have accepts := yields rule rfl text kept fun limited =>
        Value.encodable_text_iff.mp (readable.encodable limited)
      exact ⟨.text text, read_toValue (.text accepts)⟩
  | choice options =>
      obtain ⟨option, among, isText⟩ := admits
      obtain rfl := plain.asText_iff.mp isText
      exact ⟨.text option, read_toValue (.choice among)⟩
  | texts rule least distinct => exact read_texts (yields rule rfl) admits plain readable
  | flag =>
      obtain ⟨flag, rfl⟩ := admits
      exact ⟨.flag flag, read_toValue (.flag flag)⟩
  | points => exact read_points admits
  | hours => exact read_hours admits readable
  | moment =>
      obtain ⟨text, isText, -⟩ := admits
      obtain rfl := plain.asText_iff.mp isText
      obtain ⟨moment, parsed⟩ := readable.moment rfl text rfl
      have encodable := Value.encodable_text_iff.mp (readable.encodable rfl)
      exact ⟨.moment moment, atField_eq_ok_iff.mpr
        ⟨moment, readMoment_text encodable parsed, rfl⟩⟩

end FieldType

theorem FieldType.not_admits_null (type : FieldType) :
    ¬ type.blueprint.Admits (.engine strict) .null := by
  intro admits
  cases type with
  | text | texts | points | hours | moment =>
      obtain ⟨_, impossible, -⟩ := admits
      cases impossible
  | choice =>
      obtain ⟨_, -, impossible⟩ := admits
      cases impossible
  | flag =>
      obtain ⟨_, impossible⟩ := admits
      cases impossible

/-- What a property that fits a field admits is null for an optional field, or admitted by the
schema of its type. -/
theorem Field.Fits.admits_type {field : Field} {inner : Blueprint} (fits : field.Fits inner)
    (admits : inner.Admits (.engine strict) value) :
    (value = .null ∧ field.presence = .optional) ∨
      field.type.blueprint.Admits (.engine strict) value := by
  cases fits with
  | plain => exact .inr admits
  | nullable optional =>
      rcases admits with admits | ⟨isNull, -⟩
      · exact .inr admits
      · exact .inl ⟨isNull, optional⟩
  | constant only =>
      rw [only]
      exact .inr ⟨_, List.mem_singleton_self _, Value.same_text.mp admits⟩

namespace Form

variable {form : Form} {blueprint : Blueprint} {members : Members} {field : Field}

/-- Whether what the schema leaves open is right for every field that is there. -/
def Readable (form : Form) (members : Members) : Prop :=
  ∀ field ∈ form, ∀ value, members.lookup field.name = some value → field.type.Readable value

theorem Fits.lookup_none (fits : form.Fits blueprint) (admitted : blueprint.AdmitsAll members)
    {name : String} (undeclared : name ∉ form.map Field.name) : members.lookup name = none := by
  cases found : members.lookup name with
  | none => rfl
  | some value =>
      have declared := admitted.key_declared (Members.mem_of_lookup found)
      exact absurd (fits.declared name declared) undeclared

theorem Fits.read_field (fits : form.Fits blueprint) (proper : form.Proper)
    (admitted : blueprint.AdmitsAll members) (plain : (Value.object members).Plain)
    (readable : form.Readable members) (inForm : field ∈ form) :
    ∃ outcome, field.read members = .ok outcome := by
  obtain ⟨inner, property, fit⟩ := fits.property field inForm
  cases found : members.lookup field.name with
  | some value =>
      have given := Field.find?_of_lookup found
      rcases fit.admits_type (admitted.value_admitted property found) with ⟨rfl, optional⟩ | admits
      · exact ⟨none, Field.read_null given optional⟩
      · obtain ⟨held, read⟩ := FieldType.read_of_admits (fits.yields field inForm) admits
          (plain.ofObject _ (Members.mem_of_lookup found)) (readable field inForm value found)
        have present : value ≠ .null := fun isNull =>
          field.type.not_admits_null (isNull ▸ admits)
        exact ⟨some held, Field.read_of_find given present read⟩
  | none =>
      -- The second name is no declared one, and a closed schema admits no other.
      have absent : field.find? members = none := by
        refine Field.find?_eq_none found ?_
        rcases proper.secondNames field inForm with same | foreign
        · rw [same, found]
        · exact fits.lookup_none admitted foreign
      cases presence : field.presence with
      | required =>
          have required := fits.present field inForm (by rw [presence]; rfl)
          obtain ⟨value, given⟩ := admitted.lookup_required required
          rw [found] at given
          cases given
      | optional => exact ⟨none, Field.read_absent absent presence⟩
      | withDefault held => exact ⟨some held, Field.read_default absent presence⟩

/-- The members that a schema admits are read by the form that fits it. -/
theorem Fits.read_of_admits (fits : form.Fits blueprint) (proper : form.Proper)
    (admits : blueprint.Admits (.engine true) value) (plain : value.Plain)
    (readable : ∀ members, value = .object members → form.Readable members) :
    ∃ members record, value = .object members ∧ form.readMembers members = .ok record := by
  obtain ⟨members, rfl, admitted⟩ :=
    Blueprint.admitsAll_of_closed fits.isObject fits.isClosed fits.refusesNull admits
  obtain ⟨found, reads⟩ := exists_found fun field inForm =>
    fits.read_field proper admitted plain (readable members rfl) inForm
  refine ⟨members, form.recordOf found, rfl, readMembers_of_reads reads fun member entry => ?_⟩
  have listed := fits.declared member.1 (admitted.key_declared entry)
  obtain ⟨field, inForm, same⟩ := List.mem_map.mp listed
  obtain ⟨value, given⟩ := Option.isSome_iff_exists.mp (Members.hasKey_iff.mpr ⟨member.2, entry⟩)
  refine ⟨field, inForm, ?_⟩
  rw [← same]
  exact Field.claims_of_lookup (same ▸ given)

end Form

end WorkItems
