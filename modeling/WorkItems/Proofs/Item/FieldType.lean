import WorkItems.Item.Form
import WorkItems.Proofs.Number.Order
import WorkItems.Proofs.Time.MomentText

namespace WorkItems

/-! What fields hold.

`FieldType.Holds` says what a field of a type may hold, whatever it was read from.  Reading gives
nothing else, and reads the document form of what a field holds as it is.
-/

namespace TextRule

variable {rule : TextRule} {text found : String}

/-- Whether a text keeps all limits. -/
structure Accepts (rule : TextRule) (text : String) : Prop where
  encodable : rule.isLimited = true → Text.isEncodable text = true
  atLeast : rule.least ≤ text.length
  atMost : ∀ most ∈ rule.most, text.length ≤ most
  matched : ∀ written ∈ rule.pattern,
    ((formPattern? written).any fun pattern => pattern.foundIn text) = true

theorem pattern_eq_ok_iff : check.pattern rule text = .ok found ↔
    (∀ written ∈ rule.pattern,
      ((formPattern? written).any fun pattern => pattern.foundIn text) = true) ∧
      text = found := by
  rw [check.pattern]
  cases rule.pattern with
  | none => simp
  | some written =>
      cases matched : (formPattern? written).any fun pattern => pattern.foundIn text <;>
        simp [matched]

/-- A check gives back the text that it was given. -/
theorem check_eq_ok_iff : rule.check text = .ok found ↔ rule.Accepts text ∧ text = found := by
  have encodes : ¬ (rule.isLimited && !Text.isEncodable text) = true ↔
      (rule.isLimited = true → Text.isEncodable text = true) := by
    cases rule.isLimited <;> simp
  rw [check, refuse_eq_ok_iff, encodes, refuse_eq_ok_iff, Nat.not_lt]
  constructor
  · intro checked
    rcases checked with ⟨encodable, atLeast, rest⟩
    cases limit : rule.most with
    | none =>
        rw [limit, pattern_eq_ok_iff] at rest
        exact ⟨⟨encodable, atLeast, by simp [limit], rest.left⟩, rest.right⟩
    | some most =>
        simp only [limit] at rest
        rw [refuse_eq_ok_iff, Nat.not_lt, pattern_eq_ok_iff] at rest
        obtain ⟨atMost, matched, same⟩ := rest
        exact ⟨⟨encodable, atLeast, by simpa [limit] using atMost, matched⟩, same⟩
  · intro accepted
    rcases accepted with ⟨accepts, same⟩
    refine ⟨accepts.encodable, accepts.atLeast, ?_⟩
    cases limit : rule.most with
    | none => exact pattern_eq_ok_iff.mpr ⟨accepts.matched, same⟩
    | some most =>
        rw [refuse_eq_ok_iff, Nat.not_lt, pattern_eq_ok_iff]
        exact ⟨accepts.atMost most limit, accepts.matched, same⟩

theorem read_text (accepts : rule.Accepts text) : rule.read (.text text) = .ok text :=
  check_eq_ok_iff.mpr ⟨accepts, rfl⟩

theorem accepts_of_read {value : Value} (accepted : rule.read value = .ok found) :
    rule.Accepts found := by
  obtain ⟨text, -, checked⟩ := bind_eq_ok_iff.mp accepted
  obtain ⟨accepts, rfl⟩ := check_eq_ok_iff.mp checked
  exact accepts

end TextRule

variable {rule : TextRule} {texts found : List String} {items : List Value} {position : Nat}

/-- Without an issue, every item has been read. -/
theorem readEach_eq_iff : readEach rule position items = (texts, []) ↔
    items.map rule.read = texts.map .ok := by
  induction items generalizing position texts with
  | nil => simp [readEach, eq_comm]
  | cons item items ih =>
      rw [readEach, List.map_cons]
      cases read : rule.read item with
      | error fault => cases texts <;> simp
      | ok text =>
          cases texts with
          | nil => simp
          | cons first rest =>
              have later : readEach rule (position + 1) items = (rest, []) ↔
                  items.map rule.read = rest.map .ok := ih
              rw [Prod.ext_iff] at later
              simp only [List.map_cons, List.cons.injEq, Except.ok.injEq, Prod.mk.injEq, ← later,
                and_assoc]

theorem distinctTexts_iff : distinctTexts texts = true ↔ texts.Nodup := by
  induction texts with
  | nil => simp [distinctTexts]
  | cons text texts ih => simp [distinctTexts, ih]

variable {least : Nat} {distinct : Bool} {value : Value}

theorem textOf?_of_asText? {text : String} (isText : value.asText? = some text) :
    Lenient.textOf? value = some text := by
  cases value with
  | text | term => exact isText
  | null | bool | number | array | tuple | object | foreign => cases isText

theorem listOf?_of_asItems? (isArray : value.asItems? = some items) :
    listOf? value = some items := by
  cases value with
  | array | tuple => exact isArray
  | null | bool | number | text | term | object | foreign => cases isArray

/-- A list is read when every item is, when there are enough of them, and when none is there twice
where that counts. -/
theorem readTexts_eq_ok_iff : readTexts rule least distinct value = .ok found ↔
    ∃ items, listOf? value = some items ∧ readEach rule 0 items = (found, []) ∧
      least ≤ found.length ∧ (distinct = true → found.Nodup) := by
  rw [readTexts]
  cases listed : listOf? value with
  | none => simp
  | some items =>
      cases outcome : readEach rule 0 items with
      | mk texts issues =>
          have fewIssue : (issues ++ if texts.length < least then
              [FieldIssue.here (.tooFew least texts.length)] else []) = [] ↔
                issues = [] ∧ least ≤ texts.length := by
            rw [List.append_eq_nil_iff]
            by_cases few : texts.length < least
            · simp [few]
            · simp [few, Nat.le_of_not_lt few]
          simp only [outcome, Option.some.injEq, exists_eq_left', Prod.mk.injEq, refuse_eq_ok_iff,
            Bool.not_eq_true', Bool.not_eq_false, List.isEmpty_iff, fewIssue, Except.ok.injEq,
            Bool.and_eq_true]
          constructor
          · intro accepted
            rcases accepted with ⟨⟨noIssues, enough⟩, noRepeat, rfl⟩
            refine ⟨⟨rfl, noIssues⟩, enough, fun wanted => ?_⟩
            rw [← distinctTexts_iff]
            exact Bool.of_not_eq_false fun repeats => noRepeat ⟨wanted, repeats⟩
          · intro accepted
            rcases accepted with ⟨⟨rfl, noIssues⟩, enough, nodup⟩
            refine ⟨⟨noIssues, enough⟩, ?_, rfl⟩
            intro refused
            rcases refused with ⟨wanted, repeats⟩
            rw [distinctTexts_iff.mpr (nodup wanted)] at repeats
            cases repeats

theorem readTexts_refused {issues : List FieldIssue}
    (refused : readTexts rule least distinct value = .error issues) : issues ≠ [] := by
  rw [readTexts] at refused
  cases listed : listOf? value with
  | none =>
      rw [listed] at refused
      cases refused
      exact List.cons_ne_nil _ _
  | some items =>
      simp only [listed, refuse_eq_error_iff] at refused
      rcases refused with ⟨some, rfl⟩ | ⟨-, ⟨-, rfl⟩ | ⟨-, impossible⟩⟩
      · intro none
        rw [none] at some
        cases some
      · exact List.cons_ne_nil _ _
      · cases impossible

/-- What a field of a type may hold. -/
inductive FieldType.Holds : FieldType → FieldValue → Prop where
  | text {rule : TextRule} {text : String} (accepts : rule.Accepts text) :
    Holds (.text rule) (.text text)
  | choice {options : List String} {option : String} (among : option ∈ options) :
    Holds (.choice options) (.text option)
  | texts {rule : TextRule} {least : Nat} {distinct : Bool} {texts : List String}
    (each : ∀ text ∈ texts, rule.Accepts text) (enough : least ≤ texts.length)
    (nodup : distinct = true → texts.Nodup) : Holds (.texts rule least distinct) (.texts texts)
  | flag (flag : Bool) : Holds .flag (.flag flag)
  | points {points : Int} (atLeast : 1 ≤ points) (atMost : points ≤ 21) :
    Holds .points (.count points)
  | hours {hours : Double} (notNegative : (Number.double hours).less (.int 0) = false) :
    Holds .hours (.measure hours)
  | moment (moment : Moment) : Holds .moment (.moment moment)

theorem atField_eq_ok_iff {α : Type} {outcome : Except FieldFault α} {wrap : α → FieldValue}
    {held : FieldValue} : atField outcome wrap = .ok held ↔
      ∃ found, outcome = .ok found ∧ wrap found = held := by
  cases outcome with
  | ok found => simp [atField]
  | error fault => simp [atField]

theorem atField_refused {α : Type} {outcome : Except FieldFault α} {wrap : α → FieldValue}
    {issues : List FieldIssue} (refused : atField outcome wrap = .error issues) : issues ≠ [] := by
  cases outcome with
  | ok found => cases refused
  | error fault =>
      cases refused
      exact List.cons_ne_nil _ _

theorem readChoice_eq_ok_iff {options : List String} {option : String} :
    readChoice options value = .ok option ↔
      Lenient.textOf? value = some option ∧ option ∈ options := by
  rw [readChoice]
  cases Lenient.textOf? value with
  | none => simp
  | some text =>
      by_cases among : text ∈ options
      · have kept : text = option → option ∈ options := fun same => same ▸ among
        simpa [among] using kept
      · have kept : text = option → option ∉ options := fun same => same ▸ among
        simpa [among] using kept

theorem readMoment_text {text : String} {moment : Moment}
    (encodable : Text.isEncodable text = true) (read : Moment.ofText text = .ok moment) :
    Lenient.readMoment (.text text) = .ok moment := by
  have whole : Lenient.readMoment (.text text) = Lenient.momentOfText text := rfl
  rw [whole, Lenient.momentOfText, Lenient.encodable, if_pos encodable, ok_bind, read]
  rfl

theorem pointsOutOfRange_iff {points : Int} :
    ¬ Estimate.pointsOutOfRange (.int points) = true ↔ 1 ≤ points ∧ points ≤ 21 := by
  rw [Estimate.pointsOutOfRange, Number.less_int, Number.less_int]
  simp

namespace FieldType

variable {type : FieldType} {held : FieldValue}

theorem holds_of_readPoints {points : Int} (accepted : readPoints value = .ok points) :
    Holds .points (.count points) := by
  obtain ⟨found, -, inRange⟩ := bind_eq_ok_iff.mp accepted
  rw [refuse_eq_ok_iff, pointsOutOfRange_iff, Except.ok.injEq] at inRange
  obtain ⟨⟨atLeast, atMost⟩, rfl⟩ := inRange
  exact .points atLeast atMost

theorem holds_of_readHours {hours : Double} (accepted : readHours value = .ok hours) :
    Holds .hours (.measure hours) := by
  obtain ⟨found, -, inRange⟩ := bind_eq_ok_iff.mp accepted
  rw [refuse_eq_ok_iff, Except.ok.injEq] at inRange
  obtain ⟨notNegative, rfl⟩ := inRange
  exact .hours ((Bool.not_eq_true _).mp notNegative)

/-- A field holds what has been read for it. -/
theorem holds_of_read (accepted : type.read value = .ok held) : type.Holds held := by
  cases type with
  | text rule =>
      obtain ⟨text, read, rfl⟩ := atField_eq_ok_iff.mp accepted
      exact .text (TextRule.accepts_of_read read)
  | choice options =>
      obtain ⟨option, read, rfl⟩ := atField_eq_ok_iff.mp accepted
      exact .choice (readChoice_eq_ok_iff.mp read).right
  | texts rule least distinct =>
      rw [read] at accepted
      cases outcome : readTexts rule least distinct value with
      | error issues => rw [outcome] at accepted; cases accepted
      | ok texts =>
          simp only [outcome, Except.ok.injEq] at accepted
          obtain ⟨items, -, each, enough, nodup⟩ := readTexts_eq_ok_iff.mp outcome
          refine accepted ▸ .texts (fun text member => ?_) enough nodup
          obtain ⟨item, -, read⟩ := source_of_map_ok (readEach_eq_iff.mp each) text member
          exact TextRule.accepts_of_read read
  | flag =>
      obtain ⟨flag, -, rfl⟩ := atField_eq_ok_iff.mp accepted
      exact .flag flag
  | points =>
      obtain ⟨points, read, rfl⟩ := atField_eq_ok_iff.mp accepted
      exact holds_of_readPoints read
  | hours =>
      obtain ⟨hours, read, rfl⟩ := atField_eq_ok_iff.mp accepted
      exact holds_of_readHours read
  | moment =>
      obtain ⟨moment, -, rfl⟩ := atField_eq_ok_iff.mp accepted
      exact .moment moment

/-- What is refused is refused for a reason. -/
theorem issues_of_read {issues : List FieldIssue} (refused : type.read value = .error issues) :
    issues ≠ [] := by
  cases type with
  | texts rule least distinct =>
      rw [read] at refused
      cases outcome : readTexts rule least distinct value with
      | ok texts => rw [outcome] at refused; cases refused
      | error found =>
          rw [outcome] at refused
          cases refused
          exact readTexts_refused outcome
  | text | choice | flag | points | hours | moment => exact atField_refused refused

/-- The document form of what a field holds is read as it is. -/
theorem read_toValue (holds : type.Holds held) : type.read held.toValue = .ok held := by
  cases holds with
  | text accepts => exact atField_eq_ok_iff.mpr ⟨_, TextRule.read_text accepts, rfl⟩
  | @choice options option among =>
      exact atField_eq_ok_iff.mpr ⟨option, readChoice_eq_ok_iff.mpr ⟨rfl, among⟩, rfl⟩
  | @texts rule least distinct texts each enough nodup =>
      have items : (texts.map Value.text).map rule.read = texts.map .ok :=
        map_ok_of_inverse fun text member => TextRule.read_text (each text member)
      have read : readTexts rule least distinct (.array (texts.map .text)) = .ok texts :=
        readTexts_eq_ok_iff.mpr ⟨_, rfl, readEach_eq_iff.mpr items, enough, nodup⟩
      rw [FieldType.read, FieldValue.toValue, read]
  | flag flag => rfl
  | @points points atLeast atMost =>
      have read : readPoints (.int points) = .ok points :=
        refuse_eq_ok_iff.mpr ⟨pointsOutOfRange_iff.mpr ⟨atLeast, atMost⟩, rfl⟩
      exact atField_eq_ok_iff.mpr ⟨points, read, rfl⟩
  | @hours hours notNegative =>
      have read : readHours (.double hours) = .ok hours :=
        refuse_eq_ok_iff.mpr ⟨Bool.not_eq_true _ ▸ notNegative, rfl⟩
      exact atField_eq_ok_iff.mpr ⟨hours, read, rfl⟩
  | moment moment =>
      have read := readMoment_text moment.text_encodable moment.ofText_text
      rw [FieldType.read, FieldValue.toValue, read]
      rfl

end FieldType

end WorkItems
