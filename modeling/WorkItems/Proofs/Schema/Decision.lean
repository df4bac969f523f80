import WorkItems.Proofs.Outcome
import WorkItems.Proofs.Schema.Meaning

namespace WorkItems.Schema

/-! What each part of the schema engine decides, in terms of the rules that it asks for.

Nothing here knows how the rules came about; the hypotheses say what is found under their names.
-/

open Blueprint (limit word)

variable {strict : Bool} {rules members declared : Members} {value schema : Value}
variable {items : List Value} {least most : Option Number} {holds : Value → Prop}

theorem limitIssues_decides (given : Option Number) (exceeded : Number → Bool)
    (violation : Value → Violation) :
    Decides (limitIssues (limit given) exceeded violation)
      (∀ number ∈ given, exceeded number = false) := by
  cases given with
  | none => exact Decides.nothing.congr (by simp)
  | some number =>
      change Decides (.ok (if exceeded number = true then [_] else [])) _
      cases exceeds : exceeded number with
      | true => exact (Decides.refuses _ []).congr (by simp [exceeds])
      | false => exact Decides.nothing.congr (by simp [exceeds])

theorem patternIssues_decides (strict : Bool) (pattern : Option String) (text : String)
    (sound : ∀ written ∈ pattern, (Pattern.ofTextClosed? written.toList).isSome = true) :
    Decides (patternIssues (word pattern) text)
      (∀ written ∈ pattern, (Reading.engine strict).finds written text = true) := by
  cases pattern with
  | none => exact Decides.nothing.congr (by simp)
  | some written =>
      obtain ⟨meaning, parsed⟩ := Option.isSome_iff_exists.mp (sound written rfl)
      have run : patternIssues (word (some written)) text =
          .ok (if meaning.foundIn text = true then [] else
            [.here (.unmatched (.text written))]) := by
        simp [patternIssues, word, Value.asText?, parsed]
      rw [run]
      exact (Decides.ofTest _ _).congr (by simp [Reading.engine, parsed])

theorem textIssues_decides (strict : Bool) {minLength maxLength : Option Number}
    {pattern : Option String} (text : String)
    (short : rules.valueAt "minLength" = limit minLength)
    (long : rules.valueAt "maxLength" = limit maxLength)
    (written : rules.valueAt "pattern" = word pattern)
    (sound : ∀ written ∈ pattern, (Pattern.ofTextClosed? written.toList).isSome = true) :
    Decides (textIssues rules text) (Within minLength maxLength (.int text.length) ∧
      ∀ written ∈ pattern, (Reading.engine strict).finds written text = true) := by
  rw [textIssues, short, long, written]
  refine (limitIssues_decides minLength _ .tooShort).bind fun tooShort shortEmpty => ?_
  refine (limitIssues_decides maxLength _ .tooLong).bind fun tooLong longEmpty => ?_
  refine (patternIssues_decides strict pattern text sound).bind
    fun unmatched unmatchedEmpty => ?_
  refine ⟨_, rfl, ?_⟩
  rw [List.append_eq_nil_iff, List.append_eq_nil_iff, shortEmpty, longEmpty, unmatchedEmpty]
  rfl

theorem numberIssues_decides {minimum maximum : Option Number} (number : Number)
    (small : rules.valueAt "minimum" = limit minimum)
    (large : rules.valueAt "maximum" = limit maximum) :
    Decides (numberIssues rules number) (Within minimum maximum number) := by
  rw [numberIssues, small, large]
  exact (limitIssues_decides minimum _ .tooSmall).append (limitIssues_decides maximum _ .tooLarge)

theorem allDistinct_iff : Value.allDistinct items = true ↔
    items.Pairwise fun first second => first.same second = false := by
  induction items with
  | nil => simp [Value.allDistinct]
  | cons item items ih => simp [Value.allDistinct, ih]

theorem arrayIssues_decides {minItems maxItems : Option Number} {unique : Bool}
    (few : rules.valueAt "minItems" = limit minItems)
    (many : rules.valueAt "maxItems" = limit maxItems)
    (distinct : rules.valueAt "uniqueItems" = if unique then .bool true else .null) :
    Decides (arrayIssues rules items) (Within minItems maxItems (.int items.length) ∧
      (unique = true → items.Pairwise fun first second => first.same second = false)) := by
  rw [arrayIssues, few, many, distinct]
  refine (limitIssues_decides minItems _ .tooFew).bind fun tooFew fewEmpty => ?_
  refine (limitIssues_decides maxItems _ .tooMany).bind fun tooMany manyEmpty => ?_
  refine ⟨_, rfl, ?_⟩
  rw [List.append_eq_nil_iff, List.append_eq_nil_iff, fewEmpty, manyEmpty, ← allDistinct_iff]
  refine and_congr Iff.rfl ?_
  cases unique with
  | false => simp
  | true => simp

theorem itemsIssues_decides {itemRules : Members} (items : List Value) (position : Nat)
    (each : ∀ item, Decides (fieldIssues strict (.object itemRules) item) (holds item)) :
    Decides (itemsIssues strict (.object itemRules) position items)
      (∀ item ∈ items, holds item) := by
  induction items generalizing position with
  | nil => exact Decides.nothing.congr (by simp)
  | cons item items ih =>
      rw [itemsIssues, List.forall_mem_cons]
      refine (each item).bind fun first firstEmpty => ?_
      refine (ih (position + 1)).bind fun others othersEmpty => ?_
      refine ⟨_, rfl, ?_⟩
      rw [List.append_eq_nil_iff, List.map_eq_nil_iff, firstEmpty, othersEmpty]

/-- The names that are missing, in the order in which they are required. -/
theorem missingIssues_eq {names : List String}
    (required : (rules.lookup "required").getD (.array []) = .array (names.map .text)) :
    missingIssues rules members = .ok ((names.filter fun name => !members.hasKey name).map
      fun name => .here (.missing (.text name))) := by
  have present : ∀ name ∈ names.map Value.text, (do
      let present ← hasRequired members name
      pure !present) = Except.ok (!members.hasKey (name.asText?.getD "")) := by
    intro name member
    obtain ⟨text, _, rfl⟩ := List.mem_map.mp member
    rfl
  rw [missingIssues]
  cases found : rules.lookup "required" with
  | none =>
      rw [found, Option.getD_none, Value.array.injEq] at required
      have noNames : names = [] := List.map_eq_nil_iff.mp required.symm
      subst noNames
      rfl
  | some entry =>
      rw [found, Option.getD_some] at required
      subst required
      simp only [elements, ok_bind, filterM_eq_filter present]
      rw [List.filter_map]
      exact congrArg Except.ok List.map_map

theorem missingIssues_decides {names : List String}
    (required : (rules.lookup "required").getD (.array []) = .array (names.map .text)) :
    Decides (missingIssues rules members) (∀ name ∈ names, members.hasKey name = true) :=
  ⟨_, missingIssues_eq required, by simp⟩

theorem propertySchema_eq (key : String) :
    propertySchema (.object declared) key = .ok (declared.valueAt key) := by
  cases declared <;> rfl

/-- The members of an object, one by one: a declared one is checked by its schema, and another one
is refused where that is what the rules say. -/
theorem membersIssues_decides {holds : String → Value → Prop}
    (properties : rules.lookup "properties" = some (.object declared))
    (undeclared : ∀ key value, declared.lookup key = none →
      (holds key value ↔ forbidsUndeclared strict rules = false))
    (each : ∀ key schema value, declared.lookup key = some schema →
      schema.isNull = false ∧ Decides (fieldIssues strict schema value) (holds key value)) :
    Decides (membersIssues strict rules members) (∀ member ∈ members, holds member.1 member.2) := by
  induction members with
  | nil => exact Decides.nothing.congr (by simp)
  | cons member rest ih =>
      obtain ⟨key, value⟩ := member
      rw [membersIssues, List.forall_mem_cons, Members.valueAt, properties, Option.getD_some,
        propertySchema_eq, ok_bind, Members.valueAt]
      cases found : declared.lookup key with
      | none =>
          rw [undeclared key value found]
          have first : Decides
              (.ok (if forbidsUndeclared strict rules then [Issue.here (.undeclared key)] else []) :
                Except Fault (List Issue)) (forbidsUndeclared strict rules = false) := by
            cases forbidsUndeclared strict rules with
            | true => exact (Decides.refuses _ []).congr (by simp)
            | false => exact Decides.nothing.congr (by simp)
          exact first.append ih
      | some schema =>
          obtain ⟨notNull, decides⟩ := each key schema value found
          rw [Option.getD_some, if_neg (by rw [notNull]; exact Bool.false_ne_true)]
          refine decides.bind fun issues issuesEmpty => ?_
          have first : Decides (pure (issues.map (.under (.key key))) : Except Fault (List Issue))
              (holds key value) := ⟨_, rfl, List.map_eq_nil_iff.trans issuesEmpty⟩
          exact first.append ih

end WorkItems.Schema
