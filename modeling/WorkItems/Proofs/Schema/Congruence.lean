import WorkItems.Proofs.Schema.Walk
import WorkItems.Proofs.Value.Equality

namespace WorkItems.Schema

/-! The engine respects the equality of values.

Of two values that are the same, either the walk fails for both or it finds the same issues.  What
is found of the values themselves is even equal; only the members of objects are met in the order
of their keys, so the issues come in another order where the keys do.
-/

variable {strict : Bool} {rules members changed : Members} {expected schema a b : Value}
  {items others : List Value}

section

variable {ε α β γ : Type} {ordered : Prop} {first second third further : Except ε (List α)}

/-- Whether a second outcome lists all that a first one lists and nothing else, and in the same
order as far as that is asked for. -/
def Alike (ordered : Prop) (first second : Except ε (List α)) : Prop :=
  ∀ found, first = .ok found →
    ∃ others, second = .ok others ∧ found.Perm others ∧ (ordered → found = others)

namespace Alike

theorem of_eq (same : first = second) : Alike ordered first second :=
  fun found run => ⟨found, same ▸ run, .refl _, fun _ => rfl⟩

theorem trans (alike : Alike ordered first second) (alikeToo : Alike ordered second third) :
    Alike ordered first third := by
  intro found run
  obtain ⟨others, othersRun, perm, same⟩ := alike found run
  obtain ⟨last, lastRun, permToo, sameToo⟩ := alikeToo others othersRun
  exact ⟨last, lastRun, perm.trans permToo, fun asked => (same asked).trans (sameToo asked)⟩

theorem imp {asked : Prop} (alike : Alike ordered first second) (less : asked → ordered) :
    Alike asked first second := by
  intro found run
  obtain ⟨others, othersRun, perm, same⟩ := alike found run
  exact ⟨others, othersRun, perm, fun holds => same (less holds)⟩

theorem map (alike : Alike ordered first second) (convert : α → β) :
    Alike ordered (first.map (List.map convert)) (second.map (List.map convert)) := by
  intro found run
  cases first with
  | error reason => cases run
  | ok issues =>
      cases run
      obtain ⟨others, rfl, perm, same⟩ := alike issues rfl
      exact ⟨others.map convert, rfl, perm.map convert, fun asked => by rw [same asked]⟩

theorem together (alike : Alike ordered first second) (alikeToo : Alike ordered third further) :
    Alike ordered (together first third) (together second further) := by
  intro all run
  obtain ⟨found, later, foundRun, laterRun, rfl⟩ := together_eq_ok_iff.mp run
  obtain ⟨others, othersRun, perm, same⟩ := alike found foundRun
  obtain ⟨last, lastRun, permToo, sameToo⟩ := alikeToo later laterRun
  refine ⟨others ++ last, together_eq_ok_iff.mpr ⟨others, last, othersRun, lastRun, rfl⟩,
    perm.append permToo, fun asked => ?_⟩
  rw [same asked, sameToo asked]

theorem gather {run : β → Except ε (List α)} {other : γ → Except ε (List α)} {entries : List β}
    {counterparts : List γ}
    (each : List.Forall₂ (fun entry counterpart => Alike ordered (run entry) (other counterpart))
      entries counterparts) :
    Alike ordered (gather run entries) (gather other counterparts) := by
  induction each with
  | nil => exact of_eq rfl
  | cons head _ ih => exact head.together ih

theorem gather_perm {run : β → Except ε (List α)} {entries counterparts : List β}
    (perm : entries.Perm counterparts) (same : ordered → entries = counterparts) :
    Alike ordered (WorkItems.gather run entries) (WorkItems.gather run counterparts) := by
  intro all gathered
  obtain ⟨found, each, rfl⟩ := gather_eq_ok_iff.mp gathered
  refine ⟨counterparts.flatMap found, gather_of_ok fun item among => ?_, perm.flatMap_right found,
    fun asked => by rw [same asked]⟩
  exact each item (perm.mem_iff.mpr among)

end Alike

end

theorem numberIssues_of_agrees {number other : Number} (agree : number.agrees other = true) :
    numberIssues rules number = numberIssues rules other := by
  have below : (fun limit => number.less limit) = fun limit => other.less limit :=
    funext fun limit => (Number.less_of_agrees agree limit).left
  have above : (fun limit : Number => limit.less number) = fun limit => limit.less other :=
    funext fun limit => (Number.less_of_agrees agree limit).right
  rw [numberIssues, numberIssues, below, above]

theorem scalarIssues_of_text {text : String} (isText : a.asText? = some text) :
    scalarIssues rules expected a =
      if expected.isText "string" then textIssues rules text else .ok [] := by
  cases a with
  | text | term =>
      cases isText
      rfl
  | null | bool | number | array | tuple | object | foreign => cases isText

theorem scalarIssues_of_kind (notString : a.kind ≠ .string) (notNumber : a.kind ≠ .number) :
    scalarIssues rules expected a = .ok [] := by
  cases a with
  | text | term => exact absurd rfl notString
  | number => exact absurd rfl notNumber
  | null | bool | array | tuple | object | foreign => rfl

theorem scalarIssues_of_same (same : a.same b = true) :
    scalarIssues rules expected a = scalarIssues rules expected b := by
  have sameKind := Value.kind_of_same same
  cases a with
  | text | term =>
      rw [scalarIssues_of_text rfl, scalarIssues_of_text ((Value.same_of_text rfl).mp same)]
  | number number =>
      cases b with
      | number other => rw [scalarIssues, scalarIssues, numberIssues_of_agrees same]
      | null | bool | text | term | array | tuple | object | foreign => cases same
  | null | bool | array | tuple | object | foreign =>
      have notString : b.kind ≠ .string := by
        intro isString
        cases sameKind.trans isString
      have notNumber : b.kind ≠ .number := by
        intro isNumber
        cases sameKind.trans isNumber
      rw [scalarIssues_of_kind notString notNumber]
      rfl

theorem enumIssues_of_same (keyed : a.Keyed) (same : a.same b = true) :
    enumIssues rules a = enumIssues rules b := by
  rw [enumIssues, enumIssues, Value.same_congr keyed same]

theorem constIssues_of_same (keyed : a.Keyed) (same : a.same b = true) :
    constIssues rules a = constIssues rules b := by
  rw [constIssues, constIssues, Value.same_congr keyed same]

theorem hasType_of_same (same : a.same b = true) : hasType a expected = hasType b expected := by
  have integral : isIntegral a = isIntegral b := by
    cases a <;> cases b <;>
      first
        | rfl
        | exact Number.isIntegral_of_agrees same
        | cases same
  rw [hasType, hasType, integral, Value.kind_of_same same]

theorem isNull_of_same (same : a.same b = true) : a.isNull = b.isNull := by
  have byKind : ∀ value : Value, value.isNull = decide (value.kind = .null) := fun value => by
    cases value <;> rfl
  rw [byKind, byKind, Value.kind_of_same same]

theorem settled?_of_same (same : a.same b = true) : settled? rules a = settled? rules b := by
  rw [settled?, settled?, isNull_of_same same, hasType_of_same same, Value.kind_of_same same]

theorem any_of_same {test : Value → Bool} (same : Value.EachSame items others)
    (respects : ∀ item ∈ items, ∀ other, item.same other = true → test item = test other) :
    items.any test = others.any test := by
  induction same with
  | nil => rfl
  | cons head _ ih =>
      obtain ⟨first, rest⟩ := List.forall_mem_cons.mp respects
      rw [List.any_cons, List.any_cons, first _ head, ih rest]

theorem allDistinct_of_same (same : Value.EachSame items others)
    (keyed : ∀ item ∈ items, item.Keyed) :
    Value.allDistinct items = Value.allDistinct others := by
  induction same with
  | nil => rfl
  | @cons item other items others head tail ih =>
      obtain ⟨first, rest⟩ := List.forall_mem_cons.mp keyed
      -- The rest is looked through for either head, which are the same.
      have again : items.any other.same = others.any other.same :=
        any_of_same tail fun item member _ sameItem =>
          Value.same_congr_right (rest item member) sameItem other
      rw [Value.allDistinct, Value.allDistinct, Value.same_congr first head, again, ih rest]

theorem arrayIssues_of_same (same : Value.EachSame items others)
    (keyed : ∀ item ∈ items, item.Keyed) :
    arrayIssues rules items = arrayIssues rules others := by
  rw [arrayIssues, arrayIssues, same.length_eq, allDistinct_of_same same keyed]

theorem missingIssues_of_same (distinct : Members.Distinct members)
    (same : (Value.object members).same (.object changed) = true) :
    missingIssues rules members = missingIssues rules changed := by
  have required : hasRequired members = hasRequired changed := by
    funext name
    cases named : name.asText? <;> simp [hasRequired, named, Value.hasKey_of_same distinct same]
  rw [missingIssues, missingIssues, required]

theorem wholeIssues_of_array (isArray : a.asItems? = some items) :
    wholeIssues rules expected a =
      if expected.isText "array" then arrayIssues rules items else .ok [] := by
  cases a with
  | array | tuple =>
      cases isArray
      rfl
  | null | bool | number | text | term | object | foreign => cases isArray

theorem wholeIssues_of_kind (notArray : a.kind ≠ .array) (notObject : a.kind ≠ .object) :
    wholeIssues rules expected a = .ok [] := by
  cases a with
  | array | tuple => exact absurd rfl notArray
  | object => exact absurd rfl notObject
  | null | bool | number | text | term | foreign => rfl

theorem wholeIssues_of_same (keyed : a.Keyed) (same : a.same b = true) :
    wholeIssues rules expected a = wholeIssues rules expected b := by
  have sameKind := Value.kind_of_same same
  cases a with
  | array | tuple =>
      obtain ⟨others, isArray, sameEach⟩ := (Value.same_of_items rfl).mp same
      rw [wholeIssues_of_array rfl, wholeIssues_of_array isArray,
        arrayIssues_of_same sameEach (keyed.ofItems rfl)]
  | object members =>
      obtain ⟨changed, rfl, -⟩ := Value.same_object_iff.mp same
      rw [wholeIssues, wholeIssues,
        missingIssues_of_same (Value.keyed_object_iff.mp keyed).left same]
  | null | bool | number | text | term | foreign =>
      have notArray : b.kind ≠ .array := by
        intro isArray
        cases sameKind.trans isArray
      have notObject : b.kind ≠ .object := by
        intro isObject
        cases sameKind.trans isObject
      rw [wholeIssues_of_kind notArray notObject]
      rfl

/-- What is found of a value itself is the same for values that are the same. -/
theorem ownIssues_of_same (keyed : a.Keyed) (same : a.same b = true) :
    ownIssues rules expected a = ownIssues rules expected b := by
  rw [ownIssues, ownIssues, scalarIssues_of_same same, enumIssues_of_same keyed same,
    constIssues_of_same keyed same, wholeIssues_of_same keyed same]

theorem itemsIssues_alike (same : Value.EachSame items others)
    (each : ∀ item ∈ items, ∀ other, item.same other = true → ∀ rules,
      Alike (item.SameOrder other) (fieldIssues strict (.object rules) item)
        (fieldIssues strict (.object rules) other)) (position : Nat) :
    Alike (Value.SameOrderItems items others)
      (gather (itemIssues strict schema) (items.zipIdx position))
      (gather (itemIssues strict schema) (others.zipIdx position)) := by
  induction same generalizing position with
  | nil => exact .of_eq rfl
  | @cons item other items others head _ ih =>
      obtain ⟨first, rest⟩ := List.forall_mem_cons.mp each
      have found : Alike (item.SameOrder other) (itemIssues strict schema (item, position))
          (itemIssues strict schema (other, position)) := by
        cases schema with
        | object rules => exact (first other head rules).map _
        | null | bool | number | text | term | array | tuple | foreign => exact .of_eq rfl
      rw [List.zipIdx_cons, List.zipIdx_cons]
      exact (found.imp And.left).together ((ih rest (position + 1)).imp And.right)

theorem memberIssues_alike {ordered : Prop} {key : String}
    (alike : ∀ schema, Alike ordered (fieldIssues strict schema a) (fieldIssues strict schema b)) :
    Alike ordered (memberIssues strict rules key a) (memberIssues strict rules key b) := by
  rcases memberIssues_cases rules key with ⟨fault, fails⟩ | ⟨-, told⟩ | ⟨-, walked⟩
  · rw [fails, fails]
    exact .of_eq rfl
  · rw [told, told]
    exact .of_eq rfl
  · rw [walked, walked]
    exact (alike _).map _

/-- The members of one object are walked in the order of their keys in the other one first; from
there to their own order the issues of every member stay as they are. -/
theorem membersIssues_alike (distinct : Members.Distinct members)
    (same : (Value.object members).same (.object changed) = true)
    (each : ∀ member ∈ members, ∀ other, member.2.same other = true → ∀ schema,
      Alike (member.2.SameOrder other) (fieldIssues strict schema member.2)
        (fieldIssues strict schema other)) :
    Alike ((Value.object members).SameOrder (.object changed))
      (gather (fun member => memberIssues strict rules member.1 member.2) members)
      (gather (fun member => memberIssues strict rules member.1 member.2) changed) := by
  have reordered : Alike ((Value.object members).SameOrder (.object changed))
      (gather (fun member => memberIssues strict rules member.1 member.2) members)
      (gather (fun member => memberIssues strict rules member.1 member.2)
        (Value.inOrderOf members changed)) := by
    refine .gather (List.forall₂_map_right_iff.mpr (List.forall₂_same.mpr ?_))
    intro member entry
    refine memberIssues_alike fun schema =>
      (each member entry _ (Value.same_valueAt same member entry) schema).imp fun asked => ?_
    exact (Value.sameOrder_object_iff.mp asked).right member entry
  refine reordered.trans (.gather_perm (Value.inOrderOf_perm distinct same) fun asked => ?_)
  rw [Value.inOrderOf_of_keys (Value.sameOrder_object_iff.mp asked).left,
    Value.inOrderOf_self (Value.distinct_of_same distinct same)]

theorem partIssues_of_array (isArray : a.asItems? = some items) :
    partIssues strict rules expected a =
      if expected.isText "array" then
        gather (itemIssues strict (rules.valueAt "items")) items.zipIdx
      else .ok [] := by
  cases a with
  | array | tuple =>
      cases isArray
      rfl
  | null | bool | number | text | term | object | foreign => cases isArray

theorem partIssues_of_kind (notArray : a.kind ≠ .array) (notObject : a.kind ≠ .object) :
    partIssues strict rules expected a = .ok [] := by
  cases a with
  | array | tuple => exact absurd rfl notArray
  | object => exact absurd rfl notObject
  | null | bool | number | text | term | foreign => rfl

theorem fieldIssues_alike_of_parts (keyed : a.Keyed) (same : a.same b = true)
    (parts : ∀ rules expected, Alike (a.SameOrder b) (partIssues strict rules expected a)
      (partIssues strict rules expected b)) (schema : Value) :
    Alike (a.SameOrder b) (fieldIssues strict schema a) (fieldIssues strict schema b) := by
  rcases schema.object_or_other with ⟨rules, rfl⟩ | malformed
  · rw [fieldIssues_walk, fieldIssues_walk, settled?_of_same same, ownIssues_of_same keyed same]
    cases settled? rules b with
    | some issues => exact .of_eq rfl
    | none => exact .together (.of_eq rfl) (parts rules _)
  · rw [fieldIssues_malformed malformed, fieldIssues_malformed malformed]
    exact .of_eq rfl

/-- Values that are the same have the same issues at the same places. -/
theorem fieldIssues_alike (keyed : a.Keyed) (same : a.same b = true) (schema : Value) :
    Alike (a.SameOrder b) (fieldIssues strict schema a) (fieldIssues strict schema b) := by
  induction a using Value.byParts generalizing b schema with
  | array items ih | tuple items ih =>
      obtain ⟨others, isArray, sameEach⟩ := (Value.same_of_items rfl).mp same
      refine fieldIssues_alike_of_parts keyed same (fun rules expected => ?_) schema
      rw [partIssues_of_array rfl, partIssues_of_array isArray]
      cases expected.isText "array" with
      | false => exact .of_eq rfl
      | true =>
          have each := fun item member other sameItem rules =>
            ih item member (b := other) (keyed.ofItems rfl item member) sameItem (.object rules)
          exact (itemsIssues_alike sameEach each 0).imp fun asked => asked.ofItems rfl isArray
  | object members ih =>
      obtain ⟨distinct, keyedEach⟩ := Value.keyed_object_iff.mp keyed
      obtain ⟨changed, rfl, -⟩ := Value.same_object_iff.mp same
      refine fieldIssues_alike_of_parts keyed same (fun rules expected => ?_) schema
      rw [partIssues, partIssues]
      cases expected.isText "object" with
      | false => exact .of_eq rfl
      | true =>
          exact membersIssues_alike distinct same fun member entry other sameValue schema =>
            ih member entry (keyedEach member entry) sameValue schema
  | null | bool | number | text | term | foreign =>
      have sameKind := Value.kind_of_same same
      refine fieldIssues_alike_of_parts keyed same (fun rules expected => ?_) schema
      have notArray : b.kind ≠ .array := by
        intro isArray
        cases sameKind.trans isArray
      have notObject : b.kind ≠ .object := by
        intro isObject
        cases sameKind.trans isObject
      rw [partIssues_of_kind notArray notObject]
      exact .of_eq rfl

theorem objectIssues_alike (keyed : (Value.object members).Keyed)
    (same : (Value.object members).same (.object changed) = true) :
    Alike ((Value.object members).SameOrder (.object changed))
      (objectIssues strict rules members) (objectIssues strict rules changed) := by
  obtain ⟨distinct, keyedEach⟩ := Value.keyed_object_iff.mp keyed
  rw [objectIssues_eq_together, objectIssues_eq_together, missingIssues_of_same distinct same]
  refine .together (.of_eq rfl) (membersIssues_alike distinct same ?_)
  exact fun member entry other sameValue => fieldIssues_alike (keyedEach member entry) sameValue

theorem validate_malformed (malformed : ∀ rules, schema ≠ .object rules) :
    validate strict schema a = .error .notMapping := by
  cases schema with
  | object rules => exact absurd rfl (malformed rules)
  | null | bool | number | text | term | array | tuple | foreign => rfl

theorem validate_alike (keyed : a.Keyed) (same : a.same b = true) :
    Alike (a.SameOrder b) (validate strict schema a) (validate strict schema b) := by
  rcases schema.object_or_other with ⟨rules, rfl⟩ | malformed
  · by_cases typed : (Members.valueAt rules "type").isText "object" = true
    · rcases a.object_or_other with ⟨members, rfl⟩ | other
      · obtain ⟨changed, rfl, -⟩ := Value.same_object_iff.mp same
        rw [validate_object typed, validate_object typed]
        exact (objectIssues_alike keyed same).map _
      · have otherToo : ∀ changed, b ≠ .object changed := by
          intro changed isObject
          subst isObject
          obtain ⟨members, rfl, -⟩ := Value.same_object_iff.mp (Value.same_symm keyed same)
          exact other members rfl
        rw [validate_notObject typed other, validate_notObject typed otherToo,
          Value.kind_of_same same]
        exact .of_eq rfl
    · rw [validate_field typed, validate_field typed]
      exact (fieldIssues_alike keyed same _).map _
  · rw [validate_malformed malformed, validate_malformed malformed]
    exact .of_eq rfl

/-- The engine does not tell values apart that are the same as JSON: it fails for neither if it does
not fail for one, and then reports the same errors, in the same order where the keys have one. -/
theorem validate_same {left : List String} (keyed : a.Keyed) (same : a.same b = true)
    (run : validate strict schema a = .ok left) :
    ∃ right, validate strict schema b = .ok right ∧ left.Perm right ∧ (left = [] ↔ right = []) ∧
      (a.SameOrder b → left = right) := by
  obtain ⟨right, other, perm, ordered⟩ := validate_alike keyed same left run
  have empty : left = [] ↔ right = [] := by
    rw [← List.length_eq_zero_iff, ← List.length_eq_zero_iff, perm.length_eq]
  exact ⟨right, other, perm, empty, ordered⟩

/-- A size of at most two and two tags or more. -/
def parcelSchema : Value :=
  objectSchema [("size", numberSchema .null (.int 2) true),
    ("tags", arraySchema (textSchema .null .null .null .null) (.int 2) .null true)] [] true

def parcel : Value :=
  .object [("size", .int 3), ("tags", .array [.text "red"])]

def rewrittenParcel : Value :=
  .object [("tags", .tuple [.text "red"]), ("size", .double (Double.ofInt 3))]

theorem rewrittenParcel_same : ∃ right, validate true parcelSchema rewrittenParcel = .ok right ∧
    ["size: Maximum value is 2", "tags: Minimum items is 2"].Perm right ∧
    (["size: Maximum value is 2", "tags: Minimum items is 2"] = [] ↔ right = []) ∧
    (parcel.SameOrder rewrittenParcel →
      ["size: Maximum value is 2", "tags: Minimum items is 2"] = right) := by
  have keyed : parcel.Keyed := by
    simp [parcel, Value.Keyed, Members.Distinct, Value.Every, Value.EveryItem, Value.int]
  have same : parcel.same rewrittenParcel = true := by decide +kernel
  have run : validate true parcelSchema parcel =
      .ok ["size: Maximum value is 2", "tags: Minimum items is 2"] :=
    eq_ok_of_toOption (by decide +kernel)
  exact validate_same keyed same run

end WorkItems.Schema
