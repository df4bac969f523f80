import WorkItems.Path
import WorkItems.Proofs.Number.Amount
import WorkItems.Proofs.Value.Equality

namespace WorkItems.Value

/-! Equality of values as JSON, clause by clause.

`Equal` says what it means for two JSON values to be equal: scalars by what they stand for, arrays
by their positions and objects by their keys.  The equality that the engine computes is this one
on all values that have no number without an amount.
-/

variable {a b : Value} {items others : List Value} {members changed : Members}

inductive Equal : Value → Value → Prop
  | null : Equal .null .null
  | bool (flag : Bool) : Equal (.bool flag) (.bool flag)
  | number {a b : Number} {amount : Amount} :
      a.amount? = some amount → b.amount? = some amount → Equal (.number a) (.number b)
  | text {a b : Value} {text : String} :
      a.asText? = some text → b.asText? = some text → Equal a b
  | array {a b : Value} {items others : List Value} :
      a.asItems? = some items → b.asItems? = some others → items.length = others.length →
      (∀ (position : Nat) (item other : Value), items[position]? = some item →
        others[position]? = some other → Equal item other) → Equal a b
  | object {members others : Members} :
      (∀ key, members.hasKey key = others.hasKey key) →
      (∀ key value other, members.lookup key = some value → others.lookup key = some other →
        Equal value other) → Equal (.object members) (.object others)

/-- Not foreign, no number without an amount, and no object that has a key twice. -/
def ComparablePart : Value → Prop
  | .foreign .. => False
  | .number value => ∃ amount, value.amount? = some amount
  | .object members => Members.Distinct members
  | _ => True

/-- A JSON value in which every number stands for an amount. -/
def Comparable (value : Value) : Prop :=
  value.Every ComparablePart

theorem Comparable.keyed (comparable : a.Comparable) : a.Keyed :=
  Every.imp comparable fun part holds members isObject => by
    rw [isObject] at holds
    exact holds

theorem Comparable.ofItems (comparable : a.Comparable) (isArray : a.asItems? = some items) :
    ∀ item ∈ items, item.Comparable :=
  Every.ofItems comparable isArray

theorem comparable_object_iff : (Value.object members).Comparable ↔
    Members.Distinct members ∧ ∀ member ∈ members, member.2.Comparable :=
  every_object_iff

/-- Arrays are the same when they are as long as each other and the same at every position. -/
theorem eachSame_iff : EachSame items others ↔ items.length = others.length ∧
    ∀ (position : Nat) (item other : Value), items[position]? = some item →
      others[position]? = some other → item.same other = true := by
  rw [EachSame, List.forall₂_iff_get]
  refine and_congr_right fun _ => ⟨?_, ?_⟩
  · intro each position item other isItem isOther
    obtain ⟨within, rfl⟩ := List.getElem?_eq_some_iff.mp isItem
    obtain ⟨alsoWithin, rfl⟩ := List.getElem?_eq_some_iff.mp isOther
    exact each position within alsoWithin
  · intro each position within alsoWithin
    exact each position _ _ (List.getElem?_eq_getElem within) (List.getElem?_eq_getElem alsoWithin)

/-- Objects with distinct keys are the same when they have the same keys and the same value at
each. -/
theorem same_object_iff_keys (distinct : Members.Distinct members)
    (alsoDistinct : Members.Distinct changed) :
    (Value.object members).same (.object changed) = true ↔
      (∀ key, members.hasKey key = changed.hasKey key) ∧
        ∀ key value other, members.lookup key = some value → changed.lookup key = some other →
          value.same other = true := by
  constructor
  · intro same
    refine ⟨hasKey_of_same distinct same, fun key value other found alsoFound => ?_⟩
    have sameValue := same_valueAt same (key, value) (Members.mem_of_lookup found)
    rw [Members.valueAt, alsoFound] at sameValue
    exact sameValue
  · rintro ⟨sameKeys, each⟩
    have sameListed (key : String) : key ∈ Members.keys members ↔ key ∈ Members.keys changed := by
      rw [← Members.hasKey_iff_mem_keys, ← Members.hasKey_iff_mem_keys, sameKeys]
    have sameLength := ((List.perm_ext_iff_of_nodup distinct alsoDistinct).mpr
      sameListed).length_eq
    rw [List.length_map, List.length_map] at sameLength
    refine same_object_iff.mpr ⟨changed, rfl, sameLength, fun member entry => ?_⟩
    have found := Members.lookup_of_mem distinct entry
    have alsoHas : changed.hasKey member.1 = true := by
      rw [← sameKeys, Members.hasKey, found]
      rfl
    obtain ⟨other, alsoFound⟩ := Option.isSome_iff_exists.mp alsoHas
    exact ⟨other, alsoFound, each _ _ _ found alsoFound⟩

theorem equal_of_same (comparable : a.Comparable) (alsoComparable : b.Comparable)
    (same : a.same b = true) : a.Equal b := by
  induction a using Value.byParts generalizing b with
  | null =>
      obtain rfl := same_null_iff.mp same
      exact .null
  | bool flag =>
      obtain rfl := same_bool_iff.mp same
      exact .bool flag
  | number value =>
      obtain ⟨other, rfl, agree⟩ := same_number_iff.mp same
      obtain ⟨amount, counted⟩ := Every.whole comparable
      exact .number counted ((Number.agrees_iff_amount counted).mp agree)
  | text value => exact .text rfl ((same_of_text rfl).mp same)
  | term value => exact .text rfl ((same_of_text rfl).mp same)
  | array items ih | tuple items ih =>
      obtain ⟨others, isArray, sameEach⟩ := (same_of_items rfl).mp same
      obtain ⟨sameLength, each⟩ := eachSame_iff.mp sameEach
      refine .array rfl isArray sameLength fun position item other isItem isOther => ?_
      have among := List.mem_of_getElem? isItem
      exact ih item among (comparable.ofItems rfl item among)
        (alsoComparable.ofItems isArray other (List.mem_of_getElem? isOther))
        (each position item other isItem isOther)
  | object members ih =>
      obtain ⟨changed, rfl, -⟩ := same_object_iff.mp same
      obtain ⟨distinct, each⟩ := comparable_object_iff.mp comparable
      obtain ⟨alsoDistinct, alsoEach⟩ := comparable_object_iff.mp alsoComparable
      obtain ⟨sameKeys, sameAt⟩ := (same_object_iff_keys distinct alsoDistinct).mp same
      refine .object sameKeys fun key value other found alsoFound => ?_
      have entry := Members.mem_of_lookup found
      exact ih _ entry (each _ entry) (alsoEach _ (Members.mem_of_lookup alsoFound))
        (sameAt key value other found alsoFound)
  | foreign kind mark => exact absurd (Every.whole comparable) id

theorem same_of_equal (equal : a.Equal b) (keyed : a.Keyed) (alsoKeyed : b.Keyed) :
    a.same b = true := by
  induction equal with
  | null => rfl
  | bool flag => exact beq_self_eq_true flag
  | number counted alsoCounted => exact (Number.agrees_iff_amount counted).mpr alsoCounted
  | text isText isAlso => exact (same_of_text isText).mpr isAlso
  | array isArray isAlso sameLength _ ih =>
      refine (same_of_items isArray).mpr ⟨_, isAlso, eachSame_iff.mpr ⟨sameLength, ?_⟩⟩
      intro position item other isItem isOther
      exact ih position item other isItem isOther
        (keyed.ofItems isArray item (List.mem_of_getElem? isItem))
        (alsoKeyed.ofItems isAlso other (List.mem_of_getElem? isOther))
  | object sameKeys _ ih =>
      obtain ⟨distinct, each⟩ := keyed_object_iff.mp keyed
      obtain ⟨alsoDistinct, alsoEach⟩ := keyed_object_iff.mp alsoKeyed
      refine (same_object_iff_keys distinct alsoDistinct).mpr ⟨sameKeys, ?_⟩
      intro key value other found alsoFound
      exact ih key value other found alsoFound (each _ (Members.mem_of_lookup found))
        (alsoEach _ (Members.mem_of_lookup alsoFound))

theorem same_iff_equal (comparable : a.Comparable) (alsoComparable : b.Comparable) :
    a.same b = true ↔ a.Equal b :=
  ⟨equal_of_same comparable alsoComparable,
    fun equal => same_of_equal equal comparable.keyed alsoComparable.keyed⟩

theorem same_refl (keyed : a.Keyed) : a.same a = true := by
  induction a using Value.byParts with
  | null => rfl
  | bool flag => exact beq_self_eq_true flag
  | number value => exact Number.agrees_refl value
  | text value => exact (same_of_text rfl).mpr rfl
  | term value => exact (same_of_text rfl).mpr rfl
  | array items ih | tuple items ih =>
      refine (same_of_items rfl).mpr ⟨items, rfl, List.forall₂_same.mpr fun item among => ?_⟩
      exact ih item among (keyed.ofItems rfl item among)
  | object members ih =>
      obtain ⟨distinct, each⟩ := keyed_object_iff.mp keyed
      refine same_object_iff.mpr ⟨members, rfl, rfl, fun member entry => ?_⟩
      exact ⟨member.2, Members.lookup_of_mem distinct entry, ih member entry (each member entry)⟩
  | foreign kind mark => exact same_foreign_iff.mpr rfl

/-- The order of the members does not count. -/
theorem same_of_perm (keyed : (Value.object members).Keyed) (reordered : members.Perm changed) :
    (Value.object members).same (.object changed) = true := by
  obtain ⟨distinct, each⟩ := keyed_object_iff.mp keyed
  have alsoDistinct : Members.Distinct changed := (reordered.map Prod.fst).nodup_iff.mp distinct
  refine same_object_iff.mpr ⟨changed, rfl, reordered.length_eq, fun member entry => ?_⟩
  exact ⟨member.2, Members.lookup_of_mem alsoDistinct (reordered.mem_iff.mp entry),
    same_refl (each member entry)⟩

def child? : Step → Value → Option Value
  | .key name, value => value.asMembers?.bind (·.lookup name)
  | .index position, value => value.asItems?.bind (·[position]?)

/-- The part of a value that a path leads to. -/
def at? : Path → Value → Option Value
  | [], value => some value
  | step :: path, value => (child? step value).bind (at? path)

/-- Whether two values, one of them with distinct keys, are the same. -/
def SamePart (part other : Value) : Prop :=
  part.Keyed ∧ part.same other = true

theorem rel_bind {α β : Type} {related : α → α → Prop} {relates : β → β → Prop}
    {first second : Option α} {next : α → Option β} (same : Option.Rel related first second)
    (each : ∀ a b, related a b → Option.Rel relates (next a) (next b)) :
    Option.Rel relates (first.bind next) (second.bind next) := by
  cases same with
  | none => exact .none
  | some holds => exact each _ _ holds

theorem same_items (keyed : ∀ item ∈ items, item.Keyed) (same : EachSame items others)
    (position : Nat) : Option.Rel SamePart items[position]? others[position]? := by
  induction same generalizing position with
  | nil => exact .none
  | cons head _ ih =>
      obtain ⟨first, rest⟩ := List.forall_mem_cons.mp keyed
      cases position with
      | zero => exact .some ⟨first, head⟩
      | succ position => exact ih rest position

theorem same_members (keyed : (Value.object members).Keyed)
    (same : (Value.object members).same (.object changed) = true) (key : String) :
    Option.Rel SamePart (members.lookup key) (changed.lookup key) := by
  obtain ⟨distinct, each⟩ := keyed_object_iff.mp keyed
  have sameKeys := hasKey_of_same distinct same key
  rw [Members.hasKey, Members.hasKey] at sameKeys
  cases found : members.lookup key with
  | none =>
      rw [found] at sameKeys
      rw [Option.isNone_iff_eq_none.mp (Option.isSome_eq_false_iff.mp sameKeys.symm)]
      exact .none
  | some value =>
      rw [found] at sameKeys
      obtain ⟨other, alsoFound⟩ := Option.isSome_iff_exists.mp sameKeys.symm
      have entry := Members.mem_of_lookup found
      have sameValue := same_valueAt same _ entry
      rw [Members.valueAt, alsoFound] at sameValue
      rw [alsoFound]
      exact .some ⟨each _ entry, sameValue⟩

theorem same_child (keyed : a.Keyed) (same : a.same b = true) (step : Step) :
    Option.Rel SamePart (child? step a) (child? step b) := by
  have sameKind := kind_of_same same
  cases step with
  | key name =>
      cases a with
      | object members =>
          obtain ⟨changed, rfl, -⟩ := same_object_iff.mp same
          exact same_members keyed same name
      | null | bool | number | text | term | array | tuple | foreign =>
          cases b <;> first | exact .none | cases sameKind
  | index position =>
      rw [child?, child?]
      cases isArray : a.asItems? with
      | some items =>
          obtain ⟨others, isAlso, sameEach⟩ := (same_of_items isArray).mp same
          rw [isAlso]
          exact same_items (keyed.ofItems isArray) sameEach position
      | none =>
          have isNot : b.asItems? = none := by
            cases a <;> cases isArray <;> cases b <;> first | rfl | cases sameKind
          rw [isNot]
          exact .none

/-- Values that are the same have the same parts at the same places. -/
theorem same_at (keyed : a.Keyed) (same : a.same b = true) (path : Path) :
    Option.Rel SamePart (a.at? path) (b.at? path) := by
  induction path generalizing a b with
  | nil => exact .some ⟨keyed, same⟩
  | cons step path ih =>
      exact rel_bind (same_child keyed same step) fun part other samePart =>
        ih samePart.left samePart.right

theorem kind_at (keyed : a.Keyed) (same : a.same b = true) (path : Path) :
    (a.at? path).map kind = (b.at? path).map kind := by
  have sameParts := same_at keyed same path
  generalize a.at? path = part, b.at? path = other at sameParts ⊢
  cases sameParts with
  | none => rfl
  | some samePart => exact congrArg some (kind_of_same samePart.right)

end WorkItems.Value
