import WorkItems.Proofs.Members
import WorkItems.Value.Same

namespace WorkItems.Value

/-! The parts of a value: the value itself, the items of its arrays and tuples and the values of
its members, at any depth.

`Every` says that a property holds of all parts.  A plain document is a value of which every part
is plain: no tuple, no term and nothing foreign, and no object with a key twice.
-/

/-- Induction on values, with a hypothesis for every item and every member. -/
@[elab_as_elim]
theorem byParts {motive : Value → Prop}
    (null : motive .null) (bool : ∀ value, motive (.bool value))
    (number : ∀ value, motive (.number value)) (text : ∀ value, motive (.text value))
    (term : ∀ value, motive (.term value))
    (array : ∀ items, (∀ item ∈ items, motive item) → motive (.array items))
    (tuple : ∀ items, (∀ item ∈ items, motive item) → motive (.tuple items))
    (object : ∀ members, (∀ member ∈ members, motive member.2) → motive (.object members))
    (foreign : ∀ kind mark, motive (.foreign kind mark)) (value : Value) : motive value := by
  refine Value.rec (motive_1 := motive) (motive_2 := fun items => ∀ item ∈ items, motive item)
    (motive_3 := fun members => ∀ member ∈ members, motive member.2)
    (motive_4 := fun member => motive member.2)
    null bool number text term array tuple object foreign ?_ ?_ ?_ ?_ ?_ value
  · intro item member
    cases member
  · intro first rest firstHolds restHolds item member
    rcases List.mem_cons.mp member with same | later
    · exact same ▸ firstHolds
    · exact restHolds item later
  · intro entry member
    cases member
  · intro first rest firstHolds restHolds entry member
    rcases List.mem_cons.mp member with same | later
    · exact same ▸ firstHolds
    · exact restHolds entry later
  · intro key value holds
    exact holds

theorem isNull_eq_false_iff {value : Value} : value.isNull = false ↔ value ≠ .null := by
  cases value <;> simp [isNull]

theorem object_or_other (value : Value) :
    (∃ members, value = .object members) ∨ ∀ members, value ≠ .object members := by
  cases value with
  | object members => exact .inl ⟨members, rfl⟩
  | null | bool | number | text | term | array | tuple | foreign =>
      exact .inr fun members impossible => nomatch impossible

mutual

/-- Whether every part of a value has a property. -/
def Every (property : Value → Prop) : Value → Prop
  | .array items => property (.array items) ∧ EveryItem property items
  | .tuple items => property (.tuple items) ∧ EveryItem property items
  | .object members => property (.object members) ∧ EveryMember property members
  | value => property value
termination_by structural value => value

def EveryItem (property : Value → Prop) : List Value → Prop
  | [] => True
  | item :: items => Every property item ∧ EveryItem property items
termination_by structural items => items

def EveryMember (property : Value → Prop) : List (String × Value) → Prop
  | [] => True
  | (_, value) :: rest => Every property value ∧ EveryMember property rest
termination_by structural members => members

end

variable {property : Value → Prop} {items : List Value} {members : Members} {value : Value}

theorem everyItem_iff : EveryItem property items ↔ ∀ item ∈ items, item.Every property := by
  induction items with
  | nil => simp [EveryItem]
  | cons item items ih => simp [EveryItem, ih]

theorem everyMember_iff :
    EveryMember property members ↔ ∀ member ∈ members, member.2.Every property := by
  induction members with
  | nil => simp [EveryMember]
  | cons member members ih => simp [EveryMember, ih]

@[simp] theorem every_array_iff : (Value.array items).Every property ↔
    property (.array items) ∧ ∀ item ∈ items, item.Every property := by
  rw [Every, everyItem_iff]

@[simp] theorem every_tuple_iff : (Value.tuple items).Every property ↔
    property (.tuple items) ∧ ∀ item ∈ items, item.Every property := by
  rw [Every, everyItem_iff]

@[simp] theorem every_object_iff : (Value.object members).Every property ↔
    property (.object members) ∧ ∀ member ∈ members, member.2.Every property := by
  rw [Every, everyMember_iff]

/-- What holds of every part holds of the whole. -/
theorem Every.whole (holds : value.Every property) : property value := by
  cases value with
  | array items => exact (every_array_iff.mp holds).1
  | tuple items => exact (every_tuple_iff.mp holds).1
  | object members => exact (every_object_iff.mp holds).1
  | null | bool value | number value | text value | term value | foreign kind mark => exact holds

theorem every_of_forall (holds : ∀ part, property part) : value.Every property := by
  induction value using Value.byParts with
  | array items ih => exact every_array_iff.mpr ⟨holds _, ih⟩
  | tuple items ih => exact every_tuple_iff.mpr ⟨holds _, ih⟩
  | object members ih => exact every_object_iff.mpr ⟨holds _, ih⟩
  | null | bool | number | text | term | foreign => exact holds _

theorem Every.imp {other : Value → Prop} (holds : value.Every property)
    (implies : ∀ part, property part → other part) : value.Every other := by
  induction value using Value.byParts with
  | array items ih =>
      obtain ⟨whole, each⟩ := every_array_iff.mp holds
      exact every_array_iff.mpr ⟨implies _ whole, fun item among => ih item among (each item among)⟩
  | tuple items ih =>
      obtain ⟨whole, each⟩ := every_tuple_iff.mp holds
      exact every_tuple_iff.mpr ⟨implies _ whole, fun item among => ih item among (each item among)⟩
  | object members ih =>
      obtain ⟨whole, each⟩ := every_object_iff.mp holds
      exact every_object_iff.mpr
        ⟨implies _ whole, fun member among => ih member among (each member among)⟩
  | null | bool | number | text | term | foreign => exact implies _ holds

theorem Every.ofItems (holds : value.Every property) (found : value.asItems? = some items) :
    ∀ item ∈ items, item.Every property := by
  cases value with
  | array elements =>
      cases found
      exact (every_array_iff.mp holds).2
  | tuple elements =>
      cases found
      exact (every_tuple_iff.mp holds).2
  | null | bool value | number value | text value | term value | object members
    | foreign kind mark => cases found

/-- Neither a tuple nor a term nor foreign, and no object that has a key twice. -/
def PlainPart : Value → Prop
  | .tuple _ | .term _ | .foreign .. => False
  | .object members => Members.Distinct members
  | _ => True

/-- A document as it is read from JSON. -/
def Plain (value : Value) : Prop :=
  value.Every PlainPart

/-- A plain value has items only as an array. -/
theorem Plain.asItems_iff (plain : value.Plain) :
    value.asItems? = some items ↔ value = .array items := by
  cases value with
  | tuple => exact absurd plain.whole id
  | _ => simp [asItems?]

/-- A plain value is a string only as a text. -/
theorem Plain.asText_iff {text : String} (plain : value.Plain) :
    value.asText? = some text ↔ value = .text text := by
  cases value with
  | term => exact absurd plain.whole id
  | _ => simp [asText?]

theorem Plain.ofArray (plain : (Value.array items).Plain) : ∀ item ∈ items, item.Plain :=
  (every_array_iff.mp plain).2

theorem Plain.ofObject (plain : (Value.object members).Plain) :
    ∀ member ∈ members, member.2.Plain :=
  (every_object_iff.mp plain).2

/-- Whether every string in a value, whatever its place, has a property. -/
def EveryText (property : String → Prop) (value : Value) : Prop :=
  value.Every fun part => ∀ text, part.asText? = some text → property text

end WorkItems.Value
