import Mathlib.Data.List.Forall2
import Mathlib.Data.List.Nodup
import Mathlib.Data.List.Perm.Subperm
import WorkItems.Proofs.Number.Agreement
import WorkItems.Proofs.Value.Same

namespace WorkItems.Value

/-! Equality of values as JSON, as an equivalence.

The equality looks for every member of one object in the other.  As long as no key is there twice
this is symmetric, and the members of the other object are then the same keys in another order.
-/

variable {a b c : Value} {items others thirds : List Value} {members changed : Members}
  {text : String}

/-- Whether no object in a value has a key twice. -/
def Keyed (value : Value) : Prop :=
  value.Every fun part => ∀ members, part = .object members → Members.Distinct members

theorem Keyed.ofItems (keyed : a.Keyed) (isArray : a.asItems? = some items) :
    ∀ item ∈ items, item.Keyed :=
  Every.ofItems keyed isArray

theorem keyed_object_iff : (Value.object members).Keyed ↔
    Members.Distinct members ∧ ∀ member ∈ members, member.2.Keyed := by
  rw [Keyed, every_object_iff]
  simp [Keyed]

theorem same_null_iff : Value.null.same b = true ↔ b = .null := by
  cases b with
  | null => exact iff_of_true rfl rfl
  | bool | number | text | term | array | tuple | object | foreign =>
      exact iff_of_false Bool.false_ne_true nofun

theorem same_bool_iff {flag : Bool} : (Value.bool flag).same b = true ↔ b = .bool flag := by
  cases b with
  | bool other =>
      refine beq_iff_eq.trans ⟨fun equal => equal ▸ rfl, fun equal => ?_⟩
      cases equal
      rfl
  | null | number | text | term | array | tuple | object | foreign =>
      exact iff_of_false Bool.false_ne_true nofun

theorem same_number_iff {number : Number} : (Value.number number).same b = true ↔
    ∃ other, b = .number other ∧ number.agrees other = true := by
  cases b with
  | number other =>
      refine ⟨fun agree => ⟨other, rfl, agree⟩, ?_⟩
      rintro ⟨_, equal, agree⟩
      cases equal
      exact agree
  | null | bool | text | term | array | tuple | object | foreign =>
      refine iff_of_false Bool.false_ne_true ?_
      rintro ⟨_, equal, -⟩
      cases equal

theorem same_foreign_iff {kind : ForeignKind} {mark : Nat} :
    (Value.foreign kind mark).same b = true ↔ b = .foreign kind mark := by
  cases b with
  | foreign otherKind otherMark =>
      refine Bool.and_eq_true_iff.trans ?_
      rw [beq_iff_eq, beq_iff_eq]
      constructor
      · rintro ⟨rfl, rfl⟩
        rfl
      · intro equal
        cases equal
        exact ⟨rfl, rfl⟩
  | null | bool | number | text | term | array | tuple | object =>
      exact iff_of_false Bool.false_ne_true nofun

theorem same_to_text (isText : b.asText? = some text) :
    a.same b = true ↔ a.asText? = some text := by
  rw [← same_text]
  cases b with
  | text | term =>
      cases isText
      cases a <;> rfl
  | null | bool | number | array | tuple | object | foreign => cases isText

/-- Whether the items of two arrays are the same one by one. -/
def EachSame : List Value → List Value → Prop :=
  List.Forall₂ fun item other => item.same other = true

theorem sameItems_iff : sameItems items others = true ↔ EachSame items others := by
  induction items generalizing others with
  | nil =>
      cases others with
      | nil => exact iff_of_true rfl .nil
      | cons => exact iff_of_false Bool.false_ne_true nofun
  | cons item items ih =>
      cases others with
      | nil => exact iff_of_false Bool.false_ne_true nofun
      | cons other others =>
          rw [EachSame, List.forall₂_cons]
          exact Bool.and_eq_true_iff.trans (and_congr_right' ih)

theorem same_of_items (isArray : a.asItems? = some items) :
    a.same b = true ↔ ∃ others, b.asItems? = some others ∧ EachSame items others := by
  cases a with
  | array elements | tuple elements =>
      cases isArray
      cases b with
      | array others | tuple others =>
          refine sameItems_iff.trans ⟨fun same => ⟨others, rfl, same⟩, ?_⟩
          rintro ⟨_, found, same⟩
          cases found
          exact same
      | null | bool | number | text | term | object | foreign =>
          refine iff_of_false Bool.false_ne_true ?_
          rintro ⟨_, found, -⟩
          cases found
  | null | bool | number | text | term | object | foreign => cases isArray

theorem sameMembers_iff : sameMembers members changed = true ↔
    ∀ member ∈ members, ∃ other, changed.lookup member.1 = some other ∧
      member.2.same other = true := by
  induction members with
  | nil => exact iff_of_true rfl (List.forall_mem_nil _)
  | cons member rest ih =>
      obtain ⟨key, value⟩ := member
      refine Bool.and_eq_true_iff.trans ?_
      rw [ih, List.forall_mem_cons]
      cases changed.lookup key <;> simp

theorem same_object_iff : (Value.object members).same b = true ↔
    ∃ changed, b = .object changed ∧ members.length = changed.length ∧
      ∀ member ∈ members, ∃ other, changed.lookup member.1 = some other ∧
        member.2.same other = true := by
  cases b with
  | object others =>
      refine Bool.and_eq_true_iff.trans ?_
      rw [beq_iff_eq, sameMembers_iff]
      simp
  | null | bool | number | text | term | array | tuple | foreign =>
      refine iff_of_false Bool.false_ne_true ?_
      rintro ⟨_, equal, -⟩
      cases equal

/-- The values of other members, in the order in which members have the keys. -/
def inOrderOf (members changed : Members) : Members :=
  members.map fun member => (member.1, changed.valueAt member.1)

theorem map_fst_inOrderOf (members changed : Members) :
    (inOrderOf members changed).map Prod.fst = members.map Prod.fst := by
  rw [inOrderOf, List.map_map]
  rfl

theorem inOrderOf_self (distinct : Members.Distinct members) :
    inOrderOf members members = members := by
  have unchanged : ∀ member ∈ members, (member.1, Members.valueAt members member.1) = member := by
    intro member entry
    rw [Members.valueAt, Members.lookup_of_mem distinct entry]
    rfl
  rw [inOrderOf, List.map_congr_left unchanged, List.map_id']

theorem inOrderOf_of_keys (sameKeys : Members.keys members = Members.keys changed) :
    inOrderOf members changed = inOrderOf changed changed := by
  have byKeys : ∀ entries : Members, inOrderOf entries changed =
      (Members.keys entries).map fun key => (key, changed.valueAt key) := fun entries => by
    rw [inOrderOf, Members.keys, List.map_map]
    rfl
  rw [byKeys, byKeys, sameKeys]

section

variable (distinct : Members.Distinct members)
  (same : (Value.object members).same (.object changed) = true)

include same

theorem same_valueAt : ∀ member ∈ members, member.2.same (changed.valueAt member.1) = true := by
  intro member entry
  obtain ⟨others, sameObject, -, each⟩ := same_object_iff.mp same
  cases sameObject
  obtain ⟨other, found, sameValue⟩ := each member entry
  rw [Members.valueAt, found]
  exact sameValue

include distinct

/-- Equal objects have the same keys, so one of them is the other in a different order. -/
theorem inOrderOf_perm : (inOrderOf members changed).Perm changed := by
  obtain ⟨others, sameObject, sameLength, each⟩ := same_object_iff.mp same
  cases sameObject
  have nodup : (inOrderOf members changed).Nodup :=
    List.Nodup.of_map Prod.fst ((map_fst_inOrderOf members changed).symm ▸ distinct)
  refine (nodup.subperm ?_).perm_of_length_le ?_
  · intro entry among
    obtain ⟨member, listed, rfl⟩ := List.mem_map.mp among
    obtain ⟨other, found, -⟩ := each member listed
    rw [Members.valueAt, found]
    exact Members.mem_of_lookup found
  · rw [inOrderOf, List.length_map]
    exact Nat.le_of_eq sameLength.symm

theorem keys_perm_of_same : (Members.keys members).Perm (Members.keys changed) := by
  have sameKeys := (inOrderOf_perm distinct same).map Prod.fst
  rwa [map_fst_inOrderOf] at sameKeys

theorem distinct_of_same : Members.Distinct changed :=
  (keys_perm_of_same distinct same).nodup_iff.mp distinct

theorem hasKey_of_same (key : String) : members.hasKey key = changed.hasKey key := by
  rw [Bool.eq_iff_iff, Members.hasKey_iff_mem_keys, Members.hasKey_iff_mem_keys]
  exact (keys_perm_of_same distinct same).mem_iff

end

theorem EachSame.symm (same : EachSame items others)
    (each : ∀ item ∈ items, ∀ other, item.same other = true → other.same item = true) :
    EachSame others items := by
  induction same with
  | nil => exact .nil
  | cons head _ ih =>
      obtain ⟨first, rest⟩ := List.forall_mem_cons.mp each
      exact .cons (first _ head) (ih rest)

theorem EachSame.trans (same : EachSame items others) (again : EachSame others thirds)
    (each : ∀ item ∈ items, ∀ other third, item.same other = true → other.same third = true →
      item.same third = true) : EachSame items thirds := by
  induction same generalizing thirds with
  | nil => exact again
  | cons head _ ih =>
      obtain ⟨first, rest⟩ := List.forall_mem_cons.mp each
      cases again with
      | cons next others => exact .cons (first _ _ head next) (ih others rest)

theorem same_symm (keyed : a.Keyed) (same : a.same b = true) : b.same a = true := by
  induction a using Value.byParts generalizing b with
  | null =>
      obtain rfl := same_null_iff.mp same
      exact same
  | bool value =>
      obtain rfl := same_bool_iff.mp same
      exact same
  | number value =>
      obtain ⟨other, rfl, agree⟩ := same_number_iff.mp same
      exact Number.agrees_symm agree
  | text value => exact (same_to_text rfl).mpr ((same_of_text rfl).mp same)
  | term value => exact (same_to_text rfl).mpr ((same_of_text rfl).mp same)
  | array items ih | tuple items ih =>
      obtain ⟨others, isArray, sameEach⟩ := (same_of_items rfl).mp same
      refine (same_of_items isArray).mpr ⟨items, rfl, sameEach.symm ?_⟩
      exact fun item member other => ih item member (keyed.ofItems rfl item member)
  | object members ih =>
      obtain ⟨distinct, keyedEach⟩ := keyed_object_iff.mp keyed
      obtain ⟨changed, rfl, sameLength, -⟩ := same_object_iff.mp same
      refine same_object_iff.mpr ⟨members, rfl, sameLength.symm, fun other entry => ?_⟩
      -- The other member is one of those in the order of the first object.
      have among := (inOrderOf_perm distinct same).mem_iff.mpr entry
      obtain ⟨member, listed, rfl⟩ := List.mem_map.mp among
      have sameValue := same_valueAt same member listed
      exact ⟨member.2, Members.lookup_of_mem distinct listed,
        ih member listed (keyedEach member listed) sameValue⟩
  | foreign kind mark =>
      obtain rfl := same_foreign_iff.mp same
      exact same

theorem same_trans (first : a.same b = true) (second : b.same c = true) : a.same c = true := by
  induction a using Value.byParts generalizing b c with
  | null =>
      obtain rfl := same_null_iff.mp first
      exact second
  | bool value =>
      obtain rfl := same_bool_iff.mp first
      exact second
  | number value =>
      obtain ⟨other, rfl, agree⟩ := same_number_iff.mp first
      obtain ⟨third, rfl, agreeToo⟩ := same_number_iff.mp second
      exact Number.agrees_trans agree agreeToo
  | text value =>
      exact (same_of_text rfl).mpr ((same_of_text ((same_of_text rfl).mp first)).mp second)
  | term value =>
      exact (same_of_text rfl).mpr ((same_of_text ((same_of_text rfl).mp first)).mp second)
  | array items ih | tuple items ih =>
      obtain ⟨others, isArray, sameFirst⟩ := (same_of_items rfl).mp first
      obtain ⟨thirds, isAlso, sameSecond⟩ := (same_of_items isArray).mp second
      refine (same_of_items rfl).mpr ⟨thirds, isAlso, sameFirst.trans sameSecond ?_⟩
      exact fun item member other third => ih item member
  | object members ih =>
      obtain ⟨changed, rfl, sameLength, each⟩ := same_object_iff.mp first
      obtain ⟨further, rfl, alsoLength, eachOther⟩ := same_object_iff.mp second
      refine same_object_iff.mpr ⟨further, rfl, sameLength.trans alsoLength, fun member entry => ?_⟩
      obtain ⟨other, found, sameOther⟩ := each member entry
      obtain ⟨third, foundThird, sameThird⟩ := eachOther _ (Members.mem_of_lookup found)
      exact ⟨third, foundThird, ih member entry sameOther sameThird⟩
  | foreign kind mark =>
      obtain rfl := same_foreign_iff.mp first
      exact second

/-- Values that are the same are the same as the same values. -/
theorem same_congr (keyed : a.Keyed) (same : a.same b = true) : a.same = b.same := by
  funext value
  rw [Bool.eq_iff_iff]
  exact ⟨same_trans (same_symm keyed same), same_trans same⟩

theorem same_congr_right (keyed : a.Keyed) (same : a.same b = true) (value : Value) :
    value.same a = value.same b := by
  rw [Bool.eq_iff_iff]
  exact ⟨fun sameValue => same_trans sameValue same,
    fun sameValue => same_trans sameValue (same_symm keyed same)⟩

theorem kind_of_text (isText : a.asText? = some text) : a.kind = .string := by
  cases a with
  | text | term => rfl
  | null | bool | number | array | tuple | object | foreign => cases isText

theorem kind_of_items (isArray : a.asItems? = some items) : a.kind = .array := by
  cases a with
  | array | tuple => rfl
  | null | bool | number | text | term | object | foreign => cases isArray

theorem kind_of_same (same : a.same b = true) : a.kind = b.kind := by
  cases a with
  | null =>
      obtain rfl := same_null_iff.mp same
      rfl
  | bool =>
      obtain rfl := same_bool_iff.mp same
      rfl
  | number =>
      obtain ⟨_, rfl, -⟩ := same_number_iff.mp same
      rfl
  | text | term => exact (kind_of_text ((same_of_text rfl).mp same)).symm
  | array | tuple =>
      obtain ⟨_, isArray, -⟩ := (same_of_items rfl).mp same
      exact (kind_of_items isArray).symm
  | object =>
      obtain ⟨_, rfl, -⟩ := same_object_iff.mp same
      rfl
  | foreign =>
      obtain rfl := same_foreign_iff.mp same
      rfl

mutual

/-- Whether the objects in a value have their keys in the same order as those in another one. -/
def SameOrder : Value → Value → Prop
  | .array items, other | .tuple items, other =>
    match other.asItems? with
    | some others => SameOrderItems items others
    | none => True
  | .object members, other =>
    match other with
    | .object changed =>
      Members.keys members = Members.keys changed ∧ SameOrderMembers members changed
    | _ => True
  | _, _ => True
termination_by structural value => value

def SameOrderItems : List Value → List Value → Prop
  | item :: items, other :: others => SameOrder item other ∧ SameOrderItems items others
  | _, _ => True
termination_by structural items => items

def SameOrderMembers : List (String × Value) → Members → Prop
  | [], _ => True
  | (key, value) :: rest, changed =>
    SameOrder value (changed.valueAt key) ∧ SameOrderMembers rest changed
termination_by structural members => members

end

theorem SameOrder.ofItems (ordered : a.SameOrder b) (isArray : a.asItems? = some items)
    (isAlso : b.asItems? = some others) : SameOrderItems items others := by
  cases a with
  | array elements | tuple elements =>
      cases isArray
      cases b with
      | array | tuple =>
          cases isAlso
          exact ordered
      | null | bool | number | text | term | object | foreign => cases isAlso
  | null | bool | number | text | term | object | foreign => cases isArray

theorem sameOrder_object_iff : (Value.object members).SameOrder (.object changed) ↔
    Members.keys members = Members.keys changed ∧
      ∀ member ∈ members, member.2.SameOrder (changed.valueAt member.1) := by
  have each : ∀ listed : Members, SameOrderMembers listed changed ↔
      ∀ member ∈ listed, member.2.SameOrder (changed.valueAt member.1) := by
    intro listed
    induction listed with
    | nil => exact iff_of_true trivial (List.forall_mem_nil _)
    | cons member rest ih =>
        rw [List.forall_mem_cons]
        exact and_congr_right' ih
  exact and_congr_right' (each members)

end WorkItems.Value
