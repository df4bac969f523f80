import WorkItems.Limits
import WorkItems.Proofs.Value.Parts

namespace WorkItems

/-! What can be printed.

A value can be printed where there is room for all its levels and no number in it is too long.
Whatever is no deeper than what is compared has room to be printed.
-/

namespace Value

variable {value : Value} {items : List Value} {members : Members} {bound digits room : Nat}

theorem depthOfItems_le_iff :
    depthOfItems items ≤ bound ↔ ∀ item ∈ items, item.depth ≤ bound := by
  induction items with
  | nil => simp [depthOfItems]
  | cons item items ih => rw [depthOfItems, Nat.max_le, ih, List.forall_mem_cons]

theorem depthOfMembers_le_iff :
    depthOfMembers members ≤ bound ↔ ∀ member ∈ members, member.2.depth ≤ bound := by
  induction members with
  | nil => simp [depthOfMembers]
  | cons member members ih => rw [depthOfMembers, Nat.max_le, ih, List.forall_mem_cons]

theorem depth_lookup_le {key : String} (found : members.lookup key = some value) :
    value.depth ≤ depthOfMembers members :=
  depthOfMembers_le_iff.mp (Nat.le_refl _) _ (Members.mem_of_lookup found)

theorem depth_valueAt_le (members : Members) (key : String) :
    (members.valueAt key).depth ≤ (Value.object members).depth := by
  rw [Members.valueAt]
  cases found : members.lookup key with
  | none => exact Nat.zero_le _
  | some value => exact Nat.le_succ_of_le (depth_lookup_le found)

theorem depthOfMembers_put_le {key : String} (within : depthOfMembers members ≤ bound)
    (shallow : value.depth ≤ bound) : depthOfMembers (members.put key value) ≤ bound := by
  refine depthOfMembers_le_iff.mpr fun member among => ?_
  rcases Members.mem_of_mem_put among with rfl | kept
  · exact shallow
  · exact depthOfMembers_le_iff.mp within member kept

theorem depthOfMembers_merge_le {changes : Members} (within : depthOfMembers members ≤ bound)
    (shallow : depthOfMembers changes ≤ bound) :
    depthOfMembers (members.merge changes) ≤ bound := by
  induction changes generalizing members with
  | nil => exact within
  | cons change changes ih =>
      rw [depthOfMembers, Nat.max_le] at shallow
      rw [Members.merge_cons]
      exact ih (depthOfMembers_put_le within shallow.left) shallow.right

theorem depthOfMembers_dropNulls_le (within : depthOfMembers members ≤ bound) :
    depthOfMembers members.dropNulls ≤ bound :=
  depthOfMembers_le_iff.mpr fun member kept =>
    depthOfMembers_le_iff.mp within member (List.mem_filter.mp kept).left

/-- Whether no whole number in a value has more than so many digits. -/
def Short (digits : Nat) (value : Value) : Prop :=
  value.Every fun part => ∀ number, part = .int number → number.natAbs < Nat.pow 10 digits

theorem itemsPrintFault?_eq_none_iff : itemsPrintFault? digits items room = none ↔
    ∀ item ∈ items, item.printFault? digits room = none := by
  induction items with
  | nil => simp [itemsPrintFault?]
  | cons item items ih =>
      rw [itemsPrintFault?, Option.or_eq_none_iff, ih, List.forall_mem_cons]

theorem membersPrintFault?_eq_none_iff : membersPrintFault? digits members room = none ↔
    ∀ member ∈ members, member.2.printFault? digits room = none := by
  induction members with
  | nil => simp [membersPrintFault?]
  | cons member members ih =>
      rw [membersPrintFault?, Option.or_eq_none_iff, ih, List.forall_mem_cons]

theorem short_array_iff : (Value.array items).Short digits ↔ ∀ item ∈ items, item.Short digits := by
  rw [Short, every_array_iff, and_iff_right nofun]
  rfl

theorem short_tuple_iff : (Value.tuple items).Short digits ↔ ∀ item ∈ items, item.Short digits := by
  rw [Short, every_tuple_iff, and_iff_right nofun]
  rfl

theorem short_object_iff :
    (Value.object members).Short digits ↔ ∀ member ∈ members, member.2.Short digits := by
  rw [Short, every_object_iff, and_iff_right nofun]
  rfl

theorem short_int_iff {number : Int} :
    (Value.int number).Short digits ↔ number.natAbs < Nat.pow 10 digits := by
  simp [Short, Every, Value.int]

theorem Short.valueAt {key : String} (short : (Value.object members).Short digits) :
    (members.valueAt key).Short digits := by
  rw [Members.valueAt]
  cases found : members.lookup key with
  | none => exact fun _ impossible => by cases impossible
  | some value => exact short_object_iff.mp short _ (Members.mem_of_lookup found)

/-- A value can be printed just when it is neither too deep nor too long. -/
theorem printFault?_eq_none_iff :
    value.printFault? digits room = none ↔ value.depth ≤ room ∧ value.Short digits := by
  induction value using Value.byParts generalizing room with
  | null | bool | text | term | foreign =>
      exact iff_of_true rfl ⟨Nat.zero_le _, nofun⟩
  | number number =>
      cases number with
      | double => exact iff_of_true rfl ⟨Nat.zero_le _, nofun⟩
      | int number =>
          rw [← Value.int, short_int_iff]
          simp [printFault?, depth, Value.int]
  | array items ih | tuple items ih =>
      cases room with
      | zero => exact iff_of_false nofun fun both => Nat.not_succ_le_zero _ both.left
      | succ room =>
          rw [printFault?, itemsPrintFault?_eq_none_iff, depth, Nat.succ_le_succ_iff,
            depthOfItems_le_iff]
          simp only [short_array_iff, short_tuple_iff, ← forall_and]
          exact forall₂_congr fun item member => ih item member
  | object members ih =>
      cases room with
      | zero => exact iff_of_false nofun fun both => Nat.not_succ_le_zero _ both.left
      | succ room =>
          rw [printFault?, membersPrintFault?_eq_none_iff, depth, Nat.succ_le_succ_iff,
            depthOfMembers_le_iff, short_object_iff]
          simp only [← forall_and]
          exact forall₂_congr fun member among => ih member among

/-- An empty array in so many other ones. -/
def nested : Nat → Value
  | 0 => .array []
  | levels + 1 => .array [nested levels]

end Value

end WorkItems
