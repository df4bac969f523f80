import WorkItems.Proofs.Value.Depth
import WorkItems.Schema.Reach

namespace WorkItems.Schema

/-! The schema engine never goes deeper than a value is.

So where there is room for all levels of a value it does not break down, whatever the schema.
-/

open Value

variable {schema value : Value} {rules members : Members} {items : List Value}

theorem arrayReach_le
    (inner : ∀ item ∈ items, ∀ schema, fieldReach schema item ≤ item.depth) :
    arrayReach rules items ≤ depthOfItems items + 1 := by
  induction items with
  | nil => exact Nat.zero_le _
  | cons item items ih =>
      obtain ⟨first, rest⟩ := List.forall_mem_cons.mp inner
      have below := first (rules.valueAt "items")
      have later := ih rest
      rw [arrayReach, depthOfItems]
      split <;> omega

theorem membersReach_le
    (inner : ∀ member ∈ members, ∀ schema, fieldReach schema member.2 ≤ member.2.depth) :
    membersReach rules members ≤ depthOfMembers members + 1 := by
  induction members with
  | nil => exact Nat.zero_le _
  | cons member members ih =>
      obtain ⟨first, rest⟩ := List.forall_mem_cons.mp inner
      have below := first (((rules.valueAt "properties").asMembers?.getD []).valueAt member.1)
      have later := ih rest
      rw [membersReach, depthOfMembers]
      split <;> omega

theorem reach_if {reached : Prop} [Decidable reached] {inside depth : Nat}
    (within : inside ≤ depth) : (if reached then inside else 0) ≤ depth := by
  split
  · exact within
  · exact Nat.zero_le _

/-- What rules compare as a whole and what they find inside are both no deeper than the value. -/
theorem reach_of_parts {refused compared : Bool} {inside depth : Nat} (within : inside ≤ depth) :
    (if refused then 0 else max (if compared then depth else 0) inside) ≤ depth := by
  split
  · exact Nat.zero_le _
  · exact Nat.max_le.mpr ⟨reach_if (Nat.le_refl depth), within⟩

theorem fieldReach_le (schema value : Value) : fieldReach schema value ≤ value.depth := by
  induction value using Value.byParts generalizing schema with
  | null | bool | number | text | term | foreign => exact reach_of_parts (Nat.zero_le _)
  | array items ih | tuple items ih => exact reach_of_parts (reach_if (arrayReach_le ih))
  | object members ih => exact reach_of_parts (reach_if (membersReach_le ih))

/-- The engine goes no deeper than a value is. -/
theorem reach_le (schema value : Value) : reach schema value ≤ value.depth := by
  unfold reach
  dsimp only
  by_cases isObject : ((schema.asMembers?.getD []).valueAt "type").isText "object" = true
  · rw [if_pos isObject]
    cases value with
    | object members => exact membersReach_le fun member _ schema => fieldReach_le schema member.2
    | null | bool | number | text | term | array | tuple | foreign => exact Nat.zero_le _
  · rw [if_neg isObject]
    exact fieldReach_le schema value

end WorkItems.Schema
