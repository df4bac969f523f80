import WorkItems.Proofs.Schema.Meaning

namespace WorkItems.Schema.Blueprint

/-! Closed object schemas, read strictly: all members are declared and admitted by what is declared
for them.
-/

variable {blueprint inner : Blueprint} {members : Members} {key : String} {value : Value}

/-- The names of all properties. -/
def declaredNames : Blueprint → List String
  | .object properties _ _ => properties.map Prod.fst
  | .nullable inner => inner.declaredNames
  | .extension base _ properties => properties.map Prod.fst ++ base.declaredNames
  | _ => []

theorem mem_declaredNames (declared : blueprint.propertyAt key = some inner) :
    key ∈ blueprint.declaredNames := by
  induction blueprint using Blueprint.byParts with
  | object properties _ _ _ => exact List.mem_map_of_mem (Members.mem_of_lookup declared)
  | nullable wrapped ih => exact ih declared
  | extension base _ properties ih _ =>
      rw [declaredNames, List.mem_append]
      rcases Option.or_eq_some_iff.mp declared with own | ⟨-, inherited⟩
      · exact .inl (List.mem_map_of_mem (Members.mem_of_lookup own))
      · exact .inr (ih inherited)
  | text | choice | flag | number | array | constant => cases declared

/-- What a closed object schema says of the members that it admits. -/
structure AdmitsAll (blueprint : Blueprint) (members : Members) : Prop where
  required : ∀ name ∈ blueprint.requiredNames, members.hasKey name = true
  declared : ∀ member ∈ members, ∃ inner,
    blueprint.propertyAt member.1 = some inner ∧ inner.Admits (.engine true) member.2

theorem admitsAll_of_closed (isObject : blueprint.isObject = true)
    (isClosed : blueprint.isClosed = true) (refusesNull : blueprint.allowsNull = false)
    (admits : blueprint.Admits (.engine true) value) :
    ∃ members, value = .object members ∧ blueprint.AdmitsAll members := by
  rw [admits_object_iff isObject, refusesNull] at admits
  rcases admits with ⟨-, impossible⟩ | ⟨members, rfl, required, each⟩
  · cases impossible
  · refine ⟨members, rfl, required, fun member entry => ?_⟩
    have admits := (admitsMember_iff isObject).mp (each member entry)
    cases declared : blueprint.propertyAt member.1 with
    | none =>
        rw [declared, isClosed] at admits
        exact absurd rfl admits
    | some inner =>
        rw [declared] at admits
        exact ⟨inner, rfl, admits⟩

namespace AdmitsAll

theorem member_admitted (admitted : blueprint.AdmitsAll members) {member : String × Value}
    (entry : member ∈ members) (property : blueprint.propertyAt member.1 = some inner) :
    inner.Admits (.engine true) member.2 := by
  obtain ⟨other, same, admits⟩ := admitted.declared _ entry
  rw [property, Option.some.injEq] at same
  exact same ▸ admits

theorem value_admitted (admitted : blueprint.AdmitsAll members)
    (property : blueprint.propertyAt key = some inner) (found : members.lookup key = some value) :
    inner.Admits (.engine true) value :=
  admitted.member_admitted (Members.mem_of_lookup found) property

theorem lookup_required (admitted : blueprint.AdmitsAll members)
    (required : key ∈ blueprint.requiredNames) : ∃ value, members.lookup key = some value :=
  Option.isSome_iff_exists.mp (admitted.required key required)

theorem key_declared (admitted : blueprint.AdmitsAll members) {member : String × Value}
    (entry : member ∈ members) : member.1 ∈ blueprint.declaredNames := by
  obtain ⟨inner, property, -⟩ := admitted.declared member entry
  exact mem_declaredNames property

end AdmitsAll

end WorkItems.Schema.Blueprint
