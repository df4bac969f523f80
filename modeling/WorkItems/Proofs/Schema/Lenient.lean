import WorkItems.Proofs.Schema.Direct

namespace WorkItems.Schema

/-! Lenient walks and strict walks.

A strict walk goes the same way as a lenient one.  The issues about undeclared members are all that
it finds beside the same issues in the same order, and it fails where a lenient walk fails.
-/

variable {rules members : Members} {expected schema value : Value} {issues : List Issue}
  {path : Path} {key : String}

namespace Issue

/-- The object and the key that an issue is about if it is about an undeclared member. -/
def undeclaredAt? : Issue → Option (Path × String)
  | ⟨path, .undeclared key⟩ => some (path, key)
  | _ => none

/-- Whether an issue is one of a lenient walk too. -/
def isLenient (issue : Issue) : Bool :=
  issue.undeclaredAt?.isNone

theorem undeclaredAt?_eq_some_iff {issue : Issue} :
    issue.undeclaredAt? = some (path, key) ↔ issue = ⟨path, .undeclared key⟩ := by
  obtain ⟨place, violation⟩ := issue
  cases violation <;> simp [undeclaredAt?]

theorem undeclaredAt?_under (step : Step) (issue : Issue) :
    (issue.under step).undeclaredAt? =
      issue.undeclaredAt?.map fun place => (step :: place.1, place.2) := by
  obtain ⟨place, violation⟩ := issue
  cases violation <;> rfl

theorem isLenient_under (step : Step) (issue : Issue) :
    (issue.under step).isLenient = issue.isLenient := by
  rw [isLenient, isLenient, undeclaredAt?_under, Option.isNone_map]

theorem IsDirect.isLenient {issue : Issue} (direct : issue.IsDirect) : issue.isLenient = true := by
  obtain ⟨place, violation⟩ := issue
  cases violation with
  | undeclared key => exact absurd direct.notStructural nofun
  | _ => rfl

end Issue

/-- Whether all issues that an operation finds are ones of a lenient walk. -/
def AllLenient (outcome : Except Fault (List Issue)) : Prop :=
  ∀ issues, outcome = .ok issues → ∀ issue ∈ issues, issue.isLenient = true

theorem AllLenient.of_forall (lenient : ∀ issue ∈ issues, issue.isLenient = true) :
    AllLenient (.ok issues) :=
  AllIssues.of_forall lenient

theorem missingIssues_allLenient : AllLenient (missingIssues rules members) :=
  missingIssues_all fun _ => rfl

/-- Nothing that is found of a value itself is about an undeclared member. -/
theorem ownIssues_allLenient : AllLenient (ownIssues rules expected value) :=
  ownIssues_all (fun _ => Issue.IsDirect.isLenient) fun _ => rfl

theorem settled?_lenient (settled : settled? rules value = some issues) :
    ∀ issue ∈ issues, issue.isLenient = true :=
  fun issue among => (settled?_direct settled issue among).isLenient

/-- What a lenient walk keeps of an outcome. -/
def toLenient (outcome : Except Fault (List Issue)) : Except Fault (List Issue) :=
  outcome.map (List.filter Issue.isLenient)

theorem AllLenient.toLenient_eq {outcome : Except Fault (List Issue)}
    (lenient : AllLenient outcome) : toLenient outcome = outcome := by
  cases outcome with
  | error fault => rfl
  | ok issues => exact congrArg Except.ok (List.filter_eq_self.mpr (lenient issues rfl))

theorem toLenient_under (step : Step) (outcome : Except Fault (List Issue)) :
    toLenient (outcome.map (List.map (.under step))) =
      (toLenient outcome).map (List.map (.under step)) := by
  cases outcome with
  | error fault => rfl
  | ok issues =>
      have same : Issue.isLenient ∘ Issue.under step = Issue.isLenient :=
        funext (Issue.isLenient_under step)
      refine congrArg Except.ok (List.filter_map.trans ?_)
      rw [same]

theorem itemIssues_lenient {item : Value} {position : Nat}
    (each : ∀ rules, fieldIssues false (.object rules) item =
      toLenient (fieldIssues true (.object rules) item)) :
    itemIssues false schema (item, position) =
      toLenient (itemIssues true schema (item, position)) := by
  cases schema with
  | object rules => rw [itemIssues, itemIssues, toLenient_under, each]
  | null | bool | number | text | term | array | tuple | foreign => rfl

theorem memberIssues_lenient
    (each : ∀ schema, fieldIssues false schema value = toLenient (fieldIssues true schema value)) :
    memberIssues false rules key value = toLenient (memberIssues true rules key value) := by
  rcases memberIssues_cases rules key with ⟨fault, fails⟩ | ⟨-, told⟩ | ⟨-, walked⟩
  · rw [fails, fails]
    rfl
  · rw [told, told]
    unfold forbidsUndeclared
    split <;> rfl
  · rw [walked, walked, toLenient_under, each]

theorem fieldIssues_lenient_of_parts
    (parts : ∀ rules expected, partIssues false rules expected value =
      toLenient (partIssues true rules expected value)) (schema : Value) :
    fieldIssues false schema value = toLenient (fieldIssues true schema value) := by
  rcases schema.object_or_other with ⟨rules, rfl⟩ | malformed
  · rw [fieldIssues_walk, fieldIssues_walk]
    cases settled : settled? rules value with
    | some issues =>
        exact (AllLenient.of_forall (settled?_lenient settled)).toLenient_eq.symm
    | none =>
        have own : AllLenient (ownIssues rules (expectedType rules) value) := ownIssues_allLenient
        rw [toLenient, map_together, ← toLenient, own.toLenient_eq, parts, toLenient]
  · rw [fieldIssues_malformed malformed, fieldIssues_malformed malformed]
    rfl

/-- A lenient walk finds what a strict one finds apart from undeclared members. -/
theorem fieldIssues_lenient (schema value : Value) :
    fieldIssues false schema value = toLenient (fieldIssues true schema value) := by
  induction value using Value.byParts generalizing schema with
  | array items ih | tuple items ih =>
      refine fieldIssues_lenient_of_parts (fun rules expected => ?_) schema
      rw [partIssues, partIssues]
      cases expected.isText "array" with
      | false => rfl
      | true =>
          refine (gather_congr fun entry listed => ?_).trans (map_gather _ _ _).symm
          exact itemIssues_lenient fun rules => ih _ (List.fst_mem_of_mem_zipIdx listed) _
  | object members ih =>
      refine fieldIssues_lenient_of_parts (fun rules expected => ?_) schema
      rw [partIssues, partIssues]
      cases expected.isText "object" with
      | false => rfl
      | true =>
          refine (gather_congr fun entry listed => ?_).trans (map_gather _ _ _).symm
          exact memberIssues_lenient fun schema => ih entry listed schema
  | null | bool | number | text | term | foreign =>
      exact fieldIssues_lenient_of_parts (fun _ _ => rfl) schema

end WorkItems.Schema
