import WorkItems.Proofs.Schema.Walk

namespace WorkItems.Schema

/-! Issues about a value itself.

The rules on single values and on arrays as a whole find issues about the value itself, which are
told right behind its label.  Objects are told of as a whole too, but behind a point.
-/

variable {rules members : Members} {expected value : Value} {issues : List Issue}
  {items : List Value} {label : String} {property other : Issue → Prop}

/-- Whether every issue that an operation finds has a property. -/
def AllIssues (property : Issue → Prop) (outcome : Except Fault (List Issue)) : Prop :=
  ∀ issues, outcome = .ok issues → ∀ issue ∈ issues, property issue

namespace AllIssues

theorem of_forall (each : ∀ issue ∈ issues, property issue) : AllIssues property (.ok issues) := by
  intro found same
  cases same
  exact each

theorem nothing : AllIssues property (.ok []) :=
  of_forall (List.forall_mem_nil _)

theorem bind {outcome : Except Fault (List Issue)}
    {next : List Issue → Except Fault (List Issue)} (all : AllIssues property outcome)
    (continues : ∀ found, (∀ issue ∈ found, property issue) → AllIssues property (next found)) :
    AllIssues property (outcome >>= next) := by
  intro issues run
  obtain ⟨found, ran, run⟩ := bind_eq_ok_iff.mp run
  exact continues found (all found ran) issues run

theorem imp {outcome : Except Fault (List Issue)} (all : AllIssues property outcome)
    (implies : ∀ issue, property issue → other issue) : AllIssues other outcome :=
  fun issues run issue among => implies issue (all issues run issue among)

end AllIssues

namespace Issue

/-- Whether an issue is about a value itself and is told right behind its label. -/
structure IsDirect (issue : Issue) : Prop where
  onWhole : issue.path = []
  notStructural : issue.violation.isStructural = false

@[simp] theorem isDirect_here {violation : Violation} :
    (Issue.here violation).IsDirect ↔ violation.isStructural = false :=
  ⟨IsDirect.notStructural, fun notStructural => ⟨rfl, notStructural⟩⟩

theorem IsDirect.textUnder_eq {issue : Issue} (direct : issue.IsDirect) :
    issue.textUnder label = label ++ ": " ++ issue.violation.message := by
  have separator : issue.violation.separator = ": " := by
    rw [Violation.separator, direct.notStructural, if_neg Bool.false_ne_true]
  rw [textUnder, direct.onWhole, Path.suffix, String.append_empty, separator]

end Issue

theorem limitIssues_direct {limit : Value} {exceeded : Number → Bool}
    {violation : Value → Violation} (direct : ∀ limit, (violation limit).isStructural = false) :
    AllIssues Issue.IsDirect (limitIssues limit exceeded violation) := by
  intro issues run
  unfold limitIssues at run
  split at run
  · cases run
    exact List.forall_mem_nil _
  · split at run
    · cases run
      split <;> simp [direct]
    · cases run

theorem patternIssues_direct {pattern : Value} {text : String} :
    AllIssues Issue.IsDirect (patternIssues pattern text) := by
  intro issues run
  unfold patternIssues at run
  split at run
  · cases run
    exact List.forall_mem_nil _
  · split at run
    · cases run
    · split at run
      · cases run
      · cases run
        split <;> simp [Violation.isStructural]

theorem numberIssues_direct {number : Number} :
    AllIssues Issue.IsDirect (numberIssues rules number) := by
  refine .bind (limitIssues_direct fun _ => rfl) fun small smallDirect =>
    .bind (limitIssues_direct fun _ => rfl) fun large largeDirect => ?_
  exact .of_forall (List.forall_mem_append.mpr ⟨smallDirect, largeDirect⟩)

theorem textIssues_direct {text : String} : AllIssues Issue.IsDirect (textIssues rules text) := by
  refine .bind (limitIssues_direct fun _ => rfl) fun short shortDirect =>
    .bind (limitIssues_direct fun _ => rfl) fun long longDirect =>
      .bind patternIssues_direct fun unmatched unmatchedDirect => ?_
  exact .of_forall (List.forall_mem_append.mpr
    ⟨List.forall_mem_append.mpr ⟨shortDirect, longDirect⟩, unmatchedDirect⟩)

theorem scalarIssues_direct : AllIssues Issue.IsDirect (scalarIssues rules expected value) := by
  cases value with
  | text text | term term =>
      rw [scalarIssues]
      split
      · exact textIssues_direct
      · exact .nothing
  | number number =>
      rw [scalarIssues]
      split
      · exact numberIssues_direct
      · exact .nothing
  | null | bool | array | tuple | object | foreign => exact .nothing

theorem enumIssues_direct : AllIssues Issue.IsDirect (enumIssues rules value) := by
  intro issues run
  unfold enumIssues at run
  split at run
  · cases run
    exact List.forall_mem_nil _
  · obtain ⟨options, -, run⟩ := bind_eq_ok_iff.mp run
    cases run
    split <;> simp [Violation.isStructural]

theorem constIssues_direct : ∀ issue ∈ constIssues rules value, issue.IsDirect := by
  unfold constIssues
  split
  · exact List.forall_mem_nil _
  · split <;> simp [Violation.isStructural]

theorem arrayIssues_direct : AllIssues Issue.IsDirect (arrayIssues rules items) := by
  refine .bind (limitIssues_direct fun _ => rfl) fun few fewDirect =>
    .bind (limitIssues_direct fun _ => rfl) fun many manyDirect => .of_forall ?_
  refine List.forall_mem_append.mpr ⟨List.forall_mem_append.mpr ⟨fewDirect, manyDirect⟩, ?_⟩
  split
  · split <;> simp [Violation.isStructural]
  · exact List.forall_mem_nil _

theorem missingIssues_all (missing : ∀ name, property (.here (.missing name))) :
    AllIssues property (missingIssues rules members) := by
  intro issues run
  obtain ⟨names, rfl⟩ := missingIssues_eq_map run
  intro issue among
  obtain ⟨name, -, rfl⟩ := List.mem_map.mp among
  exact missing name

/-- Where the walk ends at once, the value has at most a wrong type. -/
theorem settled?_direct (settled : settled? rules value = some issues) :
    ∀ issue ∈ issues, issue.IsDirect := by
  rw [settled?] at settled
  split at settled
  · cases settled
    exact List.forall_mem_nil _
  · split at settled
    · cases settled
      exact List.forall_mem_singleton.mpr ⟨rfl, rfl⟩
    · cases settled

/-- Of a value itself, direct issues are found and those about missing members. -/
theorem ownIssues_all (direct : ∀ issue : Issue, issue.IsDirect → property issue)
    (missing : ∀ name, property (.here (.missing name))) :
    AllIssues property (ownIssues rules expected value) := by
  have whole : AllIssues property (wholeIssues rules expected value) := by
    cases value with
    | array items | tuple items =>
        rw [wholeIssues]
        split
        · exact arrayIssues_direct.imp direct
        · exact .nothing
    | object members =>
        rw [wholeIssues]
        split
        · exact missingIssues_all missing
        · exact .nothing
    | null | bool | number | text | term | foreign => exact .nothing
  refine .bind (scalarIssues_direct.imp direct) fun scalar ofScalar =>
    .bind (enumIssues_direct.imp direct) fun unlisted ofUnlisted =>
      .bind whole fun found ofWhole => .of_forall ?_
  simp only [List.forall_mem_append]
  exact ⟨⟨⟨ofScalar, ofUnlisted⟩, fun issue among => direct issue (constIssues_direct issue among)⟩,
    ofWhole⟩

end WorkItems.Schema
