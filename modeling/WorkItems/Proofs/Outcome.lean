import WorkItems.Value

namespace WorkItems

/-! Outcomes that list what is wrong.

`Decides outcome condition` says that an operation does not fail and that it finds nothing exactly
when a condition holds.  Operations that go through parts one after the other decide the
conjunction.
-/

variable {ε α β : Type}

theorem ok_bind (value : α) (next : α → Except ε β) : Except.ok value >>= next = next value := rfl

theorem bind_eq_ok_iff {outcome : Except ε α} {next : α → Except ε β} {value : β} :
    outcome >>= next = .ok value ↔ ∃ middle, outcome = .ok middle ∧ next middle = .ok value := by
  cases outcome with
  | ok middle => simp [ok_bind]
  | error reason =>
      constructor
      · intro impossible
        cases impossible
      · intro both
        rcases both with ⟨middle, impossible, -⟩
        cases impossible

theorem check_bind_eq_ok_iff {check : Except ε Unit} {next : Except ε β} {value : β} :
    (do check; next) = .ok value ↔ check = .ok () ∧ next = .ok value :=
  bind_eq_ok_iff.trans ⟨fun ⟨_, checked, rest⟩ => ⟨checked, rest⟩, fun both => ⟨(), both⟩⟩

theorem map_eq_ok_iff {outcome : Except ε α} {convert : α → β} {value : β} :
    outcome.map convert = .ok value ↔ ∃ found, outcome = .ok found ∧ convert found = value := by
  cases outcome <;> simp [Except.map]

theorem pure_eq_ok (value : α) : (pure value : Except ε α) = .ok value := rfl

theorem eq_ok_of_toOption {outcome : Except ε α} {value : α}
    (succeeds : outcome.toOption = some value) : outcome = .ok value := by
  cases outcome with
  | ok found => exact congrArg Except.ok (Option.some.inj succeeds)
  | error reason => cases succeeds

theorem exists_ok_of_toOption {outcome : Except ε α} (succeeds : outcome.toOption.isSome = true) :
    ∃ value, outcome = .ok value := by
  cases outcome with
  | ok value => exact ⟨value, rfl⟩
  | error reason => cases succeeds

theorem refuse_eq_ok_iff {refused : Prop} [Decidable refused] {reason : ε} {outcome : Except ε α}
    {value : α} : (if refused then .error reason else outcome) = .ok value ↔
      ¬ refused ∧ outcome = .ok value := by
  by_cases applies : refused <;> simp [applies]

theorem refuse_eq_error_iff {refused : Prop} [Decidable refused] {reason found : ε}
    {outcome : Except ε α} : (if refused then .error reason else outcome) = .error found ↔
      (refused ∧ reason = found) ∨ (¬ refused ∧ outcome = .error found) := by
  by_cases applies : refused <;> simp [applies]

/-- An operation that fails with its issues, if there are any, has a reason to fail. -/
theorem accept_eq_ok_iff {issues : List ε} {value found : α} :
    (if issues.isEmpty then .ok value else .error issues : Except (List ε) α) = .ok found ↔
      issues = [] ∧ value = found := by
  cases issues <;> simp

theorem accept_eq_error_iff {issues refused : List ε} {value : α} :
    (if issues.isEmpty then .ok value else .error issues : Except (List ε) α) = .error refused ↔
      issues ≠ [] ∧ issues = refused := by
  cases issues <;> simp

/-- A test that never fails filters like one that cannot fail. -/
theorem filterM_eq_filter {test : α → Except ε Bool} {holds : α → Bool} {items : List α}
    (agrees : ∀ item ∈ items, test item = .ok (holds item)) :
    items.filterM test = .ok (items.filter holds) := by
  suffices collected : ∀ found, items.filterAuxM test found =
      .ok ((items.filter holds).reverse ++ found) by
    rw [List.filterM, collected []]
    simp [ok_bind, pure_eq_ok]
  induction items with
  | nil => exact fun found => rfl
  | cons item items ih =>
      intro found
      have later := ih fun other member => agrees other (List.mem_cons_of_mem _ member)
      rw [List.filterAuxM, agrees item List.mem_cons_self]
      change items.filterAuxM test (cond (holds item) (item :: found) found) = _
      rw [later]
      cases keeps : holds item <;> simp [keeps]

/-- A filter that succeeds has had no test that failed. -/
theorem filterM_eq_ok_iff {test : α → Except ε Bool} {items kept : List α} :
    items.filterM test = .ok kept ↔ ∃ holds : α → Bool,
      (∀ item ∈ items, test item = .ok (holds item)) ∧ kept = items.filter holds := by
  have succeeds (found all : List α) (run : items.filterAuxM test found = .ok all) :
      ∀ item ∈ items, test item = .ok ((test item).toOption.getD false) := by
    induction items generalizing found with
    | nil => exact fun item among => nomatch among
    | cons item items ih =>
        obtain ⟨holds, tested, rest⟩ := bind_eq_ok_iff.mp run
        refine List.forall_mem_cons.mpr ⟨?_, ih _ rest⟩
        rw [tested]
        rfl
  constructor
  · intro run
    obtain ⟨all, collected, -⟩ := bind_eq_ok_iff.mp run
    have each := succeeds [] all collected
    rw [filterM_eq_filter each, Except.ok.injEq] at run
    exact ⟨_, each, run.symm⟩
  · intro agrees
    rcases agrees with ⟨holds, each, rfl⟩
    exact filterM_eq_filter each

def together (first second : Except ε (List α)) : Except ε (List α) := do
  let found ← first
  let further ← second
  pure (found ++ further)

/-- What an operation finds in every item of a list. -/
def gather (run : β → Except ε (List α)) : List β → Except ε (List α)
  | [] => .ok []
  | item :: items => together (run item) (gather run items)

theorem together_eq_ok_iff {first second : Except ε (List α)} {all : List α} :
    together first second = .ok all ↔
      ∃ found further, first = .ok found ∧ second = .ok further ∧ all = found ++ further := by
  cases first with
  | error reason => exact iff_of_false nofun nofun
  | ok found =>
      cases second with
      | error reason => exact iff_of_false nofun nofun
      | ok further => simp [together, ok_bind, pure_eq_ok, eq_comm]

theorem gather_of_ok {run : β → Except ε (List α)} {found : β → List α} {items : List β}
    (each : ∀ item ∈ items, run item = .ok (found item)) :
    gather run items = .ok (items.flatMap found) := by
  induction items with
  | nil => rfl
  | cons item items ih =>
      obtain ⟨first, rest⟩ := List.forall_mem_cons.mp each
      rw [gather, first, ih rest, List.flatMap_cons]
      rfl

theorem gather_eq_ok_iff {run : β → Except ε (List α)} {items : List β} {all : List α} :
    gather run items = .ok all ↔ ∃ found : β → List α,
      (∀ item ∈ items, run item = .ok (found item)) ∧ all = items.flatMap found := by
  constructor
  · intro gathered
    have each : ∀ item ∈ items, run item = .ok ((run item).toOption.getD []) := by
      induction items generalizing all with
      | nil => simp
      | cons item items ih =>
          obtain ⟨first, others, firstRun, othersRun, -⟩ := together_eq_ok_iff.mp gathered
          refine List.forall_mem_cons.mpr ⟨?_, ih othersRun⟩
          rw [firstRun]
          rfl
    refine ⟨_, each, ?_⟩
    rw [gather_of_ok each, Except.ok.injEq] at gathered
    exact gathered.symm
  · intro gathered
    rcases gathered with ⟨found, each, rfl⟩
    exact gather_of_ok each

theorem gather_eq_nil_iff {run : β → Except ε (List α)} {items : List β} :
    gather run items = .ok [] ↔ ∀ item ∈ items, run item = .ok [] := by
  rw [gather_eq_ok_iff]
  constructor
  · intro gathered item among
    rcases gathered with ⟨found, each, nothing⟩
    rw [each item among, List.flatMap_eq_nil_iff.mp nothing.symm item among]
  · intro each
    exact ⟨fun _ => [], each, (List.flatMap_eq_nil_iff.mpr fun _ _ => rfl).symm⟩

theorem map_together (keep : α → Bool) (first second : Except ε (List α)) :
    (together first second).map (List.filter keep) =
      together (first.map (List.filter keep)) (second.map (List.filter keep)) := by
  cases first with
  | error reason => rfl
  | ok found =>
      cases second with
      | error reason => rfl
      | ok further => exact congrArg Except.ok (List.filter_append _ _)

theorem map_gather (keep : α → Bool) (run : β → Except ε (List α)) (items : List β) :
    (gather run items).map (List.filter keep) =
      gather (fun item => (run item).map (List.filter keep)) items := by
  induction items with
  | nil => rfl
  | cons item items ih => rw [gather, map_together, ih, gather]

theorem gather_congr {run other : β → Except ε (List α)} {items : List β}
    (same : ∀ item ∈ items, run item = other item) : gather run items = gather other items := by
  induction items with
  | nil => rfl
  | cons item items ih =>
      obtain ⟨first, rest⟩ := List.forall_mem_cons.mp same
      rw [gather, gather, first, ih rest]

theorem exists_gather {run : β → Except ε (List α)} {items : List β}
    (succeed : ∀ item ∈ items, ∃ found, run item = .ok found) :
    ∃ all, gather run items = .ok all := by
  induction items with
  | nil => exact ⟨[], rfl⟩
  | cons item items ih =>
      obtain ⟨⟨found, first⟩, rest⟩ := List.forall_mem_cons.mp succeed
      obtain ⟨further, others⟩ := ih rest
      exact ⟨found ++ further, together_eq_ok_iff.mpr ⟨found, further, first, others, rfl⟩⟩

/-- Where an operation succeeds and finds more in every item, it finds more in all of them. -/
theorem gather_sublist {run other : β → Except ε (List α)} {items : List β} {all : List α}
    (each : ∀ item ∈ items, ∀ found, other item = .ok found →
      ∃ less, run item = .ok less ∧ less.Sublist found)
    (gathered : gather other items = .ok all) :
    ∃ less, gather run items = .ok less ∧ less.Sublist all := by
  induction items generalizing all with
  | nil =>
      cases gathered
      exact ⟨[], rfl, .slnil⟩
  | cons item items ih =>
      obtain ⟨ofFirst, ofRest⟩ := List.forall_mem_cons.mp each
      obtain ⟨found, further, first, rest, rfl⟩ := together_eq_ok_iff.mp gathered
      obtain ⟨less, lessRun, within⟩ := ofFirst found first
      obtain ⟨fewer, fewerRun, withinToo⟩ := ih ofRest rest
      exact ⟨less ++ fewer, together_eq_ok_iff.mpr ⟨less, fewer, lessRun, fewerRun, rfl⟩,
        within.append withinToo⟩

variable {run : α → Except ε β} {items : List α} {found : List β}

theorem source_of_map_ok (succeed : items.map run = found.map .ok) :
    ∀ value ∈ found, ∃ item ∈ items, run item = .ok value := by
  intro value member
  have among : (.ok value : Except ε β) ∈ found.map .ok := List.mem_map_of_mem member
  rw [← succeed] at among
  exact List.mem_map.mp among

theorem exists_map_ok (succeed : ∀ item ∈ items, ∃ value, run item = .ok value) :
    ∃ found : List β, items.map run = found.map .ok := by
  induction items with
  | nil => exact ⟨[], rfl⟩
  | cons item items ih =>
      obtain ⟨⟨value, first⟩, rest⟩ := List.forall_mem_cons.mp succeed
      obtain ⟨found, later⟩ := ih rest
      exact ⟨value :: found, by rw [List.map_cons, first, later, List.map_cons]⟩

theorem map_ok_of_inverse {convert : β → α}
    (inverse : ∀ value ∈ found, run (convert value) = .ok value) :
    (found.map convert).map run = found.map .ok := by
  rw [List.map_map]
  exact List.map_congr_left inverse

def Decides (outcome : Except ε (List α)) (condition : Prop) : Prop :=
  ∃ found, outcome = .ok found ∧ (found = [] ↔ condition)

namespace Decides

variable {outcome : Except ε (List α)} {condition other : Prop}

theorem nothing : Decides (.ok [] : Except ε (List α)) True :=
  ⟨[], rfl, iff_of_true rfl trivial⟩

theorem refuses (issue : α) (issues : List α) :
    Decides (.ok (issue :: issues) : Except ε (List α)) False :=
  ⟨issue :: issues, rfl, iff_of_false (List.cons_ne_nil _ _) id⟩

/-- One issue where a test fails. -/
theorem ofTest (holds : Prop) [Decidable holds] (issue : α) :
    Decides (.ok (if holds then [] else [issue]) : Except ε (List α)) holds := by
  by_cases passes : holds
  · rw [if_pos passes]
    exact ⟨[], rfl, iff_of_true rfl passes⟩
  · rw [if_neg passes]
    exact ⟨[issue], rfl, iff_of_false (List.cons_ne_nil _ _) passes⟩

theorem nothing_iff (decides : Decides outcome condition) : outcome = .ok [] ↔ condition := by
  obtain ⟨found, run, empty⟩ := decides
  rw [run, Except.ok.injEq, empty]

theorem congr (decides : Decides outcome condition) (same : condition ↔ other) :
    Decides outcome other := by
  obtain ⟨found, run, empty⟩ := decides
  exact ⟨found, run, empty.trans same⟩

theorem bind {next : List α → Except ε (List β)} (decides : Decides outcome condition)
    (continues : ∀ found, (found = [] ↔ condition) → Decides (next found) other) :
    Decides (outcome >>= next) other := by
  obtain ⟨found, run, empty⟩ := decides
  rw [run]
  exact continues found empty

theorem map (decides : Decides outcome condition) (convert : α → β) :
    Decides (do let found ← outcome; pure (found.map convert)) condition :=
  decides.bind fun found empty => ⟨found.map convert, rfl, List.map_eq_nil_iff.trans empty⟩

theorem append {second : Except ε (List α)} (decides : Decides outcome condition)
    (further : Decides second other) :
    Decides (do let found ← outcome; let later ← second; pure (found ++ later))
      (condition ∧ other) := by
  refine decides.bind fun found empty => further.bind fun later laterEmpty => ?_
  exact ⟨found ++ later, rfl, List.append_eq_nil_iff.trans (and_congr empty laterEmpty)⟩

end Decides

end WorkItems
