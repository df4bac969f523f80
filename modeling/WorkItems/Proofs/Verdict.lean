import WorkItems.Proofs.Project.Report
import WorkItems.Proofs.Schema.Reach

namespace WorkItems

/-! How a check can fail.

A check says what is wrong with the data or succeeds, whatever the data are, as long as there is
room for all their levels and their numbers can be printed.  So an attempt tells the same as the
check, and has no breakdown of its own to tell.
-/

variable {strict : Bool} {data : Value} {item : Item} {failure : Failure}

/-- Whether a failure is about the data and lists these errors, which are some. -/
def Failure.Finds (failure : Failure) (errors : List String) : Prop :=
  errors ≠ [] ∧ ∃ message, failure.finding? = some ⟨message, errors⟩

theorem Item.issues_of_read {issues : List FieldIssue} (refused : read data = .error issues) :
    issues ≠ [] := by
  cases data with
  | object members =>
      rw [read] at refused
      cases found : members.lookup "type" with
      | none =>
          rw [found] at refused
          cases refused
          exact List.cons_ne_nil _ _
      | some tag =>
          simp only [found] at refused
          cases known : tag.asText?.bind ItemType.ofText? with
          | none =>
              rw [known] at refused
              cases refused
              exact List.cons_ne_nil _ _
          | some kind =>
              simp only [known] at refused
              cases outcome : readAs kind (.object members) with
              | ok item =>
                  rw [outcome] at refused
                  cases refused
              | error under =>
                  rw [outcome] at refused
                  cases refused
                  exact fun none => issues_of_readAs outcome (List.map_eq_nil_iff.mp none)
  | null | bool | number | text | term | array | tuple | foreign =>
      cases refused
      exact List.cons_ne_nil _ _

/-- Where it is told, a failure stays the same or becomes a breakdown. -/
theorem Failure.told_or (limits : Limits) (failure : Failure) :
    failure.told limits = failure ∨
      ∃ breakdown, failure.told limits = .ofBreakdown limits breakdown := by
  rw [told]
  cases failure.printed.findSome? limits.printFault? with
  | none => exact .inl rfl
  | some breakdown => exact .inr ⟨breakdown, rfl⟩

namespace Contract

theorem finds_of_check {subject : Subject}
    (refused : check (engine strict) subject data = .error failure) :
    ∃ errors, failure.Finds errors := by
  rw [check_eq] at refused
  split at refused
  · cases refused
  · rename_i some
    cases refused
    exact ⟨_, fun none => some (List.isEmpty_iff.mpr none), _, rfl⟩

theorem finds_of_checkItem (refused : checkItem (engine strict) data = .error failure) :
    ∃ errors, failure.Finds errors := by
  cases data with
  | object members =>
      cases known : (Members.valueAt members "type").asText?.bind ItemType.ofText? with
      | none =>
          simp only [checkItem, known] at refused
          cases refused
          exact ⟨_, List.cons_ne_nil _ _, _, rfl⟩
      | some kind =>
          rw [checkItem_of_tagged (ItemType.ofTag_eq_some_iff.mp known)] at refused
          exact finds_of_check refused
  | null | bool | number | text | term | array | tuple | foreign =>
      cases refused
      exact ⟨_, List.cons_ne_nil _ _, _, rfl⟩

theorem finds_of_target {target : Target}
    (refused : target.check (engine strict) data = .error failure) :
    ∃ errors, failure.Finds errors := by
  cases target with
  | one subject => exact finds_of_check refused
  | anyItem => exact finds_of_checkItem refused

theorem finds_of_readItem (refused : readItem (engine strict) data = .error failure) :
    ∃ errors, failure.Finds errors := by
  cases checked : checkItem (engine strict) data with
  | error found =>
      rw [readItem, checked] at refused
      cases refused
      exact finds_of_checkItem checked
  | ok _ =>
      rw [readItem, checked] at refused
      cases outcome : Item.read data with
      | ok item =>
          rw [outcome] at refused
          cases refused
      | error issues =>
          rw [outcome] at refused
          cases refused
          exact ⟨_, fun none => Item.issues_of_read outcome (List.map_eq_nil_iff.mp none), _, rfl⟩

variable {limits : Limits} {subject : Subject} {target : Target}

/-- Where there is room for a value, the limits of the engine do not show. -/
theorem engineWithin_eq (shallow : data.depth ≤ limits.comparing) (schema : Value) :
    engineWithin limits strict schema data = engine strict schema data :=
  if_neg (Nat.not_lt.mpr (Nat.le_trans (Schema.reach_le schema data) shallow))

theorem check_engineWithin (shallow : data.depth ≤ limits.comparing) :
    check (engineWithin limits strict) subject data = check (engine strict) subject data := by
  rw [check, engineWithin_eq shallow, check]

theorem checkItem_engineWithin (shallow : data.depth ≤ limits.comparing) :
    checkItem (engineWithin limits strict) data = checkItem (engine strict) data := by
  cases data with
  | object members =>
      rw [checkItem, checkItem]
      cases (Members.valueAt members "type").asText?.bind ItemType.ofText? with
      | none => rfl
      | some kind => exact check_engineWithin shallow
  | null | bool | number | text | term | array | tuple | foreign => rfl

/-- On a machine data are checked as anywhere, or there is no room for that. -/
theorem check_engineWithin_or (limits : Limits) (strict : Bool) (subject : Subject)
    (data : Value) :
    check (engineWithin limits strict) subject data = check (engine strict) subject data ∨
      check (engineWithin limits strict) subject data = .error (.ofBreakdown limits .noRoom) := by
  rw [check, check, engineWithin]
  by_cases deep : limits.comparing < Schema.reach (schemaOf subject) data
  · rw [if_pos deep]
    exact .inr rfl
  · rw [if_neg deep]
    exact .inl rfl

theorem checkItem_engineWithin_or (limits : Limits) (strict : Bool) (data : Value) :
    checkItem (engineWithin limits strict) data = checkItem (engine strict) data ∨
      checkItem (engineWithin limits strict) data = .error (.ofBreakdown limits .noRoom) := by
  cases data with
  | object members =>
      rw [checkItem, checkItem]
      cases (Members.valueAt members "type").asText?.bind ItemType.ofText? with
      | none => exact .inl rfl
      | some kind => exact check_engineWithin_or limits strict (.item kind) (.object members)
  | null | bool | number | text | term | array | tuple | foreign => exact .inl rfl

/-- What keeps an item from being read on a machine is found in it, or there is no room. -/
theorem finds_of_readItem_engineWithin
    (refused : readItem (engineWithin limits strict) data = .error failure) :
    (∃ errors, failure.Finds errors) ∨ failure = .ofBreakdown limits .noRoom := by
  rcases checkItem_engineWithin_or limits strict data with same | broken
  · rw [readItem, same, ← readItem] at refused
    exact .inl (finds_of_readItem refused)
  · rw [readItem, broken] at refused
    cases refused
    exact .inr rfl

theorem readItem_engineWithin (shallow : data.depth ≤ limits.comparing) :
    readItem (engineWithin limits strict) data = readItem (engine strict) data := by
  rw [readItem, checkItem_engineWithin shallow, readItem]

theorem target_engineWithin_or (limits : Limits) (strict : Bool) (target : Target)
    (data : Value) :
    target.check (engineWithin limits strict) data = target.check (engine strict) data ∨
      target.check (engineWithin limits strict) data = .error (.ofBreakdown limits .noRoom) := by
  cases target with
  | one subject => exact check_engineWithin_or limits strict subject data
  | anyItem => exact checkItem_engineWithin_or limits strict data

theorem told_eq_error_iff {α : Type} {outcome : Except Failure α} :
    told limits outcome = .error failure ↔
      ∃ found, outcome = .error found ∧ found.told limits = failure := by
  cases outcome <;> simp [told, Except.mapError]

/-- A failure is told as it is if what it prints can be printed. -/
theorem told_error (prints : ∀ value ∈ failure.printed, limits.printFault? value = none)
    {α : Type} : told limits (.error failure : Except Failure α) = .error failure := by
  rw [told, Except.mapError, Failure.told, List.findSome?_eq_none_iff.mpr prints]

theorem printed_of_check (refused : check (engine strict) subject data = .error failure) :
    failure.printed = [] := by
  rw [check_eq] at refused
  split at refused
  · cases refused
  · cases refused
    rfl

/-- The only part of an item that the failure of a check prints is its tag. -/
theorem printed_of_checkItem (refused : checkItem (engine strict) data = .error failure) :
    ∀ value ∈ failure.printed, ∃ members, data = .object members ∧
      value = Members.valueAt members "type" := by
  cases data with
  | object members =>
      cases known : (Members.valueAt members "type").asText?.bind ItemType.ofText? with
      | none =>
          simp only [checkItem, known] at refused
          cases refused
          exact fun value among => ⟨members, rfl, List.mem_singleton.mp among⟩
      | some kind =>
          rw [checkItem_of_tagged (ItemType.ofTag_eq_some_iff.mp known)] at refused
          rw [printed_of_check refused]
          exact List.forall_mem_nil _
  | null | bool | number | text | term | array | tuple | foreign =>
      cases refused
      exact List.forall_mem_nil _

/-- Reading a tagged item prints nothing of it. -/
theorem printed_of_readItem {members : Members} {kind : ItemType}
    (tagged : Item.Tagged members kind)
    (refused : readItem (engine strict) (.object members) = .error failure) :
    failure.printed = [] := by
  rw [readItem, checkItem_of_tagged tagged] at refused
  cases checked : check (engine strict) (.item kind) (.object members) with
  | error found =>
      rw [checked] at refused
      cases refused
      exact printed_of_check checked
  | ok _ =>
      rw [checked] at refused
      cases outcome : Item.read (.object members) with
      | ok item =>
          rw [outcome] at refused
          cases refused
      | error issues =>
          rw [outcome] at refused
          cases refused
          rfl

/-- What a check on a machine fails with is a finding about the data or a breakdown. -/
theorem finds_of_checkWithin (refused : target.checkWithin limits strict data = .error failure) :
    (∃ errors, failure.Finds errors) ∨ ∃ breakdown, failure = .ofBreakdown limits breakdown := by
  obtain ⟨first, checked, rfl⟩ := told_eq_error_iff.mp refused
  rcases first.told_or limits with same | broken
  · rw [same]
    rcases target_engineWithin_or limits strict target data with ideal | noRoom
    · exact .inl (finds_of_target (ideal.symm.trans checked))
    · cases noRoom.symm.trans checked
      exact .inr ⟨.noRoom, rfl⟩
  · exact .inr broken

/-- Data for which there is room and whose numbers can be printed are checked on a machine as
anywhere. -/
theorem checkWithin_eq (shallow : data.depth ≤ limits.comparing)
    (short : data.Short limits.digits) :
    target.checkWithin limits strict data = target.check (engine strict) data := by
  have same : target.check (engineWithin limits strict) data =
      target.check (engine strict) data := by
    cases target with
    | one subject => exact check_engineWithin shallow
    | anyItem => exact checkItem_engineWithin shallow
  rw [Target.checkWithin, same]
  cases checked : target.check (engine strict) data with
  | ok _ => rfl
  | error failure =>
      refine told_error fun value among => ?_
      cases target with
      | one subject =>
          rw [printed_of_check checked] at among
          cases among
      | anyItem =>
          obtain ⟨members, rfl, rfl⟩ := printed_of_checkItem checked value among
          refine Value.printFault?_eq_none_iff.mpr ⟨?_, short.valueAt⟩
          calc (Members.valueAt members "type").depth
              ≤ (Value.object members).depth := Value.depth_valueAt_le members "type"
            _ ≤ limits.comparing := shallow
            _ ≤ limits.printing := limits.printsCompared

/-- As long as there is room for data and their numbers can be printed, they are admitted, or there
is a finding about them that lists some errors.  An attempt gives the data back when the check
admits them, and otherwise just the errors that the check finds. -/
theorem attempt_agrees (limits : Limits) (strict : Bool) (target : Target) (data : Value)
    (shallow : data.depth ≤ limits.comparing) (short : data.Short limits.digits) :
    (target.checkWithin limits strict data = .ok () ∧
      attemptWithin limits strict target data = ⟨[], some data⟩) ∨
    ∃ failure errors, target.checkWithin limits strict data = .error failure ∧
      failure.Finds errors ∧ attemptWithin limits strict target data = ⟨errors, none⟩ := by
  rw [attemptWithin, checkWithin_eq shallow short]
  cases checked : target.check (engine strict) data with
  | ok _ => exact .inl ⟨rfl, rfl⟩
  | error failure =>
      obtain ⟨errors, finds⟩ := finds_of_target checked
      obtain ⟨message, finding⟩ := finds.right
      refine .inr ⟨failure, errors, rfl, finds, ?_⟩
      rw [Verdict.ofOutcome, finding]

/-- A chore with a rank. -/
def chore : Value :=
  .object [("type", .text "chore"), ("rank", .int 7)]

theorem chore_attempted :
    chore.depth ≤ Limits.usual.comparing ∧ chore.Short Limits.usual.digits ∧
      ((Target.anyItem.checkWithin .usual true chore = .ok () ∧
        attemptWithin .usual true .anyItem chore = ⟨[], some chore⟩) ∨
      ∃ failure errors, Target.anyItem.checkWithin .usual true chore = .error failure ∧
        failure.Finds errors ∧ attemptWithin .usual true .anyItem chore = ⟨errors, none⟩) := by
  have shallow : chore.depth ≤ Limits.usual.comparing := by decide
  have short : chore.Short Limits.usual.digits := by
    refine Value.short_object_iff.mpr (List.forall_mem_cons.mpr ⟨nofun, ?_⟩)
    refine List.forall_mem_singleton.mpr (Value.short_int_iff.mpr ?_)
    decide +kernel
  exact ⟨shallow, short, attempt_agrees .usual true .anyItem chore shallow short⟩

/-- A task that lists an array nested 500 times. -/
def deepTask : Value :=
  .object [("type", .text "task"), ("subtasks", .array [Value.nested 499])]

/-- There is a check without a finding: it breaks down, and an attempt tells how. -/
theorem deepTask_breaks :
    Target.anyItem.checkWithin .usual true deepTask =
        .error (.broken "RecursionError" "maximum recursion depth exceeded") ∧
      attemptWithin .usual true .anyItem deepTask =
        ⟨["maximum recursion depth exceeded"], none⟩ := by
  have deep : Limits.usual.comparing < Schema.reach (schemaOf (.item .task)) deepTask := by
    decide +kernel
  have broken : Target.anyItem.checkWithin .usual true deepTask =
      .error (.broken "RecursionError" "maximum recursion depth exceeded") := by
    have checked : Target.anyItem.check (engineWithin .usual true) deepTask =
        check (engineWithin .usual true) (.item .task) deepTask := rfl
    rw [Target.checkWithin, checked, check, engineWithin, if_pos deep]
    rfl
  rw [attemptWithin, broken]
  exact ⟨rfl, rfl⟩

end Contract

end WorkItems
