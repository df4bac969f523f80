import WorkItems.Proofs.Item.Written
import WorkItems.Proofs.Number.Agreement
import WorkItems.Proofs.Project.Parts

namespace WorkItems

/-! The range of estimates.

An estimate is refused when it is below or above a bound, and what is not a number is neither.  So
whatever is accepted lies in its range or is not a number, and the fields of items, which are
checked in the same way, hold nothing else; story points are read as whole numbers and are always
in range.
-/

variable {number : Number} {value given : Value} {item : Item} {name : String} {held : FieldValue}

namespace Number

/-- Whether a number lies in a range, or is not a number at all. -/
def WithinOrNaN (within : Number → Prop) (number : Number) : Prop :=
  (∃ mark, number = .double (.nan mark)) ∨ within number

theorem not_less_iff {limit : Int} : ¬ number.less (.int limit) = true ↔
    number.WithinOrNaN (Number.int limit).AtMost := by
  simp [less_eq_false_iff, place?_eq_none_iff, WithinOrNaN]

theorem not_less_int_iff {limit : Int} : ¬ (Number.int limit).less number = true ↔
    number.WithinOrNaN fun number => number.AtMost (.int limit) := by
  simp [less_eq_false_iff, place?_eq_none_iff, WithinOrNaN]

end Number

namespace Estimate

def PointsInRange (number : Number) : Prop :=
  (Number.int 1).AtMost number ∧ number.AtMost (.int 21)

def HoursInRange (number : Number) : Prop :=
  (Number.int 0).AtMost number

theorem pointsOutOfRange_iff :
    ¬ pointsOutOfRange number = true ↔ number.WithinOrNaN PointsInRange := by
  rw [pointsOutOfRange, Bool.or_eq_true, not_or, Number.not_less_iff, Number.not_less_int_iff]
  exact or_and_left.symm

theorem hoursOutOfRange_iff :
    ¬ hoursOutOfRange number = true ↔ number.WithinOrNaN HoursInRange := by
  rw [hoursOutOfRange, Number.not_less_iff]
  rfl

theorem checked_eq_ok_iff {outOfRange : Number → Bool} {message : String} :
    checked outOfRange message value = .ok given ↔
      value = given ∧ ∃ number, value.asNumber? = some number ∧ ¬ outOfRange number = true := by
  rw [checked]
  cases value.asNumber? with
  | none => simp
  | some number => simp [refuse_eq_ok_iff, and_comm]

theorem storyPoints_eq_ok_iff : storyPoints value = .ok given ↔
    value = given ∧ ∃ number, value.asNumber? = some number ∧
      number.WithinOrNaN PointsInRange := by
  rw [storyPoints, checked_eq_ok_iff]
  simp only [pointsOutOfRange_iff]

theorem hours_eq_ok_iff : hours value = .ok given ↔
    value = given ∧ ∃ number, value.asNumber? = some number ∧ number.WithinOrNaN HoursInRange := by
  rw [hours, checked_eq_ok_iff]
  simp only [hoursOutOfRange_iff]

end Estimate

namespace Lifecycle

/-- The items that are read, alone or in a project, made new, and made from one another. -/
inductive Produced : Item → Prop where
  | read {engine : Contract.Engine} {data : Value} {item : Item}
    (accepted : Contract.readItem engine data = .ok item) : Produced item
  | listed {engine : Contract.Engine} {data : Value} {project : Project} {kind : ItemType}
    {item : Item} (accepted : Contract.readProject engine data = .ok project)
    (among : item ∈ project.items kind) : Produced item
  | created {engine : Contract.Engine} {now : Moment} {identifier : String} {kind data : Value}
    {item : Item} (made : create engine now identifier kind data = .ok item) : Produced item
  | updated {engine : Contract.Engine} {now : Moment} {changes : Value} {item updated : Item}
    (earlier : Produced item) (made : update engine now item changes = .ok updated) :
    Produced updated

theorem readItem_of_update {engine : Contract.Engine} {now : Moment} {changes : Value}
    {updated : Item} (made : update engine now item changes = .ok updated) :
    ∃ given, Contract.readItem engine (.object (revision item given now.text)) = .ok updated := by
  obtain ⟨-, made⟩ := check_bind_eq_ok_iff.mp made
  obtain ⟨change, -, made⟩ := bind_eq_ok_iff.mp made
  have rest : (do
      let given ← changesOf changes
      let updated ← Contract.readItem engine (.object (revision item given now.text))
      let _ ← changedNames changes
      pure updated) = .ok updated := by
    cases change with
    | none => exact made
    | some wanted => exact (check_bind_eq_ok_iff.mp made).right
  obtain ⟨given, -, rest⟩ := bind_eq_ok_iff.mp rest
  obtain ⟨read, reads, rest⟩ := bind_eq_ok_iff.mp rest
  obtain ⟨names, -, same⟩ := bind_eq_ok_iff.mp rest
  obtain rfl := Except.ok.inj same
  exact ⟨given, reads⟩

theorem Produced.filled (produced : Produced item) : item.Filled := by
  have ofRead : ∀ {engine : Contract.Engine} {data : Value} {item : Item},
      Contract.readItem engine data = .ok item → item.Filled := fun accepted =>
    Item.filled_of_read (Contract.readItem_eq_ok_iff.mp accepted).right
  cases produced with
  | read accepted => exact ofRead accepted
  | @listed engine data project kind item accepted among =>
      obtain ⟨features, bugs, tasks, -⟩ :=
        Project.filled_of_read (Contract.readProject_eq_ok_iff.mp accepted).right
      cases kind with
      | feature => exact (features item among).right
      | bug => exact (bugs item among).right
      | task => exact (tasks item among).right
  | created made =>
      obtain ⟨-, given, read⟩ := read_of_create made
      exact Item.filled_of_read read
  | updated earlier made =>
      obtain ⟨given, accepted⟩ := readItem_of_update made
      exact ofRead accepted

end Lifecycle

theorem Item.Filled.holds_of_lookup (filled : item.Filled)
    (found : item.record.lookup name = some held) :
    ∃ field ∈ Forms.ofItemType item.kind, field.name = name ∧ field.type.Holds held := by
  obtain ⟨source, complete, same⟩ := filled
  rw [same] at found
  obtain ⟨field, declared, given, named⟩ := Form.mem_recordOf.mp (Members.mem_of_lookup found)
  exact ⟨field, declared, named, (complete field declared).left held given⟩

namespace Forms

theorem storyPoints_type (kind : ItemType) :
    ∀ field ∈ ofItemType kind, field.name = "storyPoints" → field.type = .points := by
  cases kind <;> simp [ofItemType, feature, bug, task, shared, plainField]

theorem hours_type (kind : ItemType) : ∀ field ∈ ofItemType kind,
    field.name = "estimatedHours" ∨ field.name = "actualHours" → field.type = .hours := by
  cases kind <;> simp [ofItemType, feature, bug, task, shared, plainField]

end Forms

namespace Item.Filled

theorem storyPoints_inRange (filled : item.Filled)
    (found : item.record.lookup "storyPoints" = some held) :
    ∃ points : Int, held = .count points ∧ 1 ≤ points ∧ points ≤ 21 := by
  obtain ⟨field, declared, named, holds⟩ := filled.holds_of_lookup found
  rw [Forms.storyPoints_type item.kind field declared named] at holds
  cases holds with
  | points atLeast atMost => exact ⟨_, rfl, atLeast, atMost⟩

theorem hours_inRange (filled : item.Filled)
    (hours : name = "estimatedHours" ∨ name = "actualHours")
    (found : item.record.lookup name = some held) :
    ∃ hours : Double, held = .measure hours ∧
      (Number.double hours).WithinOrNaN Estimate.HoursInRange := by
  obtain ⟨field, declared, rfl, holds⟩ := filled.holds_of_lookup found
  rw [Forms.hours_type item.kind field declared hours] at holds
  cases holds with
  | hours notNegative =>
      exact ⟨_, rfl, Estimate.hoursOutOfRange_iff.mp (Bool.eq_false_iff.mp notNegative)⟩

end Item.Filled

/-- What is given as an estimate comes back if it is a number in range, or no number.  Of the items
there are, all story points are in range, and all hours are in range or not a number. -/
theorem estimates_inRange (value given : Value) (item : Item) :
    (Estimate.storyPoints value = .ok given ↔
      value = given ∧ ∃ number, value.asNumber? = some number ∧
        number.WithinOrNaN Estimate.PointsInRange) ∧
    (Estimate.hours value = .ok given ↔
      value = given ∧ ∃ number, value.asNumber? = some number ∧
        number.WithinOrNaN Estimate.HoursInRange) ∧
    (Lifecycle.Produced item →
      (∀ held, item.record.lookup "storyPoints" = some held →
        ∃ points : Int, held = .count points ∧ 1 ≤ points ∧ points ≤ 21) ∧
      ∀ name, name = "estimatedHours" ∨ name = "actualHours" →
        ∀ held, item.record.lookup name = some held →
          ∃ hours : Double, held = .measure hours ∧
            (Number.double hours).WithinOrNaN Estimate.HoursInRange) := by
  refine ⟨Estimate.storyPoints_eq_ok_iff, Estimate.hours_eq_ok_iff, fun produced => ?_⟩
  have filled := produced.filled
  exact ⟨fun held => filled.storyPoints_inRange, fun name hours held => filled.hours_inRange hours⟩

theorem longTask_estimates : ∃ item,
    Lifecycle.Produced item ∧
      item.record.lookup "actualHours" = some (.measure (Double.ofInt 3)) ∧
      (Number.double (Double.ofInt 3)).WithinOrNaN Estimate.HoursInRange := by
  let run := do
    let item ← Contract.readItem (Contract.engine true) (.object longTask)
    Lifecycle.update (Contract.engine true) noon item (.object [("actualHours", .int 3)])
  have set : run.toOption.bind (fun item => item.record.lookup "actualHours") =
      some (.measure (Double.ofInt 3)) := by
    decide +kernel
  obtain ⟨updated, ran, found⟩ := Option.bind_eq_some_iff.mp set
  obtain ⟨item, accepted, made⟩ := bind_eq_ok_iff.mp (eq_ok_of_toOption ran)
  have produced : Lifecycle.Produced updated := .updated (.read accepted) made
  obtain ⟨-, -, held⟩ := estimates_inRange .null .null updated
  obtain ⟨hours, same, inRange⟩ := (held produced).right _ (.inr rfl) _ found
  rw [← FieldValue.measure.inj same] at inRange
  exact ⟨updated, produced, found, inRange⟩

/-- Hours that are not a number pass for hours in range, alone and in a task, and so do points. -/
theorem notANumber_passes :
    (Estimate.hours (.double (.nan 0)) = .ok (.double (.nan 0)) ∧
      ¬ Estimate.HoursInRange (.double (.nan 0))) ∧
    (Estimate.storyPoints (.double (.nan 0)) = .ok (.double (.nan 0)) ∧
      ¬ Estimate.PointsInRange (.double (.nan 0))) ∧
    ∃ item, Contract.readItem (Contract.engine true)
        (.object (Members.put longTask "estimatedHours" (.double (.nan 0)))) = .ok item ∧
      item.record.lookup "estimatedHours" = some (.measure (.nan 0)) := by
  have nowhere : (Number.double (.nan 0)).place? = none := rfl
  refine ⟨⟨rfl, ?_⟩, ⟨rfl, ?_⟩, ?_⟩
  · intro inRange
    obtain ⟨_, _, -, placed, -⟩ := inRange
    cases nowhere.symm.trans placed
  · intro inRange
    obtain ⟨⟨_, _, -, placed, -⟩, -⟩ := inRange
    cases nowhere.symm.trans placed
  · have set : (Contract.readItem (Contract.engine true)
        (.object (Members.put longTask "estimatedHours" (.double (.nan 0))))).toOption.bind
          (fun item => item.record.lookup "estimatedHours") = some (.measure (.nan 0)) := by
      decide +kernel
    obtain ⟨item, read, found⟩ := Option.bind_eq_some_iff.mp set
    exact ⟨item, eq_ok_of_toOption read, found⟩

end WorkItems
