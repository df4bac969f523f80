import WorkItems.Proofs.Lifecycle.Update

namespace WorkItems.Lifecycle

/-! Whole runs: an item is made or read, and then updated any number of times.

A step that fails leaves the item as it is.  What a single update keeps, a run keeps by induction
on its steps; every version is filled, which is what a step asks of the item it starts from.
-/

/-- A request to update an item: the changes, the clock, and whether schemas are strict then. -/
structure Edit where
  strict : Bool
  now : Moment
  changes : Members
  distinct : Members.Distinct changes

def Edit.apply (edit : Edit) (item : Item) : Except Failure Item :=
  update (Contract.engine edit.strict) edit.now item (.object edit.changes)

/-- An item with the clock of the last step that succeeded. -/
structure Version where
  item : Item
  stamp : Moment

namespace Version

/-- A step that fails leaves everything as it is. -/
def next (version : Version) (edit : Edit) : Version :=
  match edit.apply version.item with
  | .ok item => ⟨item, edit.now⟩
  | .error _ => version

def run (version : Version) (edits : List Edit) : Version :=
  edits.foldl next version

end Version

inductive Source where
  | created (kind data : Value) (identifier : String)
  | parsed (document : Value)

def Source.start (source : Source) (strict : Bool) (now : Moment) : Except Failure Version :=
  match source with
  | .created kind data identifier => do
    let item ← create (Contract.engine strict) now identifier kind data
    pure ⟨item, now⟩
  | .parsed document => do
    let item ← Contract.readItem (Contract.engine strict) document
    pure ⟨item, now⟩

variable {source : Source} {strict : Bool} {now : Moment} {start version : Version}
  {edit : Edit} {edits : List Edit} {item updated : Item}

theorem Version.next_cases (version : Version) (edit : Edit) :
    (∃ updated, edit.apply version.item = .ok updated ∧
      version.next edit = ⟨updated, edit.now⟩) ∨ version.next edit = version := by
  rw [next]
  cases edit.apply version.item with
  | ok updated => exact .inl ⟨updated, rfl, rfl⟩
  | error failure => exact .inr rfl

/-- Induction over a run: what every successful step preserves holds at the end. -/
theorem Version.run_induction (motive : Version → Prop) (atStart : motive start)
    (step : ∀ version, ∀ edit ∈ edits, ∀ updated, motive version →
      edit.apply version.item = .ok updated → motive ⟨updated, edit.now⟩) :
    motive (start.run edits) := by
  induction edits generalizing start with
  | nil => exact atStart
  | cons edit edits ih =>
      have first : motive (start.next edit) := by
        rcases start.next_cases edit with ⟨updated, made, same⟩ | same
        · rw [same]
          exact step start edit List.mem_cons_self updated atStart made
        · rw [same]
          exact atStart
      exact ih first fun version later among => step version later (List.mem_cons_of_mem _ among)

/-- Whether an item is a later version of another one, as far as its kind and its immutable fields
show it. -/
structure Continues (item earlier : Item) : Prop where
  filled : item.Filled
  kind : item.kind = earlier.kind
  immutable : ∀ name ∈ immutableFields, item.record.lookup name = earlier.record.lookup name

theorem Continues.refl (filled : item.Filled) : Continues item item :=
  ⟨filled, rfl, fun _ _ => rfl⟩

theorem Continues.apply {earlier : Item} (continues : Continues item earlier)
    (made : edit.apply item = .ok updated) : Continues updated earlier := by
  obtain ⟨sameKind, readsAs⟩ := readAs_of_update edit.distinct continues.filled made
  have kept := immutable_of_update edit.distinct continues.filled made
  refine ⟨Item.filled_of_readAs readsAs, sameKind.trans continues.kind, ?_⟩
  intro name immutable
  exact (kept name immutable).trans (continues.immutable name immutable)

/-- Along with what an item keeps, a run preserves what every step preserves that starts from a
later version of it. -/
theorem Continues.run_induction {earlier : Item} (motive : Version → Prop)
    (continues : Continues start.item earlier) (atStart : motive start)
    (step : ∀ version, ∀ edit ∈ edits, ∀ updated, Continues version.item earlier →
      motive version → edit.apply version.item = .ok updated → motive ⟨updated, edit.now⟩) :
    Continues (start.run edits).item earlier ∧ motive (start.run edits) := by
  refine Version.run_induction
    (fun version => Continues version.item earlier ∧ motive version) ⟨continues, atStart⟩ ?_
  intro version edit among updated holds made
  rcases holds with ⟨continues, invariant⟩
  exact ⟨continues.apply made, step version edit among updated continues invariant made⟩

theorem Continues.run {earlier : Item} (continues : Continues start.item earlier)
    (edits : List Edit) : Continues (start.run edits).item earlier := by
  refine Version.run_induction (fun version => Continues version.item earlier) continues ?_
  intro version edit _ updated continues made
  exact continues.apply made

theorem next?_completed {kind : ItemType} (notBug : kind ≠ .bug) :
    (Workflow.next? kind "completed").getD [] = [] := by
  cases kind with
  | feature => decide
  | bug => exact absurd rfl notBug
  | task => decide

theorem completed_run (filled : start.item.Filled) (notBug : start.item.kind ≠ .bug)
    (completed : start.item.status = "completed") (edits : List Edit) :
    (start.run edits).item.status = "completed" := by
  have invariant := (Continues.refl filled).run_induction
    (fun version => version.item.status = "completed") completed
    fun version edit (_ : edit ∈ edits) updated continues status made => by
      rcases status_of_update edit.distinct continues.filled made with kept | moved
      · exact kept.trans status
      · rw [status, next?_completed (continues.kind ▸ notBug)] at moved
        cases moved
  exact invariant.right

/-- Whether an item has been changed last when its version says. -/
def Version.Stamped (version : Version) : Prop :=
  version.item.record.lookup "updatedAt" = some (.moment version.stamp)

theorem stamped_run (filled : start.item.Filled) (stamped : start.Stamped) (edits : List Edit) :
    (start.run edits).Stamped := by
  have invariant := (Continues.refl filled).run_induction Version.Stamped stamped
    fun version edit (_ : edit ∈ edits) updated continues _ made =>
      stamp_of_update edit.distinct continues.filled made
  exact invariant.right

/-- A clock that never goes back does not stamp anything before the start. -/
theorem stamp_run (ordered : (start.stamp :: edits.map Edit.now).Pairwise
      fun earlier later => earlier.sinceEpoch ≤ later.sinceEpoch) :
    start.stamp.sinceEpoch ≤ (start.run edits).stamp.sinceEpoch := by
  obtain ⟨after, -⟩ := List.pairwise_cons.mp ordered
  refine Version.run_induction
    (fun version => start.stamp.sinceEpoch ≤ version.stamp.sinceEpoch) (Int.le_refl _) ?_
  intro version edit among updated _ _
  exact after edit.now (List.mem_map_of_mem among)

theorem start_filled (started : source.start strict now = .ok start) : start.item.Filled := by
  cases source with
  | created kind data identifier =>
      obtain ⟨item, made, same⟩ := bind_eq_ok_iff.mp started
      cases same
      obtain ⟨-, given, read⟩ := read_of_create made
      exact Item.filled_of_read read
  | parsed document =>
      obtain ⟨item, accepted, same⟩ := bind_eq_ok_iff.mp started
      cases same
      obtain ⟨-, read⟩ := Contract.readItem_eq_ok_iff.mp accepted
      exact Item.filled_of_read read

theorem start_created {kind data : Value} {identifier : String}
    (started : (Source.created kind data identifier).start strict now = .ok start) :
    start.stamp = now ∧ start.item.record.lookup "createdAt" = some (.moment now) ∧
      start.Stamped := by
  obtain ⟨item, made, same⟩ := bind_eq_ok_iff.mp started
  cases same
  obtain ⟨created, updated⟩ := stamps_of_create made
  exact ⟨rfl, created, updated⟩

/-- What holds at every point of a run: the kind and the immutable fields are those of the start;
the next step that succeeds keeps the status or follows the workflow; a feature or a task stays
completed; and a new item under a clock that never goes back is not older than its creation, and
is stamped with the clock of the last step that succeeded. -/
theorem run_invariant (source : Source) (strict : Bool) (now : Moment) (start : Version)
    (edits : List Edit) (started : source.start strict now = .ok start) :
    (start.run edits).item.kind = start.item.kind ∧
    (∀ name ∈ immutableFields, ∃ held, start.item.record.lookup name = some held ∧
      (start.run edits).item.record.lookup name = some held) ∧
    (∀ edit updated, Edit.apply edit (start.run edits).item = .ok updated →
      updated.status = (start.run edits).item.status ∨ updated.status ∈
        (Workflow.next? start.item.kind (start.run edits).item.status).getD []) ∧
    (start.item.kind ≠ .bug → (start.run edits).item.status = "completed" →
      ∀ later, ((start.run edits).run later).item.status = "completed") ∧
    (∀ kind data identifier, source = .created kind data identifier →
      (start.run edits).item.record.lookup "createdAt" = some (.moment now) ∧
      (start.run edits).item.record.lookup "updatedAt" =
        some (.moment (start.run edits).stamp) ∧
      (((now :: edits.map Edit.now).Pairwise
        fun earlier later => earlier.sinceEpoch ≤ later.sinceEpoch) →
        now.sinceEpoch ≤ (start.run edits).stamp.sinceEpoch)) := by
  have filled := start_filled started
  have continues := (Continues.refl filled).run edits
  refine ⟨continues.kind, fun name immutable => ?_, fun edit updated made => ?_,
    fun notBug completed later => ?_, fun kind data identifier created => ?_⟩
  · obtain ⟨field, declared, rfl, set⟩ := Forms.immutable_declared start.item.kind name immutable
    obtain ⟨held, found, -⟩ := filled.lookup_set declared set
    exact ⟨held, found, (continues.immutable _ immutable).trans found⟩
  · rw [← continues.kind]
    exact status_of_update edit.distinct continues.filled made
  · exact completed_run continues.filled (continues.kind ▸ notBug) completed later
  · subst created
    obtain ⟨sameStamp, createdAt, stamped⟩ := start_created started
    rw [← sameStamp] at createdAt ⊢
    refine ⟨?_, stamped_run filled stamped edits, stamp_run⟩
    exact (continues.immutable "createdAt" (by decide)).trans createdAt

def nextDay : Moment :=
  ⟨2024, 5, 2, ⟨9, 30, 0, 0, by decide⟩, some Offset.utc, by decide⟩

/-- A task is taken up and completed; in between, an edit tries to change when it was created. -/
def fewEdits : List Edit :=
  [⟨true, noon, [("status", .text "in-progress")], by decide⟩,
   ⟨false, noon, [("created_at", .int 0)], by decide⟩,
   ⟨false, nextDay, [("status", .term (.taskStatus .completed)), ("actual_hours", .text "3")],
     by decide⟩]

theorem newTask_run : ∃ start,
    (Source.created (.text "task") newTask "t-1").start true noon = .ok start ∧
      (∀ later, ((start.run fewEdits).run later).item.status = "completed") ∧
      (start.run fewEdits).item.record.lookup "createdAt" = some (.moment noon) ∧
      (start.run fewEdits).item.record.lookup "updatedAt" = some (.moment nextDay) ∧
      noon.sinceEpoch ≤ nextDay.sinceEpoch := by
  obtain ⟨start, started⟩ := exists_ok_of_toOption
    (show ((Source.created (.text "task") newTask "t-1").start true noon).toOption.isSome = true by
      decide +kernel)
  have ends : ((Source.created (.text "task") newTask "t-1").start true noon).toOption.map
      (fun start => (start.item.kind, (start.run fewEdits).item.status,
        (start.run fewEdits).stamp)) = some (.task, "completed", nextDay) := by
    decide +kernel
  rw [started] at ends
  simp only [Except.toOption, Option.map_some, Option.some.injEq, Prod.mk.injEq] at ends
  obtain ⟨kind, completed, stamp⟩ := ends
  obtain ⟨-, -, -, stays, stamps⟩ := run_invariant _ true noon start fewEdits started
  obtain ⟨created, updated, ordered⟩ := stamps _ _ _ rfl
  rw [stamp] at updated ordered
  exact ⟨start, started, stays (by rw [kind]; decide) completed, created, updated,
    ordered (by decide)⟩

end WorkItems.Lifecycle
