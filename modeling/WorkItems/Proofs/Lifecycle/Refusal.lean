import WorkItems.Proofs.Lifecycle.Effect
import WorkItems.Proofs.Lifecycle.Revision
import WorkItems.Proofs.Verdict

namespace WorkItems

/-! How an update is refused.

An immutable name is looked for first, then a status that may not follow, and what is left is to
read the document of the update.  The followers that are told of a refused transition are looked up
by texts, and the test is made on the item; both come to the same.  A refused transition is told
with the status that was asked for, so that one which cannot be printed breaks the update down.
-/

variable {limits : Limits} {item updated : Item} {strict : Bool} {engine : Contract.Engine}
  {now : Moment} {changes : Members} {name status : String} {wanted : Value} {kind : ItemType}

namespace Value

theorem plainTerm_eq_text_iff {value : Value} {text : String} :
    value.plainTerm = .text text ↔ value.asText? = some text := by
  cases value <;> simp [plainTerm, asText?]

theorem plainTerm_mem_texts {value : Value} {texts : List String} :
    value.plainTerm ∈ texts.map .text ↔ ∃ text ∈ texts, value.asText? = some text := by
  rw [List.mem_map]
  exact exists_congr fun text => and_congr_right fun _ => eq_comm.trans plainTerm_eq_text_iff

end Value

namespace Item

def nextStatuses (item : Item) : List String :=
  (Workflow.next? item.kind item.status).getD []

theorem followers_eq (item : Item) :
    Workflow.followers (.text item.kind.text) (.text item.status) = .ok item.nextStatuses := by
  rw [Workflow.followers, Workflow.followers?]
  simp only [Value.isKeyable, Value.asText?, Bool.and_self, if_true, Option.bind_eq_bind,
    Option.bind_some, ItemType.ofText?_text]
  rfl

end Item

theorem Forms.status_not_next (kind : ItemType) :
    ∀ status ∈ statuses kind, status ∉ (Workflow.next? kind status).getD [] := by
  cases kind <;> decide

theorem Item.Filled.status_not_next (filled : item.Filled) : item.status ∉ item.nextStatuses :=
  Forms.status_not_next item.kind item.status filled.lookup_status.right

namespace Lifecycle

theorem refuseAny_object (changes : Members) (names : List String) (reason : String → String) :
    refuseAny (.object changes) names reason = (names.find? changes.hasKey).elim (.ok ())
      fun name => .error (.refusedRequest (reason name)) := by
  induction names with
  | nil => rfl
  | cons name names ih =>
      have step : refuseAny (.object changes) (name :: names) reason = (do
          (do if ← mentions (.object changes) name then throw (.refusedRequest (reason name)))
          refuseAny (.object changes) names reason) := rfl
      rw [step, mentions_eq, List.find?_cons]
      cases changes.hasKey name with
      | true => rfl
      | false => exact ih

/-- Whether a status may be asked for: the one there is, or one that follows it. -/
def Follows (item : Item) (wanted : Value) : Prop :=
  wanted.plainTerm = .text item.status ∨ wanted.plainTerm ∈ item.nextStatuses.map .text

theorem follows_iff_accepted :
    Follows item wanted ↔ refuseTransition item wanted.plainTerm = .ok () := by
  rw [Follows, Value.plainTerm_eq_text_iff, Value.plainTerm_mem_texts, refuseTransition_eq_ok_iff]
  constructor
  · intro follows
    rcases follows with same | ⟨status, next, isText⟩
    · exact ⟨item.status, same, .inl rfl⟩
    · exact ⟨status, isText, .inr next⟩
  · intro accepted
    rcases accepted with ⟨status, isText, rfl | next⟩
    · exact .inl isText
    · exact .inr ⟨status, next, isText⟩

theorem refuseTransition_of_stray (strays : ¬ Follows item wanted) :
    refuseTransition item wanted.plainTerm = .error (.refusedTransition
      ⟨.text item.status, wanted.plainTerm, .text item.kind.text, item.nextStatuses⟩) := by
  have refused := mt follows_iff_accepted.mpr strays
  rw [refuseTransition] at refused ⊢
  split
  · rename_i accepts
    exact absurd (if_pos accepts) refused
  · rw [Workflow.refusal, item.followers_eq]
    rfl

theorem update_of_unnamed (unnamed : immutableFields.find? changes.hasKey = none) :
    update engine now item (.object changes) = (do
      refuseStatus item (changes.lookup "status")
      Contract.readItem engine (.object (revision item changes now.text))) := by
  rw [update_object_eq, refuseAny_object, unnamed]
  rfl

theorem update_of_named (named : immutableFields.find? changes.hasKey = some name) :
    update engine now item (.object changes) =
      .error (.refusedRequest ("Field '" ++ name ++ "' cannot be updated")) := by
  rw [update_object_eq, refuseAny_object, named]
  rfl

theorem update_of_stray (unnamed : immutableFields.find? changes.hasKey = none)
    (given : changes.lookup "status" = some wanted) (strays : ¬ Follows item wanted) :
    update engine now item (.object changes) = .error (.refusedTransition
      ⟨.text item.status, wanted.plainTerm, .text item.kind.text, item.nextStatuses⟩) := by
  have asked : refuseStatus item (some wanted) = refuseTransition item wanted.plainTerm := rfl
  rw [update_of_unnamed unnamed, given, asked, refuseTransition_of_stray strays]
  rfl

theorem update_of_follows (unnamed : immutableFields.find? changes.hasKey = none)
    (follows : ∀ wanted, changes.lookup "status" = some wanted → Follows item wanted) :
    update engine now item (.object changes) =
      Contract.readItem engine (.object (revision item changes now.text)) := by
  have allowed : refuseStatus item (changes.lookup "status") = .ok () := by
    cases given : changes.lookup "status" with
    | none => rfl
    | some wanted => exact follows_iff_accepted.mp (follows wanted given)
  rw [update_of_unnamed unnamed, allowed]
  rfl

/-- Of a refused transition only the status that was asked for may be in the way of telling it. -/
theorem told_refusedTransition (status tag : String) (wanted : Value) (next : List String) :
    Failure.told limits (.refusedTransition ⟨.text status, wanted, .text tag, next⟩) =
      match limits.printFault? wanted with
      | none => .refusedTransition ⟨.text status, wanted, .text tag, next⟩
      | some breakdown => .ofBreakdown limits breakdown := by
  have printed : Failure.printed (.refusedTransition ⟨.text status, wanted, .text tag, next⟩) =
      [.text status, wanted, .text tag] := rfl
  have plain (text : String) : limits.printFault? (.text text) = none := rfl
  rw [Failure.told, printed, List.findSome?_cons, plain, List.findSome?_cons,
    List.findSome?_cons, plain]
  cases limits.printFault? wanted <;> rfl

theorem updateWithin_of_stray (unnamed : immutableFields.find? changes.hasKey = none)
    (given : changes.lookup "status" = some wanted) (strays : ¬ Follows item wanted) :
    updateWithin limits strict now item (.object changes) =
      .error (match limits.printFault? wanted.plainTerm with
        | none => .refusedTransition
          ⟨.text item.status, wanted.plainTerm, .text item.kind.text, item.nextStatuses⟩
        | some breakdown => .ofBreakdown limits breakdown) := by
  rw [updateWithin, update_of_stray unnamed given strays, Contract.told, Except.mapError,
    told_refusedTransition]

/-- The document of an update is no deeper than the changes, or than an item. -/
theorem revision_depth_le (item : Item) (now : String) {bound : Nat} (room : 2 ≤ bound)
    (shallow : (Value.object changes).depth ≤ bound) :
    (Value.object (revision item changes now)).depth ≤ bound := by
  cases bound with
  | zero => omega
  | succ bound =>
      have ofField (held : FieldValue) : held.toValue.depth ≤ bound := by
        cases held with
        | texts texts =>
            refine Nat.le_trans (Nat.succ_le_succ ?_) (Nat.le_of_succ_le_succ room)
            refine Value.depthOfItems_le_iff.mpr fun item among => ?_
            obtain ⟨text, -, rfl⟩ := List.mem_map.mp among
            exact Nat.le_refl 0
        | text | flag | count | measure | moment => exact Nat.zero_le _
      have ofItem : Value.depthOfMembers item.toMembers ≤ bound := by
        refine Value.depthOfMembers_le_iff.mpr fun member among => ?_
        obtain ⟨⟨name, held⟩, -, rfl⟩ := List.mem_map.mp among
        exact ofField held
      have merged := Value.depthOfMembers_merge_le ofItem (Nat.le_of_succ_le_succ shallow)
      exact Nat.succ_le_succ (Value.depthOfMembers_put_le
        (Value.depthOfMembers_dropNulls_le merged) (Nat.zero_le _))

/-- Where there is room for the changes, what is left of an update is to read its document. -/
theorem updateWithin_of_follows (filled : item.Filled)
    (unnamed : immutableFields.find? changes.hasKey = none)
    (follows : ∀ wanted, changes.lookup "status" = some wanted → Follows item wanted)
    (shallow : (Value.object changes).depth ≤ limits.comparing) :
    updateWithin limits strict now item (.object changes) =
      Contract.readItem (Contract.engine strict) (.object (revision item changes now.text)) := by
  have room : 2 ≤ limits.comparing := Nat.le_trans (by decide) limits.fitsDocuments
  have untagged : changes.lookup "type" = none := by
    have absent := List.find?_eq_none.mp unnamed "type" (by decide)
    rwa [Members.hasKey, Bool.not_eq_true, Option.isSome_eq_false_iff, Option.isNone_iff_eq_none]
      at absent
  rw [updateWithin, update_of_follows unnamed follows,
    Contract.readItem_engineWithin (revision_depth_le item now.text room shallow)]
  cases read : Contract.readItem (Contract.engine strict)
      (.object (revision item changes now.text)) with
  | ok updated => rfl
  | error failure =>
      have silent := Contract.printed_of_readItem (revision_tagged filled untagged now.text) read
      exact Contract.told_error (silent ▸ List.forall_mem_nil _)

theorem mem_nextStatuses_iff (filled : item.Filled)
    (unnamed : immutableFields.find? changes.hasKey = none) :
    status ∈ item.nextStatuses ↔ status ≠ item.status ∧ ∀ refusal,
      updateWithin limits strict now item
        (.object (changes.put "status" (.text status))) ≠ .error (.refusedTransition refusal) := by
  have unnamedToo : immutableFields.find? (changes.put "status" (.text status)).hasKey = none := by
    rw [List.find?_eq_none] at unnamed ⊢
    intro name immutable
    have other : name ≠ "status" := by
      rintro rfl
      revert immutable
      decide
    rw [Members.hasKey, Members.lookup_put, if_neg other]
    exact unnamed name immutable
  have given : (changes.put "status" (.text status)).lookup "status" = some (.text status) := by
    rw [Members.lookup_put, if_pos rfl]
  constructor
  · intro among
    refine ⟨fun same => filled.status_not_next (same ▸ among), fun refusal refused => ?_⟩
    have follows : ∀ wanted, (changes.put "status" (.text status)).lookup "status" = some wanted →
        Follows item wanted := by
      intro wanted asked
      cases given.symm.trans asked
      exact .inr (List.mem_map_of_mem among)
    rw [updateWithin, update_of_follows unnamedToo follows, Contract.told_eq_error_iff] at refused
    obtain ⟨failure, unread, told⟩ := refused
    -- What is read fails with a finding or breaks down, and a refused transition is neither.
    rcases failure.told_or limits with same | ⟨breakdown, same⟩
    · rw [same] at told
      subst told
      rcases Contract.finds_of_readItem_engineWithin unread with
        ⟨errors, -, message, finding⟩ | down
      · cases finding
      · cases down
    · rw [same] at told
      cases told
  · intro passes
    rcases passes with ⟨other, passes⟩
    by_contra missing
    refine passes _ (updateWithin_of_stray unnamedToo given ?_)
    rintro (same | among)
    · exact other (Value.text.inj same)
    · obtain ⟨text, among, same⟩ := List.mem_map.mp among
      cases same
      exact missing among

/-- What an update of an item that there is comes to.  The first immutable name is told, whatever
else is wrong; then a status that neither stays nor follows, with the followers that there are; and
then what is wrong with the document, if anything is.  A status that cannot be printed breaks the
update down where it would have to be told, and so may changes for which there is no room. -/
theorem update_outcome (limits : Limits) (strict : Bool) (now : Moment) (changes : Members)
    (produced : Produced item) :
    ∃ next, Workflow.followers (.text item.kind.text) (.text item.status) = .ok next ∧
      (∀ name, immutableFields.find? changes.hasKey = some name →
        updateWithin limits strict now item (.object changes) =
          .error (.refusedRequest ("Field '" ++ name ++ "' cannot be updated"))) ∧
      (immutableFields.find? changes.hasKey = none →
        (∀ wanted, changes.lookup "status" = some wanted →
          wanted.plainTerm ≠ .text item.status → wanted.plainTerm ∉ next.map .text →
            updateWithin limits strict now item (.object changes) =
              .error (match limits.printFault? wanted.plainTerm with
                | none => .refusedTransition
                  ⟨.text item.status, wanted.plainTerm, .text item.kind.text, next⟩
                | some breakdown => .ofBreakdown limits breakdown)) ∧
        ((∀ wanted, changes.lookup "status" = some wanted →
          wanted.plainTerm = .text item.status ∨ wanted.plainTerm ∈ next.map .text) →
          (Value.object changes).depth ≤ limits.comparing →
            updateWithin limits strict now item (.object changes) =
              Contract.readItem (Contract.engine strict)
                (.object (revision item changes now.text)) ∧
            ∀ failure, Contract.readItem (Contract.engine strict)
                (.object (revision item changes now.text)) = .error failure →
              ∃ errors, failure.Finds errors) ∧
        ∀ status, status ∈ next ↔ status ≠ item.status ∧ ∀ refusal,
          updateWithin limits strict now item
            (.object (changes.put "status" (.text status))) ≠
              .error (.refusedTransition refusal)) := by
  refine ⟨item.nextStatuses, item.followers_eq, fun name named => ?_, fun unnamed =>
    ⟨fun wanted given differs missing => ?_, fun follows shallow => ?_, fun status => ?_⟩⟩
  · rw [updateWithin, update_of_named named]
    rfl
  · exact updateWithin_of_stray unnamed given (not_or.mpr ⟨differs, missing⟩)
  · exact ⟨updateWithin_of_follows produced.filled unnamed follows shallow,
      fun failure => Contract.finds_of_readItem⟩
  · exact mem_nextStatuses_iff produced.filled unnamed

/-- A task that is to be completed before it was taken up; the missing title is not looked at. -/
def rushed : Members :=
  [("title", .null), ("status", .term (.taskStatus .completed))]

theorem docsTask_rushed :
    updateWithin .usual true nextDay docsTask (.object rushed) =
      .error (.refusedTransition
        ⟨.text "todo", .text "completed", .text "task", ["in-progress"]⟩) := by
  obtain ⟨next, followers, -, unnamed⟩ :=
    update_outcome .usual true nextDay rushed docsTask_produced
  obtain rfl : ["in-progress"] = next := Except.ok.inj followers
  obtain ⟨refused, -, -⟩ := unnamed (by decide)
  exact refused (.term (.taskStatus .completed)) rfl
    (mt Value.plainTerm_eq_text_iff.mp (by decide))
    (mt Value.plainTerm_mem_texts.mp (by decide))

/-- A subtask nested too deep and a status with too many digits break an update down. -/
theorem docsTask_breaks :
    updateWithin .usual true nextDay docsTask
        (.object [("subtasks", .array [Value.nested 499])]) =
      .error (.broken "RecursionError" "maximum recursion depth exceeded") ∧
    ∃ message, updateWithin .usual true nextDay docsTask
        (.object [("status", .int (Nat.pow 10 5000))]) = .error (.broken "ValueError" message) := by
  constructor
  · have unnamed : immutableFields.find?
        (Members.hasKey [("subtasks", .array [Value.nested 499])]) = none := by decide
    have tagged : Item.Tagged (revision docsTask [("subtasks", .array [Value.nested 499])]
      nextDay.text) .task := revision_tagged docsTask_produced.filled rfl nextDay.text
    have deep : Limits.usual.comparing < Schema.reach (Contract.schemaOf (.item .task))
        (.object (revision docsTask [("subtasks", .array [Value.nested 499])] nextDay.text)) := by
      decide +kernel
    rw [updateWithin, update_of_follows unnamed nofun, Contract.readItem,
      Contract.checkItem_of_tagged tagged, Contract.check, Contract.engineWithin, if_pos deep]
    rfl
  · have strays : ¬ Follows docsTask (.int (Nat.pow 10 5000)) := by
      rintro (same | among)
      · cases same
      · obtain ⟨text, -, same⟩ := List.mem_map.mp among
        cases same
    have long : Limits.usual.printFault? (Value.int (Nat.pow 10 5000)).plainTerm =
        some .tooManyDigits := by decide +kernel
    rw [updateWithin_of_stray (by decide) rfl strays, long]
    exact ⟨_, rfl⟩

end Lifecycle

end WorkItems
