import WorkItems.Proofs.Project.Report
import WorkItems.Proofs.Schema.Extension
import WorkItems.Proofs.Schema.Walk

namespace WorkItems

/-! Documents with members left out.

Nothing is wrong with a valid object, so without some of its members it only lacks those of them
that are required.  Of an item in a project document the same is told, behind its place.
-/

namespace Schema

variable {strict : Bool} {rules members : Members} {entry : Value}

/-- What the rules of an object require, entry by entry. -/
def requiredIn (rules : Members) : Except Fault (List Value) :=
  match rules.lookup "required" with
  | none => .ok []
  | some required => elements required

/-- Whether an entry of `required` is one of the names that are left out. -/
def isLeftOut (names : List String) (entry : Value) : Bool :=
  entry.asText?.any fun key => names.contains key

/-- What is told of an object that lacks some names and nothing else, given all that is required. -/
def lackErrors (names : List String) (required : List Value) : List String :=
  (required.filter (isLeftOut names)).map fun entry => "Missing required field: " ++ entry.plain

theorem hasRequired_without (present : hasRequired members entry = .ok true)
    (names : List String) :
    hasRequired (members.without names) entry = .ok (!isLeftOut names entry) := by
  rw [hasRequired] at present ⊢
  cases keyable : entry.isKeyable with
  | false =>
      rw [keyable] at present
      cases present
  | true =>
      rw [keyable, if_pos rfl, Except.ok.injEq] at present
      rw [if_pos rfl, isLeftOut]
      cases named : entry.asText? with
      | none =>
          rw [named] at present
          cases present
      | some key =>
          rw [named] at present
          have found : members.hasKey key = true := present
          simp only [Members.hasKey_without, found, Bool.and_true, Option.any_some]

/-- Where nothing is missing, nothing but what is left out comes to be missing. -/
theorem missingIssues_without (complete : missingIssues rules members = .ok [])
    (names : List String) : ∃ required, requiredIn rules = .ok required ∧
      missingIssues rules (members.without names) =
        .ok ((required.filter (isLeftOut names)).map fun entry => .here (.missing entry)) := by
  have inSteps (given : Members) : missingIssues rules given = (do
      let required ← requiredIn rules
      let missing ← required.filterM fun entry => do
        let present ← hasRequired given entry
        pure !present
      pure (missing.map fun entry => .here (.missing entry))) := by
    rw [missingIssues, requiredIn]
    cases rules.lookup "required" <;> rfl
  rw [inSteps] at complete
  obtain ⟨required, listed, rest⟩ := bind_eq_ok_iff.mp complete
  obtain ⟨missing, tested, nothing⟩ := bind_eq_ok_iff.mp rest
  obtain ⟨absent, each, rfl⟩ := filterM_eq_ok_iff.mp tested
  have nothingAbsent := List.filter_eq_nil_iff.mp (List.map_eq_nil_iff.mp (Except.ok.inj nothing))
  -- No entry was absent, so each is a key that was there and is absent now if it is left out.
  have eachWithout : ∀ entry ∈ required, (do
      let present ← hasRequired (members.without names) entry
      pure !present) = Except.ok (isLeftOut names entry) := by
    intro entry among
    obtain ⟨present, found, negated⟩ := bind_eq_ok_iff.mp (each entry among)
    have isPresent : present = true := by
      have same : (!present) = absent entry := Except.ok.inj negated
      cases present with
      | true => rfl
      | false => exact absurd same.symm (nothingAbsent entry among)
    rw [isPresent] at found
    rw [hasRequired_without found names, ok_bind, pure_eq_ok, Bool.not_not]
  refine ⟨required, listed, ?_⟩
  rw [inSteps, listed, ok_bind, filterM_eq_filter eachWithout]
  rfl

theorem objectIssues_without (valid : objectIssues strict rules members = .ok [])
    (names : List String) : ∃ required, requiredIn rules = .ok required ∧
      objectIssues strict rules (members.without names) =
        .ok ((required.filter (isLeftOut names)).map fun entry => .here (.missing entry)) := by
  rw [objectIssues_eq_together] at valid
  obtain ⟨missing, found, complete, gathered, nothing⟩ := together_eq_ok_iff.mp valid
  obtain ⟨rfl, rfl⟩ := List.append_eq_nil_iff.mp nothing.symm
  obtain ⟨required, listed, without⟩ := missingIssues_without complete names
  have each := gather_eq_nil_iff.mp gathered
  have kept : ∀ member ∈ members.without names, memberIssues strict rules member.1 member.2 =
      .ok [] := fun member among => each member (List.mem_of_mem_filter among)
  refine ⟨required, listed, ?_⟩
  rw [objectIssues_eq_together, without, gather_eq_nil_iff.mpr kept]
  exact congrArg Except.ok (List.append_nil _)

theorem validate_without (typed : (rules.valueAt "type").isText "object" = true)
    (valid : validate strict (.object rules) (.object members) = .ok []) (names : List String) :
    ∃ required, requiredIn rules = .ok required ∧
      validate strict (.object rules) (.object (members.without names)) =
        .ok (lackErrors names required) := by
  rw [validate_object typed] at valid
  obtain ⟨issues, run, nothing⟩ := map_eq_ok_iff.mp valid
  obtain rfl := List.map_eq_nil_iff.mp nothing
  obtain ⟨required, listed, without⟩ := objectIssues_without run names
  refine ⟨required, listed, ?_⟩
  rw [validate_object typed, without]
  exact congrArg Except.ok List.map_map

end Schema

namespace Project

open Schema

variable {strict : Bool} {kind : ItemType} {rules document members : Members}
  {items : List Value} {position : Nat} {item value : Value}

/-- The items that a project document lists of a kind. -/
def itemsOf? (kind : ItemType) (document : Members) : Option (List Value) :=
  (document.lookup kind.listName).bind Value.asItems?

/-- A list with another item at a position. -/
def withItem (position : Nat) (item : Value) : Value → Value
  | .array items => .array (items.set position item)
  | .tuple items => .tuple (items.set position item)
  | value => value

/-- A project document with another item at a position of the list of a kind. -/
def replaceItem (document : Members) (kind : ItemType) (position : Nat) (item : Value) : Members :=
  document.put kind.listName (withItem position item (document.valueAt kind.listName))

theorem asItems?_withItem (isArray : value.asItems? = some items) :
    (withItem position item value).asItems? = some (items.set position item) := by
  cases value with
  | array | tuple =>
      cases isArray
      rfl
  | null | bool | number | text | term | object | foreign => cases isArray

theorem errorsOfMember_list (strict : Bool) (kind : ItemType) (value : Value) :
    errorsOfMember strict (kind.listName, value) = Blueprint.listErrors kind.listName
      (fun place => Blueprint.objectErrors place (Contract.errors strict (.item kind))) value := by
  cases kind <;> rfl

/-- Where nothing is found in the items, what is found in a changed list is in the new item. -/
theorem flatMap_zipIdx_set {α β : Type} {items : List α} {position : Nat} {item : α}
    {found : α × Nat → List β} (start : Nat)
    (idle : ∀ entry ∈ items.zipIdx start, found entry = []) (within : position < items.length) :
    ((items.set position item).zipIdx start).flatMap found = found (item, start + position) := by
  induction items generalizing position start with
  | nil => cases within
  | cons first rest ih =>
      rw [List.zipIdx_cons] at idle
      obtain ⟨nothing, later⟩ := List.forall_mem_cons.mp idle
      cases position with
      | zero =>
          rw [List.set_cons_zero, List.zipIdx_cons, List.flatMap_cons,
            List.flatMap_eq_nil_iff.mpr later, List.append_nil, Nat.add_zero]
      | succ position =>
          rw [List.set_cons_succ, List.zipIdx_cons, List.flatMap_cons, nothing, List.nil_append,
            ih (start + 1) later (Nat.lt_of_succ_lt_succ within), Nat.add_right_comm, Nat.add_assoc]

/-- A document that is valid otherwise reports of a new item what is reported of it on its own. -/
theorem errors_replaceItem (listed : itemsOf? kind document = some items)
    (within : position < items.length) (valid : errors strict (.object document) = []) :
    errors strict (.object (replaceItem document kind position item)) =
      Blueprint.objectErrors (kind.listName ++ "[" ++ toString position ++ "]")
        (Contract.errors strict (.item kind)) item := by
  obtain ⟨list, found, isArray⟩ := Option.bind_eq_some_iff.mp listed
  obtain ⟨complete, each⟩ := List.append_eq_nil_iff.mp valid
  have idle := List.flatMap_eq_nil_iff.mp each
  have ofList := idle _ (Members.mem_of_lookup found)
  rw [errorsOfMember_list, Blueprint.listErrors, isArray] at ofList
  have present := List.filter_eq_nil_iff.mp (List.map_eq_nil_iff.mp complete)
  have stillPresent : (fieldNames.filter fun name =>
      !Members.hasKey (replaceItem document kind position item) name) = [] := by
    refine List.filter_eq_nil_iff.mpr fun name among absent => present name among ?_
    rw [Bool.not_eq_true', ← Bool.not_eq_true, Members.hasKey_iff_mem_keys] at absent ⊢
    exact fun known => absent (Members.mem_keys_put.mpr (.inr known))
  have isList : document.valueAt kind.listName = list := by
    rw [Members.valueAt, found, Option.getD_some]
  rw [errors, stillPresent, List.map_nil, List.nil_append, replaceItem, isList,
    Members.flatMap_put idle, errorsOfMember_list, Blueprint.listErrors,
    asItems?_withItem isArray]
  exact (flatMap_zipIdx_set 0 (List.flatMap_eq_nil_iff.mp ofList) within).trans
    (by rw [Nat.zero_add])

/-- Without some of its members, a valid object is told to lack what is required of them, entry by
entry, and nothing else is told.  Where the object is an item in a project document that is valid
with it, the same is told of the document, behind the place of the item. -/
theorem errors_of_left_out (typed : (rules.valueAt "type").isText "object" = true)
    (valid : validate strict (.object rules) (.object members) = .ok []) (names : List String) :
    ∃ required, requiredIn rules = .ok required ∧
      validate strict (.object rules) (.object (members.without names)) =
        .ok (lackErrors names required) ∧
      ∀ kind document items position, Contract.schemaOf (.item kind) = .object rules →
        itemsOf? kind document = some items → items[position]? = some (.object members) →
        validate strict (Contract.schemaOf .project) (.object document) = .ok [] →
        validate strict (Contract.schemaOf .project)
            (.object (replaceItem document kind position (.object (members.without names)))) =
          .ok ((lackErrors names required).map fun error =>
            kind.listName ++ "[" ++ toString position ++ "]." ++ error) := by
  obtain ⟨required, requires, told⟩ := validate_without typed valid names
  refine ⟨required, requires, told, ?_⟩
  intro kind document items position ofKind listed place validDocument
  rw [Contract.validate_eq_ok, errors_eq, Except.ok.injEq] at validDocument
  have ofItem : Contract.errors strict (.item kind) (.object (members.without names)) =
      lackErrors names required := by
    rw [← ofKind, Contract.validate_eq_ok, Except.ok.injEq] at told
    exact told
  have within := (List.getElem?_eq_some_iff.mp place).choose
  have behind (error : String) : kind.listName ++ "[" ++ toString position ++ "]" ++ "." ++ error =
      kind.listName ++ "[" ++ toString position ++ "]." ++ error := by
    have point : kind.listName ++ "[" ++ toString position ++ "]" ++ "." =
        kind.listName ++ "[" ++ toString position ++ "]." := String.append_assoc
    rw [point]
  rw [Contract.validate_eq_ok, errors_eq, errors_replaceItem listed within validDocument,
    Blueprint.objectErrors, ofItem]
  simp only [behind]

/-- A project with one task. -/
def smallProject : Members :=
  (membersIn emptyProject).put "tasks" (.array [.object (smallItem .task)])

theorem smallProject_without : ∃ rules required,
    Contract.schemaOf (.item .task) = .object rules ∧ requiredIn rules = .ok required ∧
    validate true (.object rules) (.object ((smallItem .task).without
      ["title", "subtasks", "owner"])) = .ok (lackErrors ["title", "subtasks", "owner"] required) ∧
    lackErrors ["title", "subtasks", "owner"] required =
      ["Missing required field: title", "Missing required field: subtasks"] ∧
    validate true (Contract.schemaOf .project) (.object (replaceItem smallProject .task 0
      (.object ((smallItem .task).without ["title", "subtasks", "owner"])))) =
        .ok ["tasks[0].Missing required field: title",
          "tasks[0].Missing required field: subtasks"] := by
  have ofTask : Contract.schemaOf (.item .task) = .object (Blueprint.registered .task).rules :=
    Contract.schemaOf_eq _
  have valid : validate true (.object (Blueprint.registered .task).rules)
      (.object (smallItem .task)) = .ok [] := ofTask ▸ smallItem_accepted .task
  obtain ⟨required, requires, told, toldOfItem⟩ :=
    errors_of_left_out rfl valid ["title", "subtasks", "owner"]
  have lacks : lackErrors ["title", "subtasks", "owner"] required =
      ["Missing required field: title", "Missing required field: subtasks"] := by
    cases requires
    rfl
  have toldOfTask := toldOfItem .task smallProject _ 0 ofTask rfl rfl
    (eq_ok_of_toOption (by decide +kernel))
  rw [lacks] at toldOfTask
  exact ⟨_, required, ofTask, requires, told, lacks, toldOfTask⟩

end Project

end WorkItems
