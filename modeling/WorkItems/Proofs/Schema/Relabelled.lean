import WorkItems.Proofs.Schema.Labelled
import WorkItems.Proofs.Schema.Undeclared

namespace WorkItems

/-! Errors under another label.

A label is only put in front: under another one a value has the same errors, in the same order,
with the other label in its place.  So what is told of a part of a value, at any depth, is what is
told of the part alone, behind the label of the value and the path to the part.
-/

theorem Path.suffix_append (path rest : Path) :
    suffix (path ++ rest) = path.suffix ++ suffix rest := by
  induction path with
  | nil => exact String.empty_append.symm
  | cons step path ih =>
      cases step with
      | key name => simp only [List.cons_append, suffix, ih, String.append_assoc]
      | index position => simp only [List.cons_append, suffix, ih, String.append_assoc]

namespace Schema

variable {strict : Bool} {rules members : Members} {schema inner value part : Value}
  {items : List Value} {issues : List Issue} {path : Path} {first : String}

/-- An error with another label in the place of the one that it begins with. -/
def relabel (label other error : String) : String :=
  other ++ String.ofList (error.toList.drop label.length)

theorem relabel_append (label other rest : String) :
    relabel label other (label ++ rest) = other ++ rest := by
  rw [relabel, String.toList_append, ← String.length_toList, List.drop_left, String.ofList_toList]

namespace Issue

theorem textUnder_eq_append (label : String) (issue : Issue) :
    issue.textUnder label =
      label ++ (issue.path.suffix ++ issue.violation.separator ++ issue.violation.message) := by
  simp only [textUnder, String.append_assoc]

theorem relabel_textUnder (label other : String) (issue : Issue) :
    relabel label other (issue.textUnder label) = issue.textUnder other := by
  rw [textUnder_eq_append, relabel_append, ← textUnder_eq_append]

/-- Whether an issue is about the part of a value at a path, or about something in it. -/
def isAt (path : Path) (issue : Issue) : Bool :=
  path.isPrefixOf issue.path

/-- An issue of the part at a path, seen from the whole. -/
def behind (path : Path) (issue : Issue) : Issue :=
  { issue with path := path ++ issue.path }

theorem isAt_under (step other : Step) (path : Path) (issue : Issue) :
    (issue.under step).isAt (other :: path) = (other == step && issue.isAt path) :=
  rfl

theorem isAt_onWhole {issue : Issue} (onWhole : issue.path = []) (step : Step) (path : Path) :
    issue.isAt (step :: path) = false := by
  rw [isAt, onWhole]
  rfl

theorem textUnder_behind (label : String) (path : Path) (issue : Issue) :
    (issue.behind path).textUnder label = issue.textUnder (label ++ path.suffix) := by
  simp only [textUnder, behind, Path.suffix_append, String.append_assoc]

theorem filter_isAt_under (step : Step) (path : Path) (issues : List Issue) :
    (issues.map (.under step)).filter (isAt (step :: path)) =
      (issues.filter (isAt path)).map (.under step) := by
  have same : isAt (step :: path) ∘ under step = isAt path := by
    funext issue
    rw [Function.comp_apply, isAt_under, beq_self_eq_true, Bool.true_and]
  rw [List.filter_map, same]

end Issue

/-- Where issues begin with the mark of their entry, those at a mark are from one entry. -/
theorem filter_isAt_gather {α : Type} {entries : List α} {entry : α} {mark : α → Step}
    {run : α → Except Fault (List Issue)} {all : List Issue} (marks : (entries.map mark).Nodup)
    (marked : ∀ entry ∈ entries, ∀ issues, run entry = .ok issues → ∀ issue ∈ issues,
      issue.path = [] ∨ ∃ rest, issue.path = mark entry :: rest)
    (gathered : gather run entries = .ok all) (listed : entry ∈ entries) (path : Path) :
    ∃ found, run entry = .ok found ∧
      all.filter (Issue.isAt (mark entry :: path)) =
        found.filter (Issue.isAt (mark entry :: path)) := by
  obtain ⟨found, each, rfl⟩ := gather_eq_ok_iff.mp gathered
  refine ⟨found entry, each entry listed, ?_⟩
  have elsewhere : ∀ other ∈ entries, mark other ≠ mark entry →
      (found other).filter (Issue.isAt (mark entry :: path)) = [] := by
    intro other listedToo different
    refine List.filter_eq_nil_iff.mpr fun issue among => ?_
    rcases marked other listedToo _ (each other listedToo) issue among with onWhole | ⟨rest, begins⟩
    · rw [Issue.isAt_onWhole onWhole]
      exact Bool.false_ne_true
    · rw [Issue.isAt, begins, List.isPrefixOf_cons_cons, Bool.and_eq_true, beq_iff_eq]
      exact fun both => different both.left.symm
  obtain ⟨before, after, rfl⟩ := List.append_of_mem listed
  rw [List.map_append, List.map_cons, List.nodup_middle, List.nodup_cons, List.mem_append,
    not_or] at marks
  obtain ⟨⟨notBefore, notAfter⟩, -⟩ := marks
  -- The entries before it and after it have other marks, so nothing of theirs is left.
  rw [List.filter_flatMap, List.flatMap_append, List.flatMap_cons,
    List.flatMap_eq_nil_iff.mpr, List.flatMap_eq_nil_iff.mpr, List.nil_append, List.append_nil]
  · intro other among
    refine elsewhere other (List.mem_append_right _ (List.mem_cons_of_mem _ among)) fun same => ?_
    exact notAfter (same ▸ List.mem_map_of_mem among)
  · intro other among
    refine elsewhere other (List.mem_append_left _ among) fun same => ?_
    exact notBefore (same ▸ List.mem_map_of_mem among)

/-- The walk of a value beside a schema comes at a path to a part of the value beside its schema. -/
inductive Visits : Value → Value → Path → Value → Value → Prop where
  | here (schema value : Value) : Visits schema value [] schema value
  | item {rules itemRules : Members} {value item inner part : Value} {items : List Value}
    {position : Nat} {path : Path} (typed : (expectedType rules).isText "array" = true)
    (isArray : value.asItems? = some items) (entry : items[position]? = some item)
    (declared : rules.valueAt "items" = .object itemRules)
    (later : Visits (.object itemRules) item path inner part) :
    Visits (.object rules) value (.index position :: path) inner part
  | member {rules members : Members} {key : String} {value inner part : Value} {path : Path}
    (typed : (expectedType rules).isText "object" = true) (entry : (key, value) ∈ members)
    (declared : declaredSchema rules key ≠ .null)
    (later : Visits (declaredSchema rules key) value path inner part) :
    Visits (.object rules) (.object members) (.key key :: path) inner part

theorem items_at {itemRules : Members} {item : Value} {position : Nat}
    (declared : rules.valueAt "items" = .object itemRules) (entry : items[position]? = some item)
    (run : gather (itemIssues strict (rules.valueAt "items")) items.zipIdx = .ok issues)
    (path : Path) : ∃ found, fieldIssues strict (.object itemRules) item = .ok found ∧
      issues.filter (Issue.isAt (.index position :: path)) =
        (found.filter (Issue.isAt path)).map (.under (.index position)) := by
  have each (entry : Value × Nat) : itemIssues strict (rules.valueAt "items") entry =
      (fieldIssues strict (.object itemRules) entry.1).map
        (List.map (.under (.index entry.2))) := by
    rw [declared]
    rfl
  have marked : ∀ entry ∈ items.zipIdx, ∀ issues,
      itemIssues strict (rules.valueAt "items") entry = .ok issues →
        ∀ issue ∈ issues, issue.path = [] ∨ ∃ rest, issue.path = .index entry.2 :: rest := by
    intro entry _ issues ofEntry issue among
    rw [each] at ofEntry
    obtain ⟨inner, -, rfl⟩ := map_eq_ok_iff.mp ofEntry
    obtain ⟨under, -, rfl⟩ := List.mem_map.mp among
    exact .inr ⟨under.path, rfl⟩
  have listed := List.mk_mem_zipIdx_iff_getElem?.mpr entry
  obtain ⟨found, ofItem, atItem⟩ :=
    filter_isAt_gather (indexSteps_nodup items) marked run listed path
  rw [each] at ofItem
  obtain ⟨inner, innerRun, rfl⟩ := map_eq_ok_iff.mp ofItem
  exact ⟨inner, innerRun, atItem.trans (Issue.filter_isAt_under _ _ _)⟩

theorem members_at {key : String} (distinct : Members.Distinct members)
    (declared : declaredSchema rules key ≠ .null) (entry : (key, value) ∈ members)
    (run : gather (fun member => memberIssues strict rules member.1 member.2) members = .ok issues)
    (path : Path) : ∃ found, fieldIssues strict (declaredSchema rules key) value = .ok found ∧
      issues.filter (Issue.isAt (.key key :: path)) =
        (found.filter (Issue.isAt path)).map (.under (.key key)) := by
  have marked : ∀ member ∈ members, ∀ issues,
      memberIssues strict rules member.1 member.2 = .ok issues →
        ∀ issue ∈ issues, issue.path = [] ∨ ∃ rest, issue.path = .key member.1 :: rest := by
    intro member _ issues ofMember issue among
    rcases memberIssues_cases rules member.1 with ⟨fault, fails⟩ | ⟨-, told⟩ | ⟨-, walked⟩
    · rw [fails] at ofMember
      cases ofMember
    · rw [told, Except.ok.injEq] at ofMember
      subst ofMember
      split at among
      · exact .inl (List.mem_singleton.mp among ▸ rfl)
      · cases among
    · rw [walked] at ofMember
      obtain ⟨inner, -, rfl⟩ := map_eq_ok_iff.mp ofMember
      obtain ⟨under, -, rfl⟩ := List.mem_map.mp among
      exact .inr ⟨under.path, rfl⟩
  obtain ⟨found, ofMember, atMember⟩ :=
    filter_isAt_gather (keySteps_nodup distinct) marked run entry path
  rcases memberIssues_cases rules key with ⟨fault, fails⟩ | ⟨unknown, -⟩ | ⟨-, walked⟩
  · rw [fails] at ofMember
    cases ofMember
  · exact absurd unknown declared
  · rw [walked] at ofMember
    obtain ⟨inner, innerRun, rfl⟩ := map_eq_ok_iff.mp ofMember
    exact ⟨inner, innerRun, atMember.trans (Issue.filter_isAt_under _ _ _)⟩

theorem filter_isAt_onWhole {own parts : List Issue} (onWhole : ∀ issue ∈ own, issue.path = [])
    (step : Step) (path : Path) : (own ++ parts).filter (Issue.isAt (step :: path)) =
      parts.filter (Issue.isAt (step :: path)) := by
  have none : own.filter (Issue.isAt (step :: path)) = [] :=
    List.filter_eq_nil_iff.mpr fun issue among => by
      rw [Issue.isAt_onWhole (onWhole issue among)]
      exact Bool.false_ne_true
  rw [List.filter_append, none, List.nil_append]

theorem ownIssues_onWhole {expected : Value} :
    AllIssues (fun issue => issue.path = []) (ownIssues rules expected value) :=
  ownIssues_all (fun _ => Issue.IsDirect.onWhole) fun _ => rfl

/-- What is found at a place is what is found in the part alone that is there. -/
theorem issues_at (keyed : value.Keyed) (visits : Visits schema value path inner part)
    (run : fieldIssues strict schema value = .ok issues) :
    ∃ found, fieldIssues strict inner part = .ok found ∧
      issues.filter (Issue.isAt path) = found.map (Issue.behind path) := by
  induction visits generalizing issues with
  | here schema value =>
      have all : issues.filter (Issue.isAt []) = issues :=
        List.filter_eq_self.mpr fun _ _ => rfl
      have same : Issue.behind [] = id := rfl
      exact ⟨issues, run, by rw [all, same, List.map_id]⟩
  | @item rules itemRules value item inner part items position path typed isArray entry declared
      later ih =>
      rw [fieldIssues_walk, settled?_array typed isArray, partIssues_array typed isArray] at run
      obtain ⟨own, parts, ownRun, partsRun, rfl⟩ := together_eq_ok_iff.mp run
      obtain ⟨ofItem, itemRun, atItem⟩ := items_at declared entry partsRun path
      have keyedItem := keyed.ofItems isArray item (List.mem_of_getElem? entry)
      obtain ⟨found, foundRun, atPart⟩ := ih keyedItem itemRun
      refine ⟨found, foundRun, ?_⟩
      -- What the array says about itself is at no place in it.
      rw [filter_isAt_onWhole (ownIssues_onWhole own ownRun), atItem, atPart, List.map_map]
      rfl
  | @member rules members key value inner part path typed entry declared later ih =>
      rw [fieldIssues_walk, settled?_object typed, partIssues_object typed] at run
      obtain ⟨own, parts, ownRun, partsRun, rfl⟩ := together_eq_ok_iff.mp run
      obtain ⟨distinct, keyedEach⟩ := Value.keyed_object_iff.mp keyed
      obtain ⟨ofMember, memberRun, atMember⟩ := members_at distinct declared entry partsRun path
      obtain ⟨found, foundRun, atPart⟩ := ih (keyedEach _ entry) memberRun
      refine ⟨found, foundRun, ?_⟩
      rw [filter_isAt_onWhole (ownIssues_onWhole own ownRun), atMember, atPart, List.map_map]
      rfl

/-- What a part goes by in a value that goes by a label, or that is an object and goes by none. -/
def placeLabel : Option String → Path → String
  | some label, path => label ++ path.suffix
  | none, .key name :: path => name ++ Path.suffix path
  | none, _ => ""

/-- Whether the issues of a value tell at each of its parts just what is told of the part alone,
but with the place of the part for a label. -/
def TellsParts (strict : Bool) (schema value : Value) (label? : Option String)
    (issues : List Issue) : Prop :=
  ∀ step path inner part, Visits schema value (step :: path) inner part → ∀ other,
    fieldErrors strict inner part other =
      .ok (((issues.filter (Issue.isAt (step :: path))).map (Issue.told label?)).map
        (relabel (placeLabel label? (step :: path)) other))

theorem relabel_told {label? : Option String} {step : Step}
    (placed : label? = none → ∃ name, step = .key name) (path : Path) (other : String)
    (issue : Issue) :
    relabel (placeLabel label? (step :: path)) other ((issue.behind (step :: path)).told label?) =
      issue.textUnder other := by
  cases label? with
  | some label => rw [Issue.told, Issue.textUnder_behind, placeLabel, Issue.relabel_textUnder]
  | none =>
      obtain ⟨name, rfl⟩ := placed rfl
      have text : (issue.behind (.key name :: path)).told none =
          (issue.behind path).textUnder name := rfl
      rw [text, Issue.textUnder_behind, placeLabel, Issue.relabel_textUnder]

theorem errors_of_found {label? : Option String} {step : Step} {found : List Issue}
    (placed : label? = none → ∃ name, step = .key name)
    (run : fieldIssues strict inner part = .ok found)
    (atPart : issues.filter (Issue.isAt (step :: path)) = found.map (Issue.behind (step :: path)))
    (other : String) : fieldErrors strict inner part other =
      .ok (((issues.filter (Issue.isAt (step :: path))).map (Issue.told label?)).map
        (relabel (placeLabel label? (step :: path)) other)) := by
  rw [fieldErrors_eq part inner other, toldUnder, run, atPart, List.map_map, List.map_map]
  refine congrArg Except.ok (List.map_congr_left fun issue _ => ?_)
  exact (relabel_told placed path other issue).symm

theorem rootIssues_at {step : Step} (keyed : value.Keyed)
    (visits : Visits (.object rules) value (step :: path) inner part)
    (run : rootIssues strict rules value = .ok issues) :
    (rootLabel? rules = none → ∃ name, step = .key name) ∧
      ∃ found, fieldIssues strict inner part = .ok found ∧
        issues.filter (Issue.isAt (step :: path)) = found.map (Issue.behind (step :: path)) := by
  rw [rootLabel?]
  by_cases typed : (rules.valueAt "type").isText "object" = true
  · have isObject := (type_of_typed typed).left
    cases visits with
    | item isArray =>
        rw [Value.isText_iff, isObject] at isArray
        exact absurd (Option.some.inj isArray) (by decide)
    | @member _ members key value _ _ _ _ entry declared later =>
        rw [rootIssues_object typed, objectIssues_eq_together] at run
        obtain ⟨missing, parts, missingRun, partsRun, rfl⟩ := together_eq_ok_iff.mp run
        obtain ⟨distinct, keyedEach⟩ := Value.keyed_object_iff.mp keyed
        obtain ⟨ofMember, memberRun, atMember⟩ := members_at distinct declared entry partsRun path
        obtain ⟨found, foundRun, atPart⟩ := issues_at (keyedEach _ entry) later memberRun
        have onWhole : AllIssues (fun issue => issue.path = []) (missingIssues rules members) :=
          missingIssues_all fun _ => rfl
        refine ⟨fun _ => ⟨key, rfl⟩, found, foundRun, ?_⟩
        rw [filter_isAt_onWhole (onWhole missing missingRun), atMember, atPart, List.map_map]
        rfl
  · rw [rootIssues_field typed] at run
    rw [if_neg typed]
    exact ⟨fun unlabelled => absurd unlabelled (Option.some_ne_none _),
      issues_at keyed visits run⟩

/-- Every error of a labelled value begins with its label, and with another label in the place of
that, the errors are those of the value under the other label, in the same order.  What a value
tells at an item or a member, at any depth, is what is told of the part alone with the path to it
for a label; so it is in labelled values and in whole ones. -/
theorem labels_uniform (strict : Bool) (schema value : Value) :
    (∀ first errors, fieldErrors strict schema value first = .ok errors →
      (∀ error ∈ errors, ∃ rest, error = first ++ rest) ∧
      (∀ second, fieldErrors strict schema value second =
        .ok (errors.map (relabel first second))) ∧
      ∃ issues, fieldIssues strict schema value = .ok issues ∧
        errors = issues.map (Issue.told (some first)) ∧
        (value.Keyed → TellsParts strict schema value (some first) issues)) ∧
    ∀ rules errors, schema = .object rules → validate strict schema value = .ok errors →
      ∃ issues, rootIssues strict rules value = .ok issues ∧
        errors = issues.map (Issue.told (rootLabel? rules)) ∧
        (value.Keyed → TellsParts strict schema value (rootLabel? rules) issues) := by
  constructor
  · intro first errors run
    rw [fieldErrors_eq value schema first] at run
    obtain ⟨issues, issuesRun, rfl⟩ := map_eq_ok_iff.mp run
    refine ⟨?_, fun second => ?_, issues, issuesRun, rfl, fun keyed => ?_⟩
    · intro error among
      obtain ⟨issue, -, rfl⟩ := List.mem_map.mp among
      exact ⟨_, Issue.textUnder_eq_append first issue⟩
    · rw [fieldErrors_eq value schema second, toldUnder, issuesRun, List.map_map]
      refine congrArg Except.ok (List.map_congr_left fun issue _ => ?_)
      exact (Issue.relabel_textUnder first second issue).symm
    · intro step path inner part visits other
      obtain ⟨found, foundRun, atPart⟩ := issues_at keyed visits issuesRun
      have labelled : some first = none → ∃ name, step = .key name := nofun
      exact errors_of_found labelled foundRun atPart other
  · rintro rules errors rfl run
    rw [validate_eq_told] at run
    obtain ⟨issues, issuesRun, rfl⟩ := map_eq_ok_iff.mp run
    refine ⟨issues, issuesRun, rfl, fun keyed => ?_⟩
    intro step path inner part visits other
    obtain ⟨placed, found, foundRun, atPart⟩ := rootIssues_at keyed visits issuesRun
    exact errors_of_found placed foundRun atPart other

/-- The rules on the parts of crates. -/
def crateItemRules : Members :=
  [("type", .array [.text "null", .text "object"]), ("additionalProperties", .bool false),
   ("properties", .object [("size", .object [("type", .text "integer")])])]

def crateItem : Value :=
  .object [("color", .text "red"), ("size", .text "small")]

theorem crate_visits : Visits (.object crateRules) crate [.key "parts", .index 1]
    (.object crateItemRules) crateItem := by
  have listed : ("parts", Value.array [.null, crateItem]) ∈
      [("parts", Value.array [.null, crateItem]), ("weight", .int 3)] := List.mem_cons_self
  exact .member rfl listed nofun (.item rfl rfl rfl rfl (.here _ _))

theorem crate_relabelled :
    fieldErrors true (.object crateRules) crate "crate" =
      .ok ["crate.parts[1].Unexpected field: color",
        "crate.parts[1].size: Expected integer, got string", "crate.Unexpected field: weight"] ∧
    fieldErrors true (.object crateRules) crate "box" =
      .ok ["box.parts[1].Unexpected field: color",
        "box.parts[1].size: Expected integer, got string", "box.Unexpected field: weight"] ∧
    fieldErrors true (.object crateItemRules) crateItem "part" =
      .ok ["part.Unexpected field: color", "part.size: Expected integer, got string"] := by
  have run : fieldErrors true (.object crateRules) crate "crate" =
      .ok ["crate.parts[1].Unexpected field: color",
        "crate.parts[1].size: Expected integer, got string", "crate.Unexpected field: weight"] :=
    eq_ok_of_toOption (by decide +kernel)
  have keyed : crate.Keyed := by
    simp [crate, Value.Keyed, Members.Distinct, Value.Every, Value.EveryItem, Value.EveryMember,
      Value.int]
  obtain ⟨fields, -⟩ := labels_uniform true (.object crateRules) crate
  obtain ⟨-, renamed, issues, issuesRun, -, tells⟩ := fields "crate" _ run
  have inPart := tells keyed _ _ _ _ crate_visits "part"
  have computed : (fieldIssues true (.object crateRules) crate).toOption.map (fun issues =>
      ((issues.filter (Issue.isAt [.key "parts", .index 1])).map (Issue.told (some "crate"))).map
        (relabel (placeLabel (some "crate") [.key "parts", .index 1]) "part")) =
      some ["part.Unexpected field: color", "part.size: Expected integer, got string"] := by
    decide +kernel
  rw [issuesRun] at computed
  exact ⟨run, (renamed "box").trans (congrArg Except.ok (by decide +kernel)),
    inPart.trans (congrArg Except.ok (Option.some.inj computed))⟩

end Schema

end WorkItems
