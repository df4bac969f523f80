import WorkItems.Proofs.Schema.Lenient
import WorkItems.Proofs.Value.Equality

namespace WorkItems.Schema

/-! What strictness adds.

A strict walk finds every key without a schema of every closed object that it comes to, once, and
tells it behind the place of the object.
-/

variable {strict : Bool} {rules members : Members} {schema value : Value} {issues : List Issue}
  {items : List Value} {path : Path} {key : String}

/-- The objects that the walk of a value beside a schema comes to, with their places and with the
rules that they are walked by. -/
inductive Reaches : Value → Value → Path → Members → Members → Prop where
  | here {rules members : Members} (typed : (expectedType rules).isText "object" = true) :
    Reaches (.object rules) (.object members) [] rules members
  | item {rules inner members : Members} {value item : Value} {items : List Value}
    {position : Nat} {path : Path} (typed : (expectedType rules).isText "array" = true)
    (isArray : value.asItems? = some items) (entry : items[position]? = some item)
    (later : Reaches (rules.valueAt "items") item path inner members) :
    Reaches (.object rules) value (.index position :: path) inner members
  | member {rules inner members found : Members} {key : String} {value : Value} {path : Path}
    (typed : (expectedType rules).isText "object" = true) (entry : (key, value) ∈ members)
    (later : Reaches (declaredSchema rules key) value path inner found) :
    Reaches (.object rules) (.object members) (.key key :: path) inner found

/-- Whether a walk comes at a place to a closed object that has a key without a schema. -/
def UndeclaredAt (schema value : Value) (path : Path) (key : String) : Prop :=
  ∃ rules members : Members, Reaches schema value path rules members ∧
    rules.valueAt "additionalProperties" = .bool false ∧ members.hasKey key = true ∧
    declaredSchema rules key = .null

theorem undeclaredAt_items_iff (isArray : value.asItems? = some items) :
    UndeclaredAt (.object rules) value path key ↔
      (expectedType rules).isText "array" = true ∧ ∃ item position rest,
        items[position]? = some item ∧ path = .index position :: rest ∧
        UndeclaredAt (rules.valueAt "items") item rest key := by
  constructor
  · intro undeclared
    obtain ⟨inner, members, reaches, closed⟩ := undeclared
    cases reaches with
    | here => cases isArray
    | item typed alsoArray entry later =>
        cases isArray.symm.trans alsoArray
        exact ⟨typed, _, _, _, entry, rfl, inner, members, later, closed⟩
    | member => cases isArray
  · intro undeclared
    obtain ⟨typed, item, position, rest, entry, rfl, inner, members, later, closed⟩ := undeclared
    exact ⟨inner, members, .item typed isArray entry later, closed⟩

/-- Whether a member is undeclared itself, or a walk comes in it to one that is. -/
def UndeclaredIn (rules : Members) (member : String × Value) (path : Path) (key : String) : Prop :=
  (declaredSchema rules member.1 = .null ∧ rules.valueAt "additionalProperties" = .bool false ∧
    path = [] ∧ key = member.1) ∨
  ∃ rest, path = .key member.1 :: rest ∧
    UndeclaredAt (declaredSchema rules member.1) member.2 rest key

theorem undeclaredAt_object_iff : UndeclaredAt (.object rules) (.object members) path key ↔
    (expectedType rules).isText "object" = true ∧
      ∃ member ∈ members, UndeclaredIn rules member path key := by
  constructor
  · intro undeclared
    obtain ⟨inner, found, reaches, closed, present, unknown⟩ := undeclared
    cases reaches with
    | here typed =>
        obtain ⟨value, entry⟩ := Members.hasKey_iff.mp present
        exact ⟨typed, _, entry, .inl ⟨unknown, closed, rfl, rfl⟩⟩
    | item typed isArray => cases isArray
    | @member _ _ _ _ name value rest typed entry later =>
        exact ⟨typed, _, entry, .inr ⟨rest, rfl, inner, found, later, closed, present, unknown⟩⟩
  · intro undeclared
    rcases undeclared with ⟨typed, ⟨name, value⟩, entry, ⟨unknown, closed, rfl, rfl⟩ |
      ⟨rest, rfl, inner, found, later, closed, present, unknown⟩⟩
    · exact ⟨rules, members, .here typed, closed, Members.hasKey_iff.mpr ⟨value, entry⟩, unknown⟩
    · exact ⟨inner, found, .member typed entry later, closed, present, unknown⟩

theorem not_undeclaredAt_malformed (malformed : ∀ rules, schema ≠ .object rules) :
    ¬ UndeclaredAt schema value path key := by
  intro undeclared
  obtain ⟨inner, members, reaches, -⟩ := undeclared
  cases reaches with
  | here | item | member => exact malformed _ rfl

theorem not_undeclaredAt_other (notArray : value.asItems? = none)
    (notObject : ∀ members, value ≠ .object members) : ¬ UndeclaredAt schema value path key := by
  intro undeclared
  obtain ⟨inner, members, reaches, -⟩ := undeclared
  cases reaches with
  | here | member => exact notObject _ rfl
  | item typed isArray => cases notArray.symm.trans isArray

/-- The places of the issues about undeclared members. -/
def placesIn (issues : List Issue) : List (Path × String) :=
  issues.filterMap Issue.undeclaredAt?

/-- Whether issues tell of every undeclared member of a closed object just once. -/
structure Places (schema value : Value) (issues : List Issue) : Prop where
  nodup : (placesIn issues).Nodup
  mem_iff : ∀ path key, (path, key) ∈ placesIn issues ↔ UndeclaredAt schema value path key

theorem placesIn_append (found further : List Issue) :
    placesIn (found ++ further) = placesIn found ++ placesIn further :=
  List.filterMap_append

theorem placesIn_lenient (lenient : ∀ issue ∈ issues, issue.isLenient = true) :
    placesIn issues = [] :=
  List.filterMap_eq_nil_iff.mpr fun issue member => Option.isNone_iff_eq_none.mp
    (lenient issue member)

theorem placesIn_under (step : Step) (issues : List Issue) :
    placesIn (issues.map (.under step)) =
      (placesIn issues).map fun place => (step :: place.1, place.2) := by
  rw [placesIn, placesIn, List.filterMap_map, List.map_filterMap]
  exact congrArg (List.filterMap · issues) (funext (Issue.undeclaredAt?_under step))

/-- The first step on the way to an undeclared member. -/
def firstStep (place : Path × String) : Step :=
  place.1.head?.getD (.key place.2)

/-- Places in different parts are different. -/
theorem placesIn_flatMap_nodup {α : Type} {entries : List α} {found : α → List Issue}
    {mark : α → Step} (marks : (entries.map mark).Nodup)
    (each : ∀ entry ∈ entries, (placesIn (found entry)).Nodup)
    (first : ∀ entry ∈ entries, ∀ place ∈ placesIn (found entry), firstStep place = mark entry) :
    (placesIn (entries.flatMap found)).Nodup := by
  rw [placesIn, List.filterMap_flatMap, List.Nodup, List.pairwise_flatMap]
  refine ⟨each, (List.pairwise_map.mp marks).imp_of_mem ?_⟩
  intro entry other member memberToo different place among again amongToo same
  apply different
  rw [← first entry member place among, ← first other memberToo again amongToo, same]

theorem mem_placesIn_flatMap {α : Type} {entries : List α} {found : α → List Issue}
    {place : Path × String} : place ∈ placesIn (entries.flatMap found) ↔
      ∃ entry ∈ entries, place ∈ placesIn (found entry) := by
  rw [placesIn, List.filterMap_flatMap, List.mem_flatMap]
  rfl

theorem not_undeclaredAt_settled (settled : settled? rules value = some issues) :
    ¬ UndeclaredAt (.object rules) value path key := by
  intro undeclared
  obtain ⟨inner, members, reaches, -⟩ := undeclared
  have unsettled : settled? rules value = none := by
    cases reaches with
    | here typed => exact settled?_object typed
    | item typed isArray => exact settled?_array typed isArray
    | member typed => exact settled?_object typed
  rw [unsettled] at settled
  cases settled

theorem forbidsUndeclared_iff : forbidsUndeclared strict rules = true ↔
    strict = true ∧ rules.valueAt "additionalProperties" = .bool false := by
  unfold forbidsUndeclared
  split
  · rename_i closed
    simp [closed]
  · rename_i other
    exact iff_of_false Bool.false_ne_true fun both => other both.right

theorem Places.under (places : Places schema value issues) (step : Step) :
    (placesIn (issues.map (.under step))).Nodup ∧ ∀ path key,
      (path, key) ∈ placesIn (issues.map (.under step)) ↔
        ∃ rest, path = step :: rest ∧ UndeclaredAt schema value rest key := by
  rw [placesIn_under]
  refine ⟨places.nodup.map ?_, fun path key => ?_⟩
  · intro place other same
    obtain ⟨path, key⟩ := place
    obtain ⟨rest, name⟩ := other
    simpa using same
  · simp only [List.mem_map, Prod.mk.injEq, Prod.exists, ← places.mem_iff]
    constructor
    · intro among
      obtain ⟨rest, name, among, rfl, rfl⟩ := among
      exact ⟨rest, rfl, among⟩
    · intro among
      obtain ⟨rest, rfl, among⟩ := among
      exact ⟨rest, key, among, rfl, rfl⟩

theorem places_of_itemIssues {item : Value} {position : Nat}
    (each : ∀ rules issues, fieldIssues true (.object rules) item = .ok issues →
      Places (.object rules) item issues)
    (run : itemIssues true schema (item, position) = .ok issues) :
    (placesIn issues).Nodup ∧ ∀ path key, (path, key) ∈ placesIn issues ↔
      ∃ rest, path = .index position :: rest ∧ UndeclaredAt schema item rest key := by
  rcases schema.object_or_other with ⟨rules, rfl⟩ | malformed
  · rw [itemIssues] at run
    cases found : fieldIssues true (.object rules) item with
    | error fault =>
        rw [found] at run
        cases run
    | ok inner =>
        rw [found] at run
        cases run
        exact (each rules inner found).under (.index position)
  · have nothing : issues = [] := by
      cases schema with
      | object rules => exact absurd rfl (malformed rules)
      | null | bool | number | text | term | array | tuple | foreign =>
          exact (Except.ok.inj run).symm
    subst nothing
    refine ⟨List.nodup_nil, fun path key => iff_of_false List.not_mem_nil ?_⟩
    intro inside
    obtain ⟨rest, -, undeclared⟩ := inside
    exact not_undeclaredAt_malformed malformed undeclared

theorem places_of_memberIssues
    (each : ∀ schema issues, fieldIssues true schema value = .ok issues →
      Places schema value issues)
    (run : memberIssues true rules key value = .ok issues) :
    (placesIn issues).Nodup ∧ ∀ path name, (path, name) ∈ placesIn issues ↔
      UndeclaredIn rules (key, value) path name := by
  rcases memberIssues_cases rules key with ⟨fault, fails⟩ | ⟨unknown, told⟩ | ⟨known, walked⟩
  · rw [fails] at run
    cases run
  · rw [told, Except.ok.injEq] at run
    subst run
    have inside : ∀ rest name, ¬ UndeclaredAt .null value rest name := fun rest name =>
      not_undeclaredAt_malformed nofun
    by_cases closed : rules.valueAt "additionalProperties" = .bool false
    · rw [if_pos (forbidsUndeclared_iff.mpr ⟨rfl, closed⟩)]
      refine ⟨List.nodup_singleton _, fun path name => ?_⟩
      simp [UndeclaredIn, unknown, inside, closed, placesIn, Issue.here, Issue.undeclaredAt?]
    · rw [if_neg fun forbidden => closed (forbidsUndeclared_iff.mp forbidden).right]
      refine ⟨List.nodup_nil, fun path name => ?_⟩
      simp [UndeclaredIn, unknown, inside, closed, placesIn]
  · rw [walked] at run
    cases found : fieldIssues true (declaredSchema rules key) value with
    | error fault =>
        rw [found] at run
        cases run
    | ok inner =>
        rw [found] at run
        cases run
        obtain ⟨nodup, mem⟩ := (each _ inner found).under (.key key)
        refine ⟨nodup, fun path name => (mem path name).trans ?_⟩
        simp [UndeclaredIn, known]

/-- Steps to different items are different, and so are steps to different members. -/
theorem indexSteps_nodup (items : List Value) :
    (items.zipIdx.map fun entry => Step.index entry.2).Nodup := by
  have positions : (items.zipIdx.map Prod.snd).Nodup := by
    rw [List.zipIdx_map_snd]
    exact List.nodup_range'
  exact List.pairwise_map.mpr ((List.pairwise_map.mp positions).imp fun other same =>
    other (Step.index.inj same))

theorem keySteps_nodup (distinct : Members.Distinct members) :
    (members.map fun member => Step.key member.1).Nodup :=
  List.pairwise_map.mpr ((List.pairwise_map.mp distinct).imp fun other same =>
    other (Step.key.inj same))

theorem places_of_items (typed : (expectedType rules).isText "array" = true)
    (isArray : value.asItems? = some items)
    (each : ∀ item ∈ items, ∀ rules issues, fieldIssues true (.object rules) item = .ok issues →
      Places (.object rules) item issues)
    (run : gather (itemIssues true (rules.valueAt "items")) items.zipIdx = .ok issues) :
    Places (.object rules) value issues := by
  obtain ⟨found, eachRun, rfl⟩ := gather_eq_ok_iff.mp run
  have eachPlaces := fun entry listed =>
    places_of_itemIssues (each entry.1 (List.fst_mem_of_mem_zipIdx listed)) (eachRun entry listed)
  constructor
  · -- Every place in an item begins with the position of the item.
    refine placesIn_flatMap_nodup (indexSteps_nodup items)
      (fun entry listed => (eachPlaces entry listed).left) ?_
    intro entry listed place among
    obtain ⟨path, key⟩ := place
    obtain ⟨rest, rfl, -⟩ := ((eachPlaces entry listed).right path key).mp among
    rfl
  · intro path key
    rw [mem_placesIn_flatMap, undeclaredAt_items_iff isArray]
    constructor
    · intro among
      obtain ⟨entry, listed, among⟩ := among
      obtain ⟨rest, same, undeclared⟩ := ((eachPlaces entry listed).right path key).mp among
      have position := List.mem_zipIdx_iff_getElem?.mp listed
      exact ⟨typed, entry.1, entry.2, rest, position, same, undeclared⟩
    · intro undeclared
      obtain ⟨-, item, position, rest, entry, same, undeclared⟩ := undeclared
      have listed := List.mk_mem_zipIdx_iff_getElem?.mpr entry
      exact ⟨_, listed, ((eachPlaces _ listed).right path key).mpr ⟨rest, same, undeclared⟩⟩

theorem places_of_members (typed : (expectedType rules).isText "object" = true)
    (distinct : Members.Distinct members)
    (each : ∀ member ∈ members, ∀ schema issues, fieldIssues true schema member.2 = .ok issues →
      Places schema member.2 issues)
    (run : gather (fun member => memberIssues true rules member.1 member.2) members = .ok issues) :
    Places (.object rules) (.object members) issues := by
  obtain ⟨found, eachRun, rfl⟩ := gather_eq_ok_iff.mp run
  have eachPlaces := fun member entry =>
    places_of_memberIssues (each member entry) (eachRun member entry)
  constructor
  · -- Every place in a member begins with its key, unless the member itself is undeclared.
    refine placesIn_flatMap_nodup (keySteps_nodup distinct)
      (fun member entry => (eachPlaces member entry).left) ?_
    intro member entry place among
    obtain ⟨path, key⟩ := place
    rcases ((eachPlaces member entry).right path key).mp among with
      ⟨-, -, rfl, rfl⟩ | ⟨rest, rfl, -⟩
    · rfl
    · rfl
  · intro path key
    rw [mem_placesIn_flatMap, undeclaredAt_object_iff]
    constructor
    · intro among
      obtain ⟨member, entry, among⟩ := among
      exact ⟨typed, member, entry, ((eachPlaces member entry).right path key).mp among⟩
    · intro undeclared
      obtain ⟨-, member, entry, undeclared⟩ := undeclared
      exact ⟨member, entry, ((eachPlaces member entry).right path key).mpr undeclared⟩

theorem Places.append_own {own parts : List Issue} (places : Places schema value parts)
    (lenient : ∀ issue ∈ own, issue.isLenient = true) : Places schema value (own ++ parts) := by
  have same : placesIn (own ++ parts) = placesIn parts := by
    rw [placesIn_append, placesIn_lenient lenient, List.nil_append]
  exact ⟨same ▸ places.nodup, fun path key => same ▸ places.mem_iff path key⟩

theorem Places.of_lenient (lenient : ∀ issue ∈ issues, issue.isLenient = true)
    (none : ∀ path key, ¬ UndeclaredAt schema value path key) : Places schema value issues := by
  refine ⟨placesIn_lenient lenient ▸ List.nodup_nil, fun path key => ?_⟩
  rw [placesIn_lenient lenient]
  exact iff_of_false List.not_mem_nil (none path key)

theorem places_of_parts
    (parts : ∀ rules issues, partIssues true rules (expectedType rules) value = .ok issues →
      Places (.object rules) value issues)
    (run : fieldIssues true schema value = .ok issues) : Places schema value issues := by
  rcases schema.object_or_other with ⟨rules, rfl⟩ | malformed
  · rw [fieldIssues_walk] at run
    cases settled : settled? rules value with
    | some found =>
        rw [settled] at run
        cases run
        exact .of_lenient (settled?_lenient settled) fun _ _ => not_undeclaredAt_settled settled
    | none =>
        rw [settled] at run
        obtain ⟨own, found, ownRun, partsRun, rfl⟩ := together_eq_ok_iff.mp run
        exact (parts rules found partsRun).append_own (ownIssues_allLenient own ownRun)
  · rw [fieldIssues_malformed malformed] at run
    cases run

/-- A strict walk tells of every undeclared member of a closed object that it comes to. -/
theorem places_of_fieldIssues (keyed : value.Keyed)
    (run : fieldIssues true schema value = .ok issues) : Places schema value issues := by
  induction value using Value.byParts generalizing schema issues with
  | array items ih | tuple items ih =>
      refine places_of_parts (fun rules issues parts => ?_) run
      rw [partIssues] at parts
      cases typed : (expectedType rules).isText "array" with
      | true =>
          rw [typed] at parts
          exact places_of_items typed rfl
            (fun item member rules issues => ih item member (keyed.ofItems rfl item member)) parts
      | false =>
          rw [typed] at parts
          cases parts
          refine .of_lenient (List.forall_mem_nil _) fun path key undeclared => ?_
          obtain ⟨alsoTyped, -⟩ := (undeclaredAt_items_iff rfl).mp undeclared
          exact absurd alsoTyped (Bool.eq_false_iff.mp typed)
  | object members ih =>
      obtain ⟨distinct, keyedEach⟩ := Value.keyed_object_iff.mp keyed
      refine places_of_parts (fun rules issues parts => ?_) run
      rw [partIssues] at parts
      cases typed : (expectedType rules).isText "object" with
      | true =>
          rw [typed] at parts
          exact places_of_members typed distinct
            (fun member entry schema issues => ih member entry (keyedEach member entry)) parts
      | false =>
          rw [typed] at parts
          cases parts
          refine .of_lenient (List.forall_mem_nil _) fun path key undeclared => ?_
          obtain ⟨alsoTyped, -⟩ := undeclaredAt_object_iff.mp undeclared
          exact absurd alsoTyped (Bool.eq_false_iff.mp typed)
  | null | bool | number | text | term | foreign =>
      refine places_of_parts (fun rules issues parts => ?_) run
      cases parts
      refine .of_lenient (List.forall_mem_nil _) fun path key => not_undeclaredAt_other rfl ?_
      intro members same
      cases same

/-- What a whole value goes by: nothing under a schema of objects, or else its label. -/
def rootLabel? (rules : Members) : Option String :=
  if (rules.valueAt "type").isText "object" then none else some "value"

/-- What stands before the errors of an object at a place. -/
def placePrefix : Option String → Path → String
  | some label, path => label ++ path.suffix ++ "."
  | none, .key name :: path => name ++ Path.suffix path ++ "."
  | none, _ => ""

def Issue.told (label? : Option String) (issue : Issue) : String :=
  match label? with
  | some label => issue.textUnder label
  | none => issue.text

theorem Issue.textUnder_undeclared (label : String) (path : Path) (key : String) :
    (Issue.mk path (.undeclared key)).textUnder label =
      label ++ path.suffix ++ "." ++ ("Unexpected field: " ++ key) := by
  have structural : (Violation.undeclared key).isStructural = true := rfl
  have separated : (Violation.undeclared key).separator = "." := by
    rw [Violation.separator, structural, if_pos rfl]
  change label ++ path.suffix ++ (Violation.undeclared key).separator ++
    ("Unexpected field: " ++ key) = _
  rw [separated]

theorem Issue.told_undeclared (label? : Option String) (path : Path) (key : String) :
    (Issue.mk path (.undeclared key)).told label? =
      placePrefix label? path ++ ("Unexpected field: " ++ key) := by
  cases label? with
  | some label => exact textUnder_undeclared label path key
  | none =>
      cases path with
      | nil => exact String.empty_append.symm
      | cons step path =>
          cases step with
          | key name => exact textUnder_undeclared name path key
          | index position => exact String.empty_append.symm

theorem map_told_undeclared (label? : Option String) (issues : List Issue) :
    (issues.filter fun issue => !issue.isLenient).map (Issue.told label?) =
      (placesIn issues).map fun place =>
        placePrefix label? place.1 ++ ("Unexpected field: " ++ place.2) := by
  induction issues with
  | nil => rfl
  | cons issue issues ih =>
      cases found : issue.undeclaredAt? with
      | none =>
          have lenient : issue.isLenient = true := by rw [Issue.isLenient, found]; rfl
          rw [List.filter_cons, lenient, placesIn, List.filterMap_cons, found]
          exact ih
      | some place =>
          obtain ⟨path, key⟩ := place
          obtain rfl := Issue.undeclaredAt?_eq_some_iff.mp found
          have kept : (Issue.mk path (.undeclared key) :: issues).filter
              (fun issue => !issue.isLenient) =
                ⟨path, .undeclared key⟩ :: issues.filter fun issue => !issue.isLenient := rfl
          rw [kept, List.map_cons, ih, Issue.told_undeclared]
          rfl

def rootIssues (strict : Bool) (rules : Members) (value : Value) : Except Fault (List Issue) :=
  if (rules.valueAt "type").isText "object" then
    match value with
    | .object members => objectIssues strict rules members
    | value => .ok [.here (.wrongRoot (rules.valueAt "type") value.kind)]
  else fieldIssues strict (.object rules) value

theorem rootIssues_object (typed : (rules.valueAt "type").isText "object" = true) :
    rootIssues strict rules (.object members) = objectIssues strict rules members :=
  if_pos typed

theorem rootIssues_notObject (typed : (rules.valueAt "type").isText "object" = true)
    (other : ∀ members, value ≠ .object members) : rootIssues strict rules value =
      .ok [.here (.wrongRoot (rules.valueAt "type") value.kind)] := by
  cases value with
  | object members => exact absurd rfl (other members)
  | null | bool | number | text | term | array | tuple | foreign => exact if_pos typed

theorem rootIssues_field (other : ¬ (rules.valueAt "type").isText "object" = true) :
    rootIssues strict rules value = fieldIssues strict (.object rules) value :=
  if_neg other

theorem validate_eq_told : validate strict (.object rules) value =
    (rootIssues strict rules value).map (List.map (Issue.told (rootLabel? rules))) := by
  rw [rootLabel?]
  by_cases typed : (rules.valueAt "type").isText "object" = true
  · rw [if_pos typed]
    rcases value.object_or_other with ⟨members, rfl⟩ | other
    · rw [validate_object typed, rootIssues_object typed]
      rfl
    · rw [validate_notObject typed other, rootIssues_notObject typed other]
      rfl
  · rw [if_neg typed, validate_field typed, rootIssues_field typed]
    rfl

theorem rootIssues_lenient :
    rootIssues false rules value = toLenient (rootIssues true rules value) := by
  by_cases typed : (rules.valueAt "type").isText "object" = true
  · rcases value.object_or_other with ⟨members, rfl⟩ | other
    · have missing : AllLenient (missingIssues rules members) := missingIssues_allLenient
      rw [rootIssues_object typed, rootIssues_object typed, objectIssues_eq_together,
        objectIssues_eq_together, toLenient, map_together, ← toLenient, missing.toLenient_eq,
        map_gather]
      refine congrArg (together _) (gather_congr fun member entry => ?_)
      exact memberIssues_lenient fun schema => fieldIssues_lenient schema member.2
    · rw [rootIssues_notObject typed other, rootIssues_notObject typed other]
      rfl
  · rw [rootIssues_field typed, rootIssues_field typed, fieldIssues_lenient]

theorem places_of_rootIssues (keyed : value.Keyed)
    (run : rootIssues true rules value = .ok issues) : Places (.object rules) value issues := by
  by_cases typed : (rules.valueAt "type").isText "object" = true
  · have isObject := Value.isText_iff.mpr (type_of_typed typed).left
    rcases value.object_or_other with ⟨members, rfl⟩ | other
    · obtain ⟨distinct, keyedEach⟩ := Value.keyed_object_iff.mp keyed
      rw [rootIssues_object typed, objectIssues_eq_together] at run
      obtain ⟨missing, found, missingRun, foundRun, rfl⟩ := together_eq_ok_iff.mp run
      refine (places_of_members isObject distinct ?_ foundRun).append_own
        (missingIssues_allLenient missing missingRun)
      exact fun member entry schema issues => places_of_fieldIssues (keyedEach member entry)
    · rw [rootIssues_notObject typed other, Except.ok.injEq] at run
      subst run
      refine .of_lenient (List.forall_mem_singleton.mpr rfl) ?_
      intro path key undeclared
      obtain ⟨inner, members, reaches, -⟩ := undeclared
      cases reaches with
      | here | member => exact other _ rfl
      | item isArray =>
          rw [Value.isText_iff] at isArray isObject
          exact absurd (Option.some.inj (isObject.symm.trans isArray)) (by decide)
  · rw [rootIssues_field typed] at run
    exact places_of_fieldIssues keyed run

/-- Strictness changes nothing but this: a strict engine fails when a lenient one does and with the
same fault, and else reports the same errors in the same order, and among them for each key without
a schema of each closed object that the walk comes to, one error behind the place of the object.  So
it accepts what a lenient one accepts in which no closed object has such a key. -/
theorem strict_adds_undeclared (rules : Members) (value : Value) (keyed : value.Keyed) :
    (∀ fault, validate true (.object rules) value = .error fault ↔
      validate false (.object rules) value = .error fault) ∧
    ∀ errors, validate true (.object rules) value = .ok errors →
      ∃ lenient, validate false (.object rules) value = .ok lenient ∧ lenient.Sublist errors ∧
        (∃ places : List (Path × String), places.Nodup ∧
          (∀ path key, (path, key) ∈ places ↔ UndeclaredAt (.object rules) value path key) ∧
          errors.Perm (lenient ++ places.map fun place =>
            placePrefix (rootLabel? rules) place.1 ++ ("Unexpected field: " ++ place.2))) ∧
        (errors = [] ↔
          lenient = [] ∧ ∀ path key, ¬ UndeclaredAt (.object rules) value path key) := by
  rw [validate_eq_told, validate_eq_told, rootIssues_lenient]
  cases run : rootIssues true rules value with
  | error fault => exact ⟨fun other => Iff.rfl, nofun⟩
  | ok issues =>
      refine ⟨fun fault => iff_of_false nofun nofun, ?_⟩
      intro errors same
      cases same
      have places := places_of_rootIssues keyed run
      -- The strict errors are those that a filter keeps, in their order, and those that it drops.
      have split := (List.filter_append_perm Issue.isLenient issues).symm.map
        (Issue.told (rootLabel? rules))
      rw [List.map_append, map_told_undeclared] at split
      refine ⟨_, rfl, List.filter_sublist.map _, ⟨placesIn issues, places.nodup, places.mem_iff,
        split⟩, ?_⟩
      have empty : issues.map (Issue.told (rootLabel? rules)) = [] ↔
          (issues.filter Issue.isLenient).map (Issue.told (rootLabel? rules)) = [] ∧
            placesIn issues = [] := by
        rw [← List.length_eq_zero_iff, split.length_eq, List.length_eq_zero_iff,
          List.append_eq_nil_iff, List.map_eq_nil_iff (l := placesIn issues)]
      rw [empty, List.eq_nil_iff_forall_not_mem (l := placesIn issues), Prod.forall]
      simp only [places.mem_iff]

/-- Crates have parts, which are closed too and have sizes. -/
def crateRules : Members :=
  [("type", .text "object"), ("additionalProperties", .bool false),
   ("properties", .object [("parts", .object
     [("type", .text "array"), ("items", .object
       [("type", .array [.text "null", .text "object"]), ("additionalProperties", .bool false),
        ("properties", .object [("size", .object [("type", .text "integer")])])])])])]

def crate : Value :=
  .object
    [("parts", .array [.null, .object [("color", .text "red"), ("size", .text "small")]]),
     ("weight", .int 3)]

theorem crate_errors : ∃ lenient, validate false (.object crateRules) crate = .ok lenient ∧
    ∃ places : List (Path × String), places.Nodup ∧
      (∀ path key, (path, key) ∈ places ↔ UndeclaredAt (.object crateRules) crate path key) ∧
      ["parts[1].Unexpected field: color", "parts[1].size: Expected integer, got string",
        "Unexpected field: weight"].Perm (lenient ++ places.map fun place =>
          placePrefix (rootLabel? crateRules) place.1 ++ ("Unexpected field: " ++ place.2)) := by
  have keyed : crate.Keyed := by
    simp [crate, Value.Keyed, Members.Distinct, Value.Every, Value.EveryItem, Value.EveryMember,
      Value.int]
  have run : validate true (.object crateRules) crate =
      .ok ["parts[1].Unexpected field: color", "parts[1].size: Expected integer, got string",
        "Unexpected field: weight"] :=
    eq_ok_of_toOption (by decide +kernel)
  obtain ⟨-, each⟩ := strict_adds_undeclared crateRules crate keyed
  obtain ⟨lenient, lenientRun, -, places, -⟩ := each _ run
  exact ⟨lenient, lenientRun, places⟩

end WorkItems.Schema
