import WorkItems.Proofs.Number.Range
import WorkItems.Proofs.Schema.TypeList
import WorkItems.Proofs.Value.Structure

namespace WorkItems.Schema

/-! Items that have to be unique.

The rule finds fault with an array exactly when two of its items, at different positions, are
equal as JSON.  No other rule has an issue of that kind about the array itself.
-/

variable {strict : Bool} {rules : Members} {value limit : Value} {items : List Value}
  {issue : Issue} {issues : List Issue} {place : Option String}

/-- Whether two items at different positions are the same. -/
def Repeats (items : List Value) : Prop :=
  ∃ (first second : Nat) (item other : Value), first ≠ second ∧
    items[first]? = some item ∧ items[second]? = some other ∧ item.same other = true

theorem not_allDistinct_iff (keyed : ∀ item ∈ items, item.Keyed) :
    ¬ Value.allDistinct items = true ↔ Repeats items := by
  rw [allDistinct_iff, List.pairwise_iff_getElem]
  constructor
  · intro notPairwise
    push Not at notPairwise
    obtain ⟨first, second, within, alsoWithin, before, same⟩ := notPairwise
    exact ⟨first, second, _, _, Nat.ne_of_lt before, List.getElem?_eq_getElem within,
      List.getElem?_eq_getElem alsoWithin, Bool.eq_true_of_not_eq_false same⟩
  · rintro ⟨first, second, item, other, different, isItem, isOther, same⟩ pairwise
    obtain ⟨within, rfl⟩ := List.getElem?_eq_some_iff.mp isItem
    obtain ⟨alsoWithin, rfl⟩ := List.getElem?_eq_some_iff.mp isOther
    rcases Nat.lt_or_gt_of_ne different with before | after
    · exact Bool.eq_false_iff.mp (pairwise first second within alsoWithin before) same
    · have reversed := Value.same_symm (keyed _ (List.getElem_mem within)) same
      exact Bool.eq_false_iff.mp (pairwise second first alsoWithin within after) reversed

theorem of_mem_limitIssues {exceeded : Number → Bool} {violation : Value → Violation}
    (run : limitIssues limit exceeded violation = .ok issues) (among : issue ∈ issues) :
    issue = .here (violation limit) := by
  rw [limitIssues.eq_def] at run
  split at run
  · cases run
    cases among
  · split at run
    · cases run
      split at among
      · exact List.mem_singleton.mp among
      · cases among
    · cases run

theorem repeated_mem_arrayIssues (unique : rules.valueAt "uniqueItems" = .bool true)
    (run : arrayIssues rules items = .ok issues) :
    Issue.here .repeated ∈ issues ↔ ¬ Value.allDistinct items = true := by
  rw [arrayIssues, unique] at run
  obtain ⟨few, fewRun, run⟩ := bind_eq_ok_iff.mp run
  obtain ⟨many, manyRun, collected⟩ := bind_eq_ok_iff.mp run
  cases collected
  have notFew : Issue.here .repeated ∉ few := by
    intro among
    cases of_mem_limitIssues fewRun among
  have notMany : Issue.here .repeated ∉ many := by
    intro among
    cases of_mem_limitIssues manyRun among
  rw [List.mem_append, List.mem_append, or_iff_right notFew, or_iff_right notMany]
  cases Value.allDistinct items <;> simp

theorem repeated_not_mem_enumIssues (run : enumIssues rules value = .ok issues) :
    Issue.here .repeated ∉ issues := by
  intro among
  rw [enumIssues] at run
  split at run
  · cases run
    cases among
  · obtain ⟨options, -, collected⟩ := bind_eq_ok_iff.mp run
    cases collected
    split at among
    · cases among
    · cases List.mem_singleton.mp among

theorem repeated_not_mem_constIssues : Issue.here .repeated ∉ constIssues rules value := by
  intro among
  rw [constIssues] at among
  split at among
  · cases among
  · split at among
    · cases among
    · cases List.mem_singleton.mp among

theorem repeated_not_mem_itemIssues {schema : Value} {entry : Value × Nat}
    (run : itemIssues strict schema entry = .ok issues) : Issue.here .repeated ∉ issues := by
  intro among
  rw [itemIssues.eq_def] at run
  split at run
  · cases found : fieldIssues strict _ _ with
    | error fault =>
        rw [found] at run
        cases run
    | ok inner =>
        rw [found] at run
        cases run
        obtain ⟨issue, -, same⟩ := List.mem_map.mp among
        cases same
  · cases run
    cases among

section

variable (typed : (expectedType rules).isText "array" = true)
  (isArray : value.asItems? = some items)
include typed isArray

/-- An array is told to repeat an item exactly when the rule asks for unique items and two of them
are the same. -/
theorem repeated_mem_iff (unique : rules.valueAt "uniqueItems" = .bool true)
    (keyed : value.Keyed) (run : fieldIssues strict (.object rules) value = .ok issues) :
    Issue.here .repeated ∈ issues ↔ Repeats items := by
  rw [fieldIssues_walk, settled?_array typed isArray] at run
  obtain ⟨own, parts, ownRun, partsRun, rfl⟩ := together_eq_ok_iff.mp run
  have whole : wholeIssues rules (expectedType rules) value = arrayIssues rules items := by
    cases value with
    | array elements | tuple elements =>
        cases isArray
        rw [wholeIssues, if_pos typed]
    | null | bool | number | text | term | object | foreign => cases isArray
  rw [ownIssues, scalarIssues_array isArray, whole, ok_bind] at ownRun
  obtain ⟨unlisted, unlistedRun, ownRun⟩ := bind_eq_ok_iff.mp ownRun
  obtain ⟨found, foundRun, collected⟩ := bind_eq_ok_iff.mp ownRun
  cases collected
  have notInParts : Issue.here .repeated ∉ parts := by
    rw [partIssues_array typed isArray] at partsRun
    obtain ⟨each, eachRun, rfl⟩ := gather_eq_ok_iff.mp partsRun
    intro among
    obtain ⟨entry, member, among⟩ := List.mem_flatMap.mp among
    exact repeated_not_mem_itemIssues (eachRun entry member) among
  rw [List.mem_append, or_iff_left notInParts, List.nil_append, List.mem_append, List.mem_append,
    or_iff_right (not_or.mpr ⟨repeated_not_mem_enumIssues unlistedRun,
      repeated_not_mem_constIssues⟩), repeated_mem_arrayIssues unique foundRun,
    not_allDistinct_iff (keyed.ofItems isArray)]

end

/-- Arrays of unique items. -/
def uniqueRules : Members :=
  [("type", .text "array"), ("uniqueItems", .bool true)]

theorem fieldIssues_uniqueRules (isArray : value.asItems? = some items) :
    fieldIssues strict (.object uniqueRules) value =
      .ok (if Value.allDistinct items then [] else [.here .repeated]) := by
  have own : ownIssues uniqueRules (expectedType uniqueRules) value =
      .ok (if Value.allDistinct items then [] else [.here .repeated]) := by
    cases value with
    | array elements | tuple elements =>
        cases isArray
        rfl
    | null | bool | number | text | term | object | foreign => cases isArray
  have parts : partIssues strict uniqueRules (expectedType uniqueRules) value = .ok [] := by
    cases value with
    | array elements | tuple elements =>
        exact gather_eq_nil_iff.mpr fun _ _ => rfl
    | null | bool | number | text | term | object | foreign => cases isArray
  rw [fieldIssues_walk, settled?_array rfl isArray, own, parts, together, ok_bind, ok_bind,
    List.append_nil]
  rfl

theorem textsAt_uniqueRules (isArray : value.asItems? = some items) :
    textsAt strict (.object uniqueRules) value place =
      .ok (if Value.allDistinct items then [] else
        [place.getD "value" ++ ": Items must be unique"]) := by
  have labelled : textsAt strict (.object uniqueRules) value place =
      (fieldIssues strict (.object uniqueRules) value).map
        (List.map (Issue.textUnder (place.getD "value"))) := by
    cases place with
    | some label => rfl
    | none => exact validate_field (Bool.eq_false_iff.mp rfl)
  have text (label : String) :
      (Issue.here .repeated).textUnder label = label ++ ": Items must be unique" := by
    rw [Issue.textUnder, String.append_assoc, String.append_assoc]
    rfl
  rw [labelled, fieldIssues_uniqueRules isArray]
  cases Value.allDistinct items with
  | true => rfl
  | false => exact congrArg (Except.ok [·]) (text _)

/-- The equality of JSON values is the one of their structure: an equivalence that takes no notice
of the order of keys and tells kinds apart at any depth, and items count as repeated exactly when
two of them are equal. -/
theorem same_structural {a b : Value} (comparable : a.Comparable)
    (alsoComparable : b.Comparable) :
    (a.same b = true ↔ a.Equal b) ∧
      Equivalence (fun a b : {value : Value // value.Comparable} => a.val.same b.val = true) ∧
      (∀ members changed : Members, a = .object members → members.Perm changed →
        a.same (.object changed) = true) ∧
      (a.same b = true → ∀ path, (a.at? path).map Value.kind = (b.at? path).map Value.kind) ∧
      ∀ items, a.asItems? = some items →
        (∀ (strict : Bool) (rules : Members) (issues : List Issue),
          (expectedType rules).isText "array" = true →
          rules.valueAt "uniqueItems" = .bool true →
          fieldIssues strict (.object rules) a = .ok issues →
          (Issue.here .repeated ∈ issues ↔ Repeats items)) ∧
        ∀ (strict : Bool) (place : Option String),
          (Repeats items → textsAt strict (.object uniqueRules) a place =
            .ok [place.getD "value" ++ ": Items must be unique"]) ∧
          (¬ Repeats items → textsAt strict (.object uniqueRules) a place = .ok []) := by
  refine ⟨Value.same_iff_equal comparable alsoComparable, ?_, ?_, ?_, ?_⟩
  · exact ⟨fun value => Value.same_refl value.property.keyed,
      fun {first _} same => Value.same_symm first.property.keyed same,
      fun same again => Value.same_trans same again⟩
  · rintro members changed rfl reordered
    exact Value.same_of_perm comparable.keyed reordered
  · exact fun same => Value.kind_at comparable.keyed same
  · intro items isArray
    refine ⟨fun strict rules issues typed unique run =>
      repeated_mem_iff typed isArray unique comparable.keyed run, fun strict place => ?_⟩
    rw [textsAt_uniqueRules isArray, ← not_allDistinct_iff (comparable.keyed.ofItems isArray)]
    exact ⟨fun repeats => by rw [if_neg repeats],
      fun distinct => by rw [if_pos (not_not.mp distinct)]⟩

def openBox : Value := .object [("open", .bool true), ("count", .int 3)]

/-- The same box, with another order of its keys and its count as a double. -/
def countedBox : Value := .object [("count", .double (.ofInt 3)), ("open", .bool true)]

theorem boxes_structural :
    openBox.Comparable ∧ countedBox.Comparable ∧ openBox.Equal countedBox ∧
      openBox.same (.object [("count", .int 3), ("open", .bool true)]) = true ∧
      Repeats [openBox, countedBox] ∧
      textsAt true (.object uniqueRules) (.tuple [openBox, countedBox]) (some "boxes") =
        .ok ["boxes: Items must be unique"] := by
  have whole : (Double.ofInt 3).toInt? = some 3 := by decide +kernel
  have counted : ∃ amount, (Number.double (.ofInt 3)).amount? = some amount := by
    rw [Number.amount?_eq, Number.place?, Double.place?_of_toInt whole]
    exact ⟨_, rfl⟩
  have isOpen : openBox.Comparable := by
    refine Value.comparable_object_iff.mpr ⟨by decide, ?_⟩
    exact List.forall_mem_cons.mpr ⟨trivial, List.forall_mem_singleton.mpr ⟨_, rfl⟩⟩
  have isCounted : countedBox.Comparable := by
    refine Value.comparable_object_iff.mpr ⟨by decide, ?_⟩
    exact List.forall_mem_cons.mpr ⟨counted, List.forall_mem_singleton.mpr trivial⟩
  have both : (Value.tuple [openBox, countedBox]).Comparable :=
    Value.every_tuple_iff.mpr ⟨trivial, List.forall_mem_cons.mpr ⟨isOpen,
      List.forall_mem_singleton.mpr isCounted⟩⟩
  have same : openBox.same countedBox = true := by decide +kernel
  have boxes := same_structural isOpen isCounted
  have repeated : Repeats [openBox, countedBox] := ⟨0, 1, _, _, Nat.zero_ne_one, rfl, rfl, same⟩
  obtain ⟨-, -, -, -, unique⟩ := same_structural both both
  exact ⟨isOpen, isCounted, boxes.left.mp same,
    boxes.right.right.left _ _ rfl (List.Perm.swap _ _ _), repeated,
    ((unique _ rfl).right true (some "boxes")).left repeated⟩

end WorkItems.Schema
