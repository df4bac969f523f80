import WorkItems.Files.Location

namespace WorkItems.Location

/-! Locations and the texts that they are written as.

A location that was read from a text has a root of slashes and parts without any, and it is read
back from its own text.
-/

variable {location : Location} {text piece : List Char} {part : String} {parts : List String}

/-- A part that a location can have: it says something, and there is no slash in it. -/
structure IsPart (part : String) : Prop where
  speaks : speaks part = true
  noSlash : '/' ∉ part.toList

structure WellFormed (location : Location) : Prop where
  root : ∃ slashes, location.root = rootOf slashes
  parts : ∀ part ∈ location.parts, IsPart part

theorem noSlash_of_mem_splitOn (among : piece ∈ text.splitOn '/') : '/' ∉ piece := by
  induction text generalizing piece with
  | nil =>
      rw [List.splitOn_nil, List.mem_singleton] at among
      rw [among]
      exact List.not_mem_nil
  | cons c text ih =>
      rw [List.splitOn_cons_eq_if_modifyHead] at among
      obtain ⟨first, others, pieces⟩ := List.exists_cons_of_ne_nil (List.splitOn_ne_nil '/' text)
      rw [pieces] at ih among
      split at among
      · rcases List.mem_cons.mp among with empty | later
        · rw [empty]
          exact List.not_mem_nil
        · exact ih later
      · rename_i noSlash
        rw [List.modifyHead_cons] at among
        rcases List.mem_cons.mp among with grown | later
        · have distinct : '/' ≠ c := fun same => noSlash (beq_iff_eq.mpr same.symm)
          rw [grown]
          exact List.not_mem_cons_of_ne_of_not_mem distinct (ih List.mem_cons_self)
        · exact ih (List.mem_cons_of_mem _ later)

theorem isPart_of_mem_partsOf (among : part ∈ partsOf text) : IsPart part := by
  obtain ⟨split, speaks⟩ := List.mem_filter.mp among
  obtain ⟨piece, inText, rfl⟩ := List.mem_map.mp split
  refine ⟨speaks, ?_⟩
  rw [String.toList_ofList]
  exact noSlash_of_mem_splitOn inText

theorem ofText_wellFormed (text : String) : (ofText text).WellFormed :=
  ⟨⟨_, rfl⟩, fun _ among => isPart_of_mem_partsOf among⟩

theorem name_child (location : Location) (name : String) : (location.child name).name = name := by
  rw [Location.name, child, List.getLast?_concat, Option.getD_some]

theorem WellFormed.child (wellFormed : location.WellFormed) (isPart : IsPart part) :
    (location.child part).WellFormed := by
  refine ⟨wellFormed.root, fun other among => ?_⟩
  rcases List.mem_append.mp among with before | last
  · exact wellFormed.parts other before
  · exact List.mem_singleton.mp last ▸ isPart

/-- A slash in front adds an empty part, which is dropped. -/
theorem partsOf_slash (text : List Char) : partsOf ('/' :: text) = partsOf text := by
  rw [partsOf, List.splitOn_cons_eq_if_modifyHead, beq_self_eq_true, if_pos rfl, List.map_cons]
  exact List.filter_cons_of_neg (by decide)

theorem partsOf_slashes (count : Nat) (text : List Char) :
    partsOf (List.replicate count '/' ++ text) = partsOf text := by
  induction count with
  | zero => rfl
  | succ count ih => rw [List.replicate_succ, List.cons_append, partsOf_slash, ih]

theorem partsOf_intercalate (parts : List String) (areParts : ∀ part ∈ parts, IsPart part) :
    partsOf (['/'].intercalate (parts.map String.toList)) = parts := by
  cases parts with
  | nil => decide +kernel
  | cons part others =>
      have noSlash : ∀ piece ∈ (part :: others).map String.toList, '/' ∉ piece := by
        intro piece among
        obtain ⟨spelled, listed, rfl⟩ := List.mem_map.mp among
        exact (areParts spelled listed).noSlash
      rw [partsOf, List.splitOn_intercalate '/' noSlash (List.cons_ne_nil _ _), List.map_map]
      have same : String.ofList ∘ String.toList = id := funext fun _ => String.ofList_toList
      rw [same, List.map_id]
      exact List.filter_eq_self.mpr fun part among => (areParts part among).speaks

/-- Below the root no slash comes first. -/
theorem takeWhile_intercalate (areParts : ∀ part ∈ parts, IsPart part) :
    (['/'].intercalate (parts.map String.toList)).takeWhile (· == '/') = [] := by
  cases parts with
  | nil => rfl
  | cons part others =>
      obtain ⟨speaks, noSlash⟩ := areParts part List.mem_cons_self
      cases spelled : part.toList with
      | nil =>
          rw [String.toList_eq_nil_iff.mp spelled] at speaks
          cases speaks
      | cons c rest =>
          rw [spelled] at noSlash
          have distinct : (c == '/') = false :=
            beq_eq_false_iff_ne.mpr (List.ne_of_not_mem_cons noSlash).symm
          cases others with
          | nil =>
              rw [List.map_cons, spelled, List.map_nil, List.intercalate_singleton]
              exact List.takeWhile_cons_of_neg (ne_true_of_eq_false distinct)
          | cons next others =>
              rw [List.map_cons, spelled, List.map_cons, List.intercalate_cons_cons]
              exact List.takeWhile_cons_of_neg (ne_true_of_eq_false distinct)

/-- A root is read back from the slashes that it is written with. -/
theorem exists_slashes (slashes : Nat) : ∃ count,
    (rootOf slashes).toList = List.replicate count '/' ∧ rootOf count = rootOf slashes := by
  unfold rootOf
  split
  · exact ⟨0, by decide +kernel, rfl⟩
  · exact ⟨2, by decide +kernel, rfl⟩
  · exact ⟨1, by decide +kernel, rfl⟩

theorem ofText_text (wellFormed : location.WellFormed) : ofText location.text = location := by
  obtain ⟨root, parts⟩ := location
  obtain ⟨⟨slashes, rfl⟩, areParts⟩ := wellFormed
  rw [text]
  -- A root and parts are written one after the other, unless there are neither.
  split
  · rename_i nothing
    obtain ⟨noRoot, noParts⟩ := Bool.and_eq_true_iff.mp nothing
    simp only [String.isEmpty_iff, List.isEmpty_iff] at noRoot noParts
    rw [noRoot, noParts]
    decide +kernel
  · obtain ⟨count, written, readBack⟩ := exists_slashes slashes
    have spelled : (rootOf slashes ++ String.intercalate "/" parts).toList =
        List.replicate count '/' ++ ['/'].intercalate (parts.map String.toList) := by
      rw [String.toList_append, String.toList_intercalate, written]
      rfl
    have front : ∀ c ∈ List.replicate count '/', (c == '/') = true :=
      fun _ among => beq_iff_eq.mpr (List.eq_of_mem_replicate among)
    rw [ofText, spelled, partsOf_slashes, partsOf_intercalate parts areParts,
      List.takeWhile_append_of_pos front, takeWhile_intercalate areParts, List.append_nil,
      List.length_replicate, readBack]

end WorkItems.Location
