import WorkItems.Pattern.Basic

namespace WorkItems

/-! Where matches end.

A match reads forward: whatever a pattern is, a match leads from one place of a text to a later
place of the same text, over the characters between them.
-/

namespace Cursor

variable {start middle stop other : Cursor} {text further : List Char}

/-- Whether the characters from one place to another are a given text. -/
structure Spans (start : Cursor) (text : List Char) (stop : Cursor) : Prop where
  rest : start.rest = text ++ stop.rest
  position : stop.position = start.position + text.length
  previous : stop.previous = text.getLast?.or start.previous

/-- Whether a place lies in the same text as another one and not before it. -/
def Reaches (start stop : Cursor) : Prop :=
  ∃ text, start.Spans text stop

namespace Spans

theorem refl : start.Spans [] start :=
  ⟨rfl, rfl, rfl⟩

theorem trans (first : start.Spans text middle) (second : middle.Spans further stop) :
    start.Spans (text ++ further) stop where
  rest := by rw [first.rest, second.rest, List.append_assoc]
  position := by rw [second.position, first.position, List.length_append, Nat.add_assoc]
  previous := by rw [second.previous, first.previous, List.getLast?_append, Option.or_assoc]

/-- Places of one text are told apart by their positions. -/
theorem eq_of_position (first : start.Spans text stop) (second : start.Spans further other)
    (same : stop.position = other.position) : stop = other := by
  have lengths : text.length = further.length := by
    have reached := first.position
    have reachedToo := second.position
    omega
  obtain ⟨rfl, rests⟩ := List.append_inj (first.rest.symm.trans second.rest) lengths
  have previous := first.previous.trans second.previous.symm
  cases stop
  cases other
  simp_all

theorem single_iff {c : Char} :
    start.Spans [c] stop ↔ start.rest = c :: stop.rest ∧
      stop = ⟨start.position + 1, some c, stop.rest⟩ := by
  constructor
  · intro spans
    obtain ⟨rest, position, previous⟩ := spans
    cases stop
    simp_all
  · rintro ⟨rest, same⟩
    rw [same]
    exact ⟨rest, rfl, rfl⟩

/-- What is read can be read in two parts. -/
theorem split (spans : start.Spans (text ++ further) stop) :
    ∃ middle, start.Spans text middle ∧ middle.Spans further stop := by
  refine ⟨⟨start.position + text.length, text.getLast?.or start.previous,
    further ++ stop.rest⟩, ⟨?_, rfl, rfl⟩, ⟨rfl, ?_, ?_⟩⟩
  · rw [spans.rest, List.append_assoc]
  · rw [spans.position, List.length_append, Nat.add_assoc]
  · rw [spans.previous, List.getLast?_append, Option.or_assoc]

end Spans

theorem spans_whole (text : List Char) :
    (Cursor.start text).Spans text ⟨text.length, text.getLast?, []⟩ :=
  ⟨(List.append_nil text).symm, (Nat.zero_add _).symm, (Option.or_none).symm⟩

theorem Reaches.refl : start.Reaches start :=
  ⟨[], .refl⟩

theorem Reaches.trans (first : start.Reaches middle) (second : middle.Reaches stop) :
    start.Reaches stop := by
  obtain ⟨text, first⟩ := first
  obtain ⟨further, second⟩ := second
  exact ⟨text ++ further, first.trans second⟩

theorem Reaches.eq_of_position (first : start.Reaches stop) (second : start.Reaches other)
    (same : stop.position = other.position) : stop = other := by
  obtain ⟨text, first⟩ := first
  obtain ⟨further, second⟩ := second
  exact first.eq_of_position second same

theorem Reaches.suffix (reaches : start.Reaches stop) : stop.rest <:+ start.rest := by
  obtain ⟨text, spans⟩ := reaches
  exact ⟨text, spans.rest.symm⟩

theorem mem_advance_iff {accepts : Char → Bool} :
    stop ∈ start.advance accepts ↔ ∃ c, accepts c = true ∧ start.Spans [c] stop := by
  simp only [Spans.single_iff]
  cases left : start.rest with
  | nil => simp [advance, left]
  | cons c rest =>
      rw [advance, left]
      constructor
      · intro member
        by_cases accepted : accepts c = true
        · simp only [accepted, if_true, List.mem_singleton] at member
          simp [member, accepted]
        · simp [accepted] at member
      · rintro ⟨other, accepted, same, reached⟩
        obtain ⟨rfl, rfl⟩ := List.cons.inj same
        simpa [accepted] using reached

theorem mem_onwards_iff {position : Nat} {previous : Option Char} :
    stop ∈ onwards position previous text ↔ Reaches ⟨position, previous, text⟩ stop := by
  induction text generalizing position previous with
  | nil =>
      rw [onwards, List.mem_singleton]
      constructor
      · rintro rfl
        exact .refl
      · rintro ⟨read, spans⟩
        have empty : read = [] := (List.append_eq_nil_iff.mp spans.rest.symm).left
        exact (spans.eq_of_position .refl (by simp [spans.position, empty]))
  | cons c rest ih =>
      have step : Spans ⟨position, previous, c :: rest⟩ [c] ⟨position + 1, some c, rest⟩ :=
        ⟨rfl, rfl, rfl⟩
      rw [onwards, List.mem_cons, ih]
      constructor
      · rintro (rfl | later)
        · exact .refl
        · exact .trans ⟨[c], step⟩ later
      · rintro ⟨read, spans⟩
        cases read with
        | nil => exact .inl (spans.eq_of_position .refl spans.position)
        | cons first read =>
            obtain ⟨rfl, others⟩ := List.cons.inj spans.rest
            refine .inr ⟨read, others, ?_, ?_⟩
            · have reached := spans.position
              simp only [List.length_cons] at reached ⊢
              omega
            · rw [spans.previous, List.getLast?_cons]
              cases read.getLast? <;> rfl

end Cursor

namespace Pattern

variable {origin cursor later : Cursor} {known cursors reached : List Cursor} {pattern : Pattern}

theorem mem_of_mem_novel (member : cursor ∈ Cursor.novel known cursors) : cursor ∈ cursors := by
  induction cursors generalizing known with
  | nil => cases member
  | cons first rest ih =>
      rw [Cursor.novel] at member
      split at member
      · exact List.mem_cons_of_mem _ (ih member)
      · rcases List.mem_cons.mp member with same | further
        · rw [same]
          exact List.mem_cons_self
        · exact List.mem_cons_of_mem _ (ih further)

section

variable {step : Cursor → List Cursor} {holds : Cursor → Prop}

/-- What every step preserves holds of all places that steps lead to. -/
theorem reachedExactly_holds
    (preserved : ∀ cursor, holds cursor → ∀ later ∈ step cursor, holds later)
    (count : Nat) (initially : ∀ cursor ∈ cursors, holds cursor)
    (member : later ∈ reachedExactly step count cursors) : holds later := by
  induction count generalizing cursors with
  | zero => exact initially later member
  | succ count ih =>
      cases cursors with
      | nil => cases member
      | cons first rest =>
          refine ih ?_ member
          intro next found
          obtain ⟨origin, known, stepped⟩ := List.mem_flatMap.mp (mem_of_mem_novel found)
          exact preserved origin (initially origin known) next stepped

theorem reachedWithin_holds
    (preserved : ∀ cursor, holds cursor → ∀ later ∈ step cursor, holds later)
    (count : Nat) (initially : ∀ cursor ∈ known, holds cursor)
    (newest : ∀ cursor ∈ cursors, holds cursor)
    (member : later ∈ reachedWithin step count known cursors) : holds later := by
  induction count generalizing known cursors with
  | zero => exact initially later member
  | succ count ih =>
      rw [reachedWithin] at member
      have novelHolds : ∀ cursor ∈ Cursor.novel known (cursors.flatMap step), holds cursor := by
        intro next found
        obtain ⟨origin, known, stepped⟩ := List.mem_flatMap.mp (mem_of_mem_novel found)
        exact preserved origin (newest origin known) next stepped
      split at member
      · exact initially later member
      · refine ih ?_ novelHolds member
        intro next found
        rcases List.mem_append.mp found with old | new
        · exact initially next old
        · exact novelHolds next new

end

theorem ends_reaches (member : later ∈ pattern.ends cursor) : cursor.Reaches later := by
  induction pattern generalizing cursor later with
  | empty =>
      rw [ends, List.mem_singleton] at member
      exact member ▸ .refl
  | anyCharacter | oneOf =>
      obtain ⟨c, -, spans⟩ := Cursor.mem_advance_iff.mp member
      exact ⟨[c], spans⟩
  | anchor edge =>
      rw [ends] at member
      split at member
      · exact List.mem_singleton.mp member ▸ .refl
      · cases member
  | sequence first second firstHolds secondHolds =>
      obtain ⟨middle, found, reached⟩ := List.mem_flatMap.mp (mem_of_mem_novel member)
      exact (firstHolds found).trans (secondHolds reached)
  | either first second firstHolds secondHolds =>
      rcases List.mem_append.mp (mem_of_mem_novel member) with found | found
      · exact firstHolds found
      · exact secondHolds found
  | repeated body least most ih =>
      have preserved : ∀ middle, cursor.Reaches middle →
          ∀ next ∈ body.ends middle, cursor.Reaches next :=
        fun middle reaches next found => reaches.trans (ih found)
      have exactly : ∀ next ∈ reachedExactly body.ends least [cursor], cursor.Reaches next :=
        fun next found => reachedExactly_holds preserved least
          (fun origin same => List.mem_singleton.mp same ▸ .refl) found
      exact reachedWithin_holds preserved _ exactly exactly member
  | ahead negated body ih =>
      rw [ends] at member
      split at member
      · exact List.mem_singleton.mp member ▸ .refl
      · cases member

end Pattern

end WorkItems
