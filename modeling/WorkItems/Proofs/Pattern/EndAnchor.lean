import WorkItems.Pattern.EndAnchor
import WorkItems.Proofs.Pattern.Matching

namespace WorkItems.Pattern

/-! Patterns that end in a dollar sign.

Read as the very end of a text, the anchor holds at fewer places than read as the end of the last
line, and both readings agree on every text that does not end in a line break.
-/

variable {parts : List Pattern} {edge : Anchor} {cursor start stop : Cursor}
  {written text : String} {dollar : Cursor → Prop}

/-- Parts one after the other, and an anchor at the end. -/
def anchored (parts : List Pattern) (edge : Anchor) : Pattern :=
  parts.foldr .sequence (.sequence (.anchor edge) .empty)

/-- Whether matches of parts, one after the other, lead from one place to another. -/
def ReadsParts (dollar : Cursor → Prop) : List Pattern → Cursor → Cursor → Prop
  | [], start, stop => stop = start
  | part :: parts, start, stop =>
    ∃ middle, part.Reads dollar start middle ∧ ReadsParts dollar parts middle stop

theorem reads_anchored_iff : (anchored parts edge).Reads dollar start stop ↔
    ReadsParts dollar parts start stop ∧ edge.Holds dollar stop := by
  induction parts generalizing start with
  | nil =>
      have whole : (anchored [] edge).Reads dollar start stop ↔
          ∃ middle, (middle = start ∧ edge.Holds dollar start) ∧ stop = middle := Iff.rfl
      rw [whole, ReadsParts]
      constructor
      · rintro ⟨middle, ⟨rfl, holds⟩, rfl⟩
        exact ⟨rfl, holds⟩
      · rintro ⟨rfl, holds⟩
        exact ⟨stop, ⟨rfl, holds⟩, rfl⟩
  | cons part parts ih =>
      have whole : (anchored (part :: parts) edge).Reads dollar start stop ↔
          ∃ middle, part.Reads dollar start middle ∧
            (anchored parts edge).Reads dollar middle stop := Iff.rfl
      rw [whole]
      simp only [ih, ReadsParts]
      constructor
      · rintro ⟨middle, reads, rest, holds⟩
        exact ⟨⟨middle, reads, rest⟩, holds⟩
      · rintro ⟨⟨middle, reads, rest⟩, holds⟩
        exact ⟨middle, reads, rest, holds⟩

theorem anchored_foundIn : (anchored parts edge).foundIn text = true ↔
    ∃ start stop, (Cursor.start text.toList).Reaches start ∧
      ReadsParts lineEnd parts start stop ∧ edge.holds stop = true := by
  simp only [foundIn_iff, Occurs, reads_anchored_iff, holds_lineEnd]

theorem ReadsParts.reaches (reads : ReadsParts lineEnd parts start stop) : start.Reaches stop := by
  induction parts generalizing start with
  | nil => exact reads ▸ .refl
  | cons part parts ih =>
      obtain ⟨middle, first, rest⟩ := reads
      exact (ends_reaches (mem_ends_iff.mpr first)).trans (ih rest)

/-- Whether a pattern text reads as parts that end in a dollar sign. -/
def EndAnchored (written : String) : Prop :=
  ∃ parts, ofText? written.toList = some (anchored parts .lastLineEnd) ∧
    ofTextClosed? written.toList = some (anchored parts .textEnd)

/-- Whether closing the dollar signs leaves a pattern text as it is. -/
def Unanchored (written : String) : Prop :=
  closeEnds written.toList = written.toList

theorem textEnd_holds (atEnd : Anchor.textEnd.holds cursor = true) :
    Anchor.lastLineEnd.holds cursor = true := by
  rw [Anchor.holds, Bool.or_eq_true]
  exact .inl atEnd

theorem lastLineEnd_holds (noBreak : text.toList.getLast? ≠ some '\n')
    (suffix : cursor.rest <:+ text.toList) (atEnd : Anchor.lastLineEnd.holds cursor = true) :
    Anchor.textEnd.holds cursor = true := by
  rw [Anchor.holds, Bool.or_eq_true] at atEnd
  rcases atEnd with empty | lineBreak
  · exact empty
  · rw [beq_iff_eq] at lineBreak
    obtain ⟨before, whole⟩ := suffix
    rw [← whole, lineBreak, List.getLast?_concat] at noBreak
    exact absurd rfl noBreak

/-- What is found up to the very end of a text is found up to the end of its last line. -/
theorem EndAnchored.foundIn_of_closed (anchored : EndAnchored written)
    (found : (ofTextClosed? written.toList).any fun pattern => pattern.foundIn text) :
    (ofText? written.toList).all fun pattern => pattern.foundIn text := by
  obtain ⟨parts, opened, closed⟩ := anchored
  rw [closed, Option.any_some, anchored_foundIn] at found
  obtain ⟨start, stop, reaches, reads, atEnd⟩ := found
  rw [opened, Option.all_some, anchored_foundIn]
  exact ⟨start, stop, reaches, reads, textEnd_holds atEnd⟩

theorem EndAnchored.foundIn_of_open (anchored : EndAnchored written)
    (noBreak : text.toList.getLast? ≠ some '\n')
    (found : (ofText? written.toList).all fun pattern => pattern.foundIn text) :
    (ofTextClosed? written.toList).any fun pattern => pattern.foundIn text := by
  obtain ⟨parts, opened, closed⟩ := anchored
  rw [opened, Option.all_some, anchored_foundIn] at found
  obtain ⟨start, stop, reaches, reads, atEnd⟩ := found
  have suffix := (reaches.trans reads.reaches).suffix
  rw [closed, Option.any_some, anchored_foundIn]
  exact ⟨start, stop, reaches, reads, lastLineEnd_holds noBreak suffix atEnd⟩

theorem Unanchored.ofTextClosed?_eq (unanchored : Unanchored written) :
    ofTextClosed? written.toList = ofText? written.toList := by
  rw [ofTextClosed?, unanchored]

end WorkItems.Pattern
