import WorkItems.Proofs.Pattern.Ends

namespace WorkItems

/-! What a pattern matches.

`Pattern.Reads` says by recursion on a pattern which places its matches lead to, and knows nothing
of lists of places or of rounds.  It leaves open what a dollar sign stands for.  `foundIn_iff` says
that the matcher finds a pattern where there is such a match.
-/

variable {start middle stop cursor later origin : Cursor} {known cursors newest : List Cursor}
  {pattern : Pattern} {count : Nat} {text : String}

/-- So many steps, one after the other. -/
def Steps (step : Cursor → Cursor → Prop) : Nat → Cursor → Cursor → Prop
  | 0, start, stop => stop = start
  | count + 1, start, stop => ∃ middle, step start middle ∧ Steps step count middle stop

/-- Whether an anchor holds at a place, given where a dollar sign holds. -/
def Anchor.Holds (dollar : Cursor → Prop) (edge : Anchor) (cursor : Cursor) : Prop :=
  match edge with
  | .lastLineEnd => dollar cursor
  | edge => edge.holds cursor = true

namespace Pattern

/-- Whether a character is of a class. -/
def inClass (parts : List ClassPart) (c : Char) : Bool :=
  parts.any fun part => part.accepts c

/-- Whether a match of a pattern leads from one place to another. -/
def Reads (dollar : Cursor → Prop) : Pattern → Cursor → Cursor → Prop
  | .empty, start, stop => stop = start
  | .anyCharacter, start, stop => ∃ c, c ≠ '\n' ∧ start.Spans [c] stop
  | .oneOf negated parts, start, stop =>
    ∃ c, inClass parts c ≠ negated ∧ start.Spans [c] stop
  | .anchor edge, start, stop => stop = start ∧ edge.Holds dollar start
  | .sequence first second, start, stop =>
    ∃ middle, first.Reads dollar start middle ∧ second.Reads dollar middle stop
  | .either first second, start, stop =>
    first.Reads dollar start stop ∨ second.Reads dollar start stop
  | .repeated body least most, start, stop =>
    ∃ more, (∀ limit ∈ most, more ≤ limit - least) ∧
      Steps (body.Reads dollar) (least + more) start stop
  | .ahead negated body, start, stop =>
    stop = start ∧ ((∃ later, body.Reads dollar start later) ↔ negated = false)

/-- Whether a pattern matches somewhere in a text. -/
def Occurs (dollar : Cursor → Prop) (pattern : Pattern) (text : String) : Prop :=
  ∃ start stop, (Cursor.start text.toList).Reaches start ∧ pattern.Reads dollar start stop

/-- The very end of a text. -/
def textEnd (cursor : Cursor) : Prop :=
  cursor.rest = []

/-- The end of a text, or a line break that ends it. -/
def lineEnd (cursor : Cursor) : Prop :=
  Anchor.lastLineEnd.holds cursor = true

end Pattern

section

variable {step other : Cursor → Cursor → Prop} {more : Nat}

theorem steps_add : Steps step (count + more) start stop ↔
    ∃ middle, Steps step count start middle ∧ Steps step more middle stop := by
  induction count generalizing start with
  | zero => simp [Steps]
  | succ count ih =>
      rw [Nat.add_right_comm]
      simp only [Steps, ih]
      constructor
      · rintro ⟨first, stepped, middle, reached, rest⟩
        exact ⟨middle, ⟨first, stepped, reached⟩, rest⟩
      · rintro ⟨middle, ⟨first, stepped, reached⟩, rest⟩
        exact ⟨first, stepped, middle, reached, rest⟩

theorem steps_congr (same : ∀ start stop, step start stop ↔ other start stop) :
    Steps step count start stop ↔ Steps other count start stop := by
  have alike : step = other := funext fun start => funext fun stop => propext (same start stop)
  rw [alike]

theorem Steps.reaches (forward : ∀ start stop, step start stop → start.Reaches stop)
    (steps : Steps step count start stop) : start.Reaches stop := by
  induction count generalizing start with
  | zero => exact steps ▸ .refl
  | succ count ih =>
      obtain ⟨middle, stepped, rest⟩ := steps
      exact (forward start middle stepped).trans (ih rest)

/-- Steps that read nothing can be left out, so that no more are needed than there are characters
to read. -/
theorem Steps.shorten (forward : ∀ start stop, step start stop → start.Reaches stop)
    (steps : Steps step count start stop) :
    ∃ fewer ≤ count, start.position + fewer ≤ stop.position ∧ Steps step fewer start stop := by
  induction count generalizing start with
  | zero =>
      obtain rfl : stop = start := steps
      exact ⟨0, Nat.le_refl 0, Nat.le_refl _, rfl⟩
  | succ count ih =>
      obtain ⟨middle, stepped, rest⟩ := steps
      obtain ⟨fewer, few, reached, shorter⟩ := ih rest
      obtain ⟨read, spans⟩ := forward start middle stepped
      have position := spans.position
      cases read with
      | nil =>
          obtain rfl : middle = start := spans.eq_of_position .refl position
          exact ⟨fewer, Nat.le_succ_of_le few, reached, shorter⟩
      | cons c read =>
          rw [List.length_cons] at position
          exact ⟨fewer + 1, by omega, by omega, middle, stepped, shorter⟩

end

namespace Pattern

theorem isKnown_iff (known_onLine : ∀ place ∈ known, origin.Reaches place)
    (onLine : origin.Reaches cursor) : Cursor.isKnown known cursor = true ↔ cursor ∈ known := by
  rw [Cursor.isKnown, List.any_eq_true]
  constructor
  · rintro ⟨other, among, same⟩
    have reached := (known_onLine other among).eq_of_position onLine (beq_iff_eq.mp same)
    exact reached ▸ among
  · intro among
    exact ⟨cursor, among, BEq.rfl⟩

theorem mem_novel_iff (known_onLine : ∀ place ∈ known, origin.Reaches place)
    (onLine : ∀ place ∈ cursors, origin.Reaches place) :
    cursor ∈ Cursor.novel known cursors ↔ cursor ∈ cursors ∧ cursor ∉ known := by
  induction cursors generalizing known with
  | nil => simp [Cursor.novel]
  | cons first rest ih =>
      obtain ⟨here, others⟩ := List.forall_mem_cons.mp onLine
      rw [Cursor.novel]
      by_cases old : first ∈ known
      · rw [if_pos ((isKnown_iff known_onLine here).mpr old), ih known_onLine others]
        simp only [List.mem_cons]
        constructor
        · rintro ⟨among, new⟩
          exact ⟨.inr among, new⟩
        · rintro ⟨rfl | among, new⟩
          · exact absurd old new
          · exact ⟨among, new⟩
      · have fresh : ¬ Cursor.isKnown known first = true :=
          fun found => old ((isKnown_iff known_onLine here).mp found)
        rw [if_neg fresh, List.mem_cons, ih (List.forall_mem_cons.mpr ⟨here, known_onLine⟩) others]
        simp only [List.mem_cons, not_or]
        constructor
        · rintro (rfl | ⟨among, -, new⟩)
          · exact ⟨.inl rfl, old⟩
          · exact ⟨.inr among, new⟩
        · rintro ⟨rfl | among, new⟩
          · exact .inl rfl
          · by_cases same : cursor = first
            · exact .inl same
            · exact .inr ⟨among, same, new⟩

theorem mem_novel_nil_iff (onLine : ∀ place ∈ cursors, origin.Reaches place) :
    cursor ∈ Cursor.novel [] cursors ↔ cursor ∈ cursors := by
  rw [mem_novel_iff (List.forall_mem_nil _) onLine]
  simp

section

variable {step : Cursor → List Cursor}
  (forward : ∀ start, ∀ stop ∈ step start, start.Reaches stop)

include forward

theorem flatMap_onLine (onLine : ∀ place ∈ cursors, origin.Reaches place) :
    ∀ place ∈ cursors.flatMap step, origin.Reaches place := by
  intro place member
  obtain ⟨start, among, stepped⟩ := List.mem_flatMap.mp member
  exact (onLine start among).trans (forward start place stepped)

theorem mem_reachedExactly_iff (onLine : ∀ place ∈ cursors, origin.Reaches place) :
    later ∈ reachedExactly step count cursors ↔
      ∃ start ∈ cursors, Steps (fun start stop => stop ∈ step start) count start later := by
  induction count generalizing cursors with
  | zero => simp [reachedExactly, Steps]
  | succ count ih =>
      cases cursors with
      | nil => simp [reachedExactly]
      | cons first rest =>
          have further := flatMap_onLine forward onLine
          have novel : ∀ place ∈ Cursor.novel [] ((first :: rest).flatMap step),
              origin.Reaches place := fun place member => further place (mem_of_mem_novel member)
          have step_eq : reachedExactly step (count + 1) (first :: rest) =
              reachedExactly step count (Cursor.novel [] ((first :: rest).flatMap step)) := rfl
          rw [step_eq, ih novel]
          simp only [mem_novel_nil_iff further, List.mem_flatMap, Steps]
          constructor
          · rintro ⟨middle, ⟨start, among, stepped⟩, steps⟩
            exact ⟨start, among, middle, stepped, steps⟩
          · rintro ⟨start, among, middle, stepped, steps⟩
            exact ⟨middle, ⟨start, among, stepped⟩, steps⟩

omit forward in
theorem steps_of_mem_reachedWithin (fresh : ∀ place ∈ newest, place ∈ known)
    (member : later ∈ reachedWithin step count known newest) :
    ∃ fewer ≤ count, ∃ start ∈ known,
      Steps (fun start stop => stop ∈ step start) fewer start later := by
  induction count generalizing known newest with
  | zero => exact ⟨0, Nat.le_refl 0, later, member, rfl⟩
  | succ count ih =>
      rw [reachedWithin] at member
      split at member
      · exact ⟨0, Nat.zero_le _, later, member, rfl⟩
      · obtain ⟨fewer, few, start, among, steps⟩ :=
          ih (fun place new => List.mem_append_right known new) member
        rcases List.mem_append.mp among with old | new
        · exact ⟨fewer, Nat.le_succ_of_le few, start, old, steps⟩
        · obtain ⟨before, recent, stepped⟩ := List.mem_flatMap.mp (mem_of_mem_novel new)
          exact ⟨fewer + 1, Nat.succ_le_succ few, before, fresh before recent, start, stepped,
            steps⟩

/-- The places that are not among the newest have been gone on from already, so that rounds which
go on from the newest alone miss nothing. -/
theorem mem_reachedWithin_of_steps (onLine : ∀ place ∈ known, origin.Reaches place)
    (fresh : ∀ place ∈ newest, place ∈ known)
    (explored : ∀ place ∈ known, place ∉ newest → ∀ next ∈ step place, next ∈ known)
    {fewer : Nat} (few : fewer ≤ count) (among : start ∈ known)
    (steps : Steps (fun start stop => stop ∈ step start) fewer start later) :
    later ∈ reachedWithin step count known newest := by
  induction count generalizing known newest start fewer with
  | zero =>
      obtain rfl : fewer = 0 := Nat.le_zero.mp few
      obtain rfl : later = start := steps
      exact among
  | succ count ih =>
      have further := flatMap_onLine forward fun place member => onLine place (fresh place member)
      have novel_iff : ∀ {place}, place ∈ Cursor.novel known (newest.flatMap step) ↔
          place ∈ newest.flatMap step ∧ place ∉ known := mem_novel_iff onLine further
      -- One step further from what is known is known or found in this round.
      have next_known : ∀ place ∈ known, ∀ next ∈ step place,
          next ∈ known ++ Cursor.novel known (newest.flatMap step) := by
        intro place old next stepped
        by_cases knownToo : next ∈ known
        · exact List.mem_append_left _ knownToo
        · by_cases recent : place ∈ newest
          · exact List.mem_append_right _
              (novel_iff.mpr ⟨List.mem_flatMap.mpr ⟨place, recent, stepped⟩, knownToo⟩)
          · exact List.mem_append_left _ (explored place old recent next stepped)
      rw [reachedWithin]
      split
      · next none =>
          rw [none, List.append_nil] at next_known
          clear ih few
          induction fewer generalizing start with
          | zero =>
              obtain rfl : later = start := steps
              exact among
          | succ fewer ih =>
              obtain ⟨middle, stepped, rest⟩ := steps
              exact ih (next_known start among middle stepped) rest
      · next reached some =>
          have reached_onLine : ∀ place ∈ known ++ Cursor.novel known (newest.flatMap step),
              origin.Reaches place := by
            intro place member
            rcases List.mem_append.mp member with old | new
            · exact onLine place old
            · exact further place (mem_of_mem_novel new)
          have explored_further : ∀ place ∈ known ++ Cursor.novel known (newest.flatMap step),
              place ∉ Cursor.novel known (newest.flatMap step) → ∀ next ∈ step place,
                next ∈ known ++ Cursor.novel known (newest.flatMap step) := by
            intro place member notNew
            exact next_known place ((List.mem_append.mp member).resolve_right notNew)
          have later_fresh : ∀ place ∈ Cursor.novel known (newest.flatMap step),
              place ∈ known ++ Cursor.novel known (newest.flatMap step) :=
            fun place new => List.mem_append_right known new
          cases fewer with
          | zero =>
              exact ih reached_onLine later_fresh explored_further (Nat.zero_le _)
                (List.mem_append_left _ among) steps
          | succ fewer =>
              obtain ⟨middle, stepped, rest⟩ := steps
              exact ih reached_onLine later_fresh explored_further (Nat.le_of_succ_le_succ few)
                (next_known start among middle stepped) rest

end

theorem holds_lineEnd (edge : Anchor) : edge.Holds lineEnd cursor ↔ edge.holds cursor = true := by
  cases edge <;> exact Iff.rfl

theorem mem_ends_repeated {body : Pattern} {least : Nat} {most : Option Nat} :
    later ∈ (Pattern.repeated body least most).ends cursor ↔
      ∃ more, (∀ limit ∈ most, more ≤ limit - least) ∧
        Steps (fun start stop => stop ∈ body.ends start) (least + more) cursor later := by
  have forward : ∀ start, ∀ stop ∈ body.ends start, start.Reaches stop :=
    fun start stop member => ends_reaches member
  have here : ∀ place ∈ [cursor], cursor.Reaches place :=
    fun place member => List.mem_singleton.mp member ▸ .refl
  have exactly : ∀ {place}, place ∈ reachedExactly body.ends least [cursor] ↔
      Steps (fun start stop => stop ∈ body.ends start) least cursor place := by
    intro place
    rw [mem_reachedExactly_iff forward here]
    simp
  have onLine : ∀ place ∈ reachedExactly body.ends least [cursor], cursor.Reaches place :=
    fun place member => (exactly.mp member).reaches forward
  -- Rounds lead exactly to what so many steps after the least ones lead to.
  have within (rounds : Nat) :
      later ∈ reachedWithin body.ends rounds (reachedExactly body.ends least [cursor])
          (reachedExactly body.ends least [cursor]) ↔
        ∃ more ≤ rounds,
          Steps (fun start stop => stop ∈ body.ends start) (least + more) cursor later := by
    constructor
    · intro member
      obtain ⟨more, few, middle, reached, steps⟩ :=
        steps_of_mem_reachedWithin (fun _ among => among) member
      exact ⟨more, few, steps_add.mpr ⟨middle, exactly.mp reached, steps⟩⟩
    · rintro ⟨more, few, steps⟩
      obtain ⟨middle, reached, rest⟩ := steps_add.mp steps
      exact mem_reachedWithin_of_steps forward onLine (fun _ among => among)
        (fun _ among new => absurd among new) few (exactly.mpr reached) rest
  cases most with
  | some limit =>
      refine (within (limit - least)).trans ?_
      simp
  | none =>
      refine (within cursor.rest.length).trans ⟨?_, ?_⟩
      · rintro ⟨more, -, steps⟩
        exact ⟨more, nofun, steps⟩
      · rintro ⟨more, -, steps⟩
        obtain ⟨middle, reached, rest⟩ := steps_add.mp steps
        obtain ⟨fewer, -, read, shorter⟩ := rest.shorten forward
        refine ⟨fewer, ?_, steps_add.mpr ⟨middle, reached, shorter⟩⟩
        obtain ⟨before, first⟩ := reached.reaches forward
        obtain ⟨after, second⟩ := rest.reaches forward
        have whole := congrArg List.length first.rest
        have position := second.position
        rw [second.rest] at whole
        simp only [List.length_append] at whole
        omega

/-- The matcher goes to the places that matches lead to. -/
theorem mem_ends_iff : later ∈ pattern.ends cursor ↔ pattern.Reads lineEnd cursor later := by
  induction pattern generalizing cursor later with
  | empty => rw [ends, List.mem_singleton, Reads]
  | anyCharacter =>
      rw [ends, Cursor.mem_advance_iff]
      simp [Reads]
  | oneOf negated parts =>
      rw [ends, Cursor.mem_advance_iff]
      simp [Reads, inClass]
  | anchor edge =>
      rw [ends, Reads, holds_lineEnd]
      cases edge.holds cursor <;> simp
  | sequence first second firstHolds secondHolds =>
      have onLine : ∀ place ∈ (first.ends cursor).flatMap second.ends, cursor.Reaches place := by
        intro place member
        obtain ⟨middle, found, reached⟩ := List.mem_flatMap.mp member
        exact (ends_reaches found).trans (ends_reaches reached)
      rw [ends, mem_novel_nil_iff onLine, List.mem_flatMap]
      simp only [firstHolds, secondHolds, Reads]
  | either first second firstHolds secondHolds =>
      have onLine : ∀ place ∈ first.ends cursor ++ second.ends cursor, cursor.Reaches place := by
        intro place member
        rcases List.mem_append.mp member with found | found <;> exact ends_reaches found
      rw [ends, mem_novel_nil_iff onLine, List.mem_append, firstHolds, secondHolds, Reads]
  | repeated body least most ih =>
      rw [mem_ends_repeated, Reads]
      simp only [steps_congr fun start stop => ih]
  | ahead negated body ih =>
      have found : (body.ends cursor).isEmpty = false ↔
          ∃ later, body.Reads lineEnd cursor later := by
        simp only [List.isEmpty_eq_false_iff_exists_mem, ih]
      rw [ends, Reads, ← found]
      cases (body.ends cursor).isEmpty <;> cases negated <;> simp

/-- A pattern is found in a text when it matches somewhere. -/
theorem foundIn_iff : pattern.foundIn text = true ↔ pattern.Occurs lineEnd text := by
  simp only [foundIn, List.any_eq_true, Bool.not_eq_true', List.isEmpty_eq_false_iff_exists_mem,
    mem_ends_iff, Cursor.mem_onwards_iff, Occurs]
  constructor
  · rintro ⟨start, reaches, stop, reads⟩
    exact ⟨start, stop, reaches, reads⟩
  · rintro ⟨start, stop, reaches, reads⟩
    exact ⟨start, reaches, stop, reads⟩

end Pattern

end WorkItems
