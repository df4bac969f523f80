import Mathlib.Computability.Language
import Mathlib.Data.List.Forall2
import WorkItems.Proofs.Pattern.EndAnchor
import WorkItems.Proofs.Text.Surrogate

namespace WorkItems.Pattern

/-! Patterns that stand for languages.

Without anchors and without looking ahead, a pattern matches the texts of a language wherever they
stand.  Such patterns one after the other, from the start of a text to its very end, are found in
the texts of the product of their languages.
-/

variable {parts : List ClassPart} {start stop : Cursor} {count : Nat} {text : String}
  {dollar : Cursor → Prop} {first second body : Pattern} {language other : Language Char}

/-- Whether a pattern matches the texts of a language and no others. -/
def Denotes (pattern : Pattern) (language : Language Char) : Prop :=
  ∀ dollar start stop, pattern.Reads dollar start stop ↔ ∃ run ∈ language, start.Spans run stop

/-- The texts of a single character of a class. -/
def ofClass (parts : List ClassPart) : Language Char :=
  {run | ∃ c, inClass parts c = true ∧ run = [c]}

/-- The texts of one or more characters of a class. -/
def runs (parts : List ClassPart) : Language Char :=
  {run | run ≠ [] ∧ ∀ c ∈ run, inClass parts c = true}

theorem mem_ofClass {run : List Char} :
    run ∈ ofClass parts ↔ ∃ c, inClass parts c = true ∧ run = [c] :=
  Iff.rfl

theorem mem_runs {run : List Char} :
    run ∈ runs parts ↔ run ≠ [] ∧ ∀ c ∈ run, inClass parts c = true :=
  Iff.rfl

theorem spans_nil_iff : start.Spans [] stop ↔ stop = start := by
  constructor
  · intro spans
    exact spans.eq_of_position .refl spans.position
  · rintro rfl
    exact .refl

theorem denotes_empty : Denotes .empty 1 := by
  intro dollar start stop
  simp [Reads, Language.mem_one, spans_nil_iff]

theorem denotes_class : Denotes (.oneOf false parts) (ofClass parts) := by
  intro dollar start stop
  rw [Reads]
  constructor
  · rintro ⟨c, accepted, spans⟩
    exact ⟨[c], ⟨c, (Bool.not_eq_false _).mp accepted, rfl⟩, spans⟩
  · rintro ⟨run, ⟨c, accepted, rfl⟩, spans⟩
    exact ⟨c, (Bool.not_eq_false _).mpr accepted, spans⟩

theorem denotes_character (c : Char) : Denotes (.oneOf false [.range c c]) {[c]} := by
  have same : ofClass [.range c c] = {[c]} := by
    ext run
    have single (other : Char) : inClass [.range c c] other = true ↔ other = c := by
      simp only [inClass, ClassPart.accepts, List.any_cons, List.any_nil, Bool.or_false,
        Bool.and_eq_true, decide_eq_true_eq]
      constructor
      · rintro ⟨least, most⟩
        exact Text.codeOf_injective (Nat.le_antisymm most least)
      · rintro rfl
        exact ⟨Nat.le_refl _, Nat.le_refl _⟩
    simp only [mem_ofClass, single, exists_eq_left]
    exact Iff.rfl
  exact same ▸ denotes_class

/-- What is read of a product is read in two parts. -/
theorem spans_mul_iff : (∃ run ∈ language * other, start.Spans run stop) ↔
    ∃ middle, (∃ run ∈ language, start.Spans run middle) ∧
      ∃ run ∈ other, middle.Spans run stop := by
  constructor
  · rintro ⟨whole, joined, spans⟩
    obtain ⟨run, among, rest, amongToo, rfl⟩ := Language.mem_mul.mp joined
    obtain ⟨middle, spans, onwards⟩ := spans.split
    exact ⟨middle, ⟨run, among, spans⟩, rest, amongToo, onwards⟩
  · rintro ⟨middle, ⟨run, among, spans⟩, rest, amongToo, onwards⟩
    exact ⟨run ++ rest, Language.append_mem_mul among amongToo, spans.trans onwards⟩

theorem Denotes.sequence (denotes : Denotes first language) (denotesToo : Denotes second other) :
    Denotes (.sequence first second) (language * other) := by
  intro dollar start stop
  simp only [Reads, denotes _ _ _, denotesToo _ _ _, spans_mul_iff]

/-- A pattern that may be left out. -/
theorem Denotes.optional (denotes : Denotes body language) :
    Denotes (.repeated body 0 (some 1)) (1 + language) := by
  intro dollar start stop
  have once : Steps (body.Reads dollar) 1 start stop ↔ ∃ run ∈ language, start.Spans run stop := by
    simp [Steps, denotes _ _ _]
  have members : (∃ run ∈ 1 + language, start.Spans run stop) ↔
      stop = start ∨ ∃ run ∈ language, start.Spans run stop := by
    simp [Language.mem_add, Language.mem_one, or_and_right, exists_or, spans_nil_iff]
  rw [Reads, members, ← once]
  constructor
  · rintro ⟨more, few, steps⟩
    have few : more ≤ 1 := few 1 rfl
    rw [Nat.zero_add] at steps
    rcases Nat.le_one_iff_eq_zero_or_eq_one.mp few with rfl | rfl
    · exact .inl steps
    · exact .inr steps
  · rintro (same | steps)
    · exact ⟨0, by simp, same⟩
    · exact ⟨1, by simp, steps⟩

theorem steps_class_iff : Steps ((Pattern.oneOf false parts).Reads dollar) count start stop ↔
    ∃ run, run.length = count ∧ (∀ c ∈ run, inClass parts c = true) ∧ start.Spans run stop := by
  induction count generalizing start with
  | zero =>
      simp [Steps, List.length_eq_zero_iff, spans_nil_iff]
  | succ count ih =>
      simp only [Steps, ih, denotes_class _ _ _, mem_ofClass]
      constructor
      · rintro ⟨middle, ⟨_, ⟨c, accepted, rfl⟩, first⟩, run, length, each, rest⟩
        exact ⟨c :: run, by simp [length], List.forall_mem_cons.mpr ⟨accepted, each⟩,
          first.trans rest⟩
      · rintro ⟨run, length, each, spans⟩
        cases run with
        | nil => cases length
        | cons c run =>
            obtain ⟨accepted, each⟩ := List.forall_mem_cons.mp each
            have joined : start.Spans ([c] ++ run) stop := spans
            obtain ⟨middle, first, rest⟩ := joined.split
            exact ⟨middle, ⟨[c], ⟨c, accepted, rfl⟩, first⟩, run, Nat.succ_inj.mp length, each,
              rest⟩

theorem denotes_runs : Denotes (.repeated (.oneOf false parts) 1 none) (runs parts) := by
  intro dollar start stop
  rw [Reads]
  simp only [steps_class_iff, mem_runs]
  constructor
  · rintro ⟨more, -, run, length, each, spans⟩
    refine ⟨run, ⟨fun empty => ?_, each⟩, spans⟩
    rw [empty, List.length_nil] at length
    omega
  · rintro ⟨run, ⟨nonempty, each⟩, spans⟩
    have positive := List.length_pos_iff.mpr nonempty
    exact ⟨run.length - 1, by simp, run, by omega, each, spans⟩

theorem readsParts_iff {patterns : List Pattern} {languages : List (Language Char)}
    (denote : List.Forall₂ Denotes patterns languages) :
    ReadsParts dollar patterns start stop ↔ ∃ run ∈ languages.prod, start.Spans run stop := by
  induction denote generalizing start with
  | nil => simp [ReadsParts, Language.mem_one, spans_nil_iff]
  | cons denotes _ ih =>
      rw [List.prod_cons, spans_mul_iff, ReadsParts]
      simp only [denotes _ _ _, ih]

/-- Only the first place of a text has nothing before it. -/
theorem eq_start_of_reaches {place : Cursor} (reaches : (Cursor.start text.toList).Reaches place)
    (none : place.previous = none) : place = Cursor.start text.toList := by
  obtain ⟨read, spans⟩ := reaches
  have before := spans.previous
  rw [none, Eq.comm, Option.or_eq_none_iff, List.getLast?_eq_none_iff] at before
  exact spans_nil_iff.mp (before.1 ▸ spans)

/-- From the start of a text to its very end, patterns match what is in the product of their
languages. -/
theorem foundIn_iff_mem {patterns : List Pattern} {languages : List (Language Char)}
    (denote : List.Forall₂ Denotes patterns languages) :
    (anchored (.anchor .textStart :: patterns) .textEnd).foundIn text = true ↔
      text.toList ∈ languages.prod := by
  rw [anchored_foundIn]
  simp only [ReadsParts, readsParts_iff denote]
  constructor
  · rintro ⟨start, stop, reaches, ⟨_, ⟨rfl, first⟩, run, among, spans⟩, last⟩
    obtain rfl := eq_start_of_reaches reaches (Option.isNone_iff_eq_none.mp first)
    have whole : text.toList = run ++ stop.rest := spans.rest
    rw [whole, List.isEmpty_iff.mp last, List.append_nil]
    exact among
  · intro among
    exact ⟨_, _, .refl, ⟨_, ⟨rfl, rfl⟩, text.toList, among, Cursor.spans_whole _⟩, rfl⟩

/-- One or more characters of a class, from the start of a text to its very end. -/
def word (parts : List ClassPart) : Pattern :=
  anchored [.anchor .textStart, .repeated (.oneOf false parts) 1 none] .textEnd

theorem word_foundIn : (word parts).foundIn text = true ↔ text.toList ∈ runs parts := by
  have denote : List.Forall₂ Denotes [.repeated (.oneOf false parts) 1 none] [runs parts] :=
    .cons denotes_runs .nil
  rw [word, foundIn_iff_mem denote, List.prod_singleton]

end WorkItems.Pattern
