import WorkItems.Item.Form
import WorkItems.Proofs.Schema.Registered

namespace WorkItems

/-! Versions, as patterns match them.

The pattern of a version matches three runs of digits and perhaps a qualifier.  What is a digit is
up to the engine.  Forms know all digits that the schema engine knows, and some more; in ASCII both
know the same ten.
-/

open Pattern Schema

variable {text : String} {c : Char} {part : ClassPart} {digit : Char → Bool}

/-- Whether some characters are one or more of a kind. -/
def IsRun (accepts : Char → Bool) (run : List Char) : Prop :=
  run ≠ [] ∧ ∀ c ∈ run, accepts c = true

def isAlphanumeric (c : Char) : Bool :=
  PatternToken.isLetter c || PatternToken.isDigit c

/-- Whether a text is three numbers joined by points, and perhaps a qualifier after a hyphen. -/
def IsVersion (digit : Char → Bool) (text : String) : Prop :=
  ∃ major minor patch qualifier : List Char,
    text.toList = major ++ '.' :: (minor ++ '.' :: (patch ++ qualifier)) ∧
      IsRun digit major ∧ IsRun digit minor ∧ IsRun digit patch ∧
      (qualifier = [] ∨ ∃ name, qualifier = '-' :: name ∧ IsRun isAlphanumeric name)

theorem mem_runs_iff {parts : List ClassPart} {accepts : Char → Bool} {run : List Char}
    (same : ∀ c, inClass parts c = accepts c) : run ∈ runs parts ↔ IsRun accepts run := by
  simp only [mem_runs, IsRun, same]

theorem inClass_part (c : Char) : inClass [part] c = part.accepts c :=
  Bool.or_false _

theorem accepts_range {first last : Char} (low : last.toNat < 0xd800) :
    (ClassPart.range first last).accepts c = (decide (first ≤ c) && decide (c ≤ last)) := by
  rw [ClassPart.accepts, ← Bool.decide_and, ← Bool.decide_and]
  exact decide_eq_decide.mpr (Text.codeOf_within_iff low)

theorem inClass_qualifier (c : Char) : inClass qualifierClass c = isAlphanumeric c := by
  simp only [inClass, qualifierClass, List.any_cons, List.any_nil, Bool.or_false,
    accepts_range (show ('z' : Char).toNat < 0xd800 by decide),
    accepts_range (show ('Z' : Char).toNat < 0xd800 by decide),
    accepts_range (show ('9' : Char).toNat < 0xd800 by decide), isAlphanumeric,
    PatternToken.isLetter, PatternToken.isDigit, Bool.or_assoc]

/-- The languages of the parts of a version. -/
def versionLanguages (digit : ClassPart) : List (Language Char) :=
  [runs [digit], {['.']}, runs [digit], {['.']}, runs [digit], 1 + {['-']} * runs qualifierClass]

theorem versionParts_denote (digit : ClassPart) :
    List.Forall₂ Denotes (versionParts digit) (versionLanguages digit) := by
  have name : Denotes (.repeated (.oneOf false qualifierClass) 1 none) (runs qualifierClass) :=
    denotes_runs
  have qualifier :=
    ((denotes_character '-').sequence (name.sequence denotes_empty)).sequence denotes_empty
  rw [mul_one, mul_one] at qualifier
  exact .cons denotes_runs (.cons (denotes_character '.') (.cons denotes_runs
    (.cons (denotes_character '.') (.cons denotes_runs (.cons qualifier.optional .nil)))))

theorem mem_versionLanguages :
    text.toList ∈ (versionLanguages part).prod ↔ IsVersion part.accepts text := by
  have point {run : List Char} {c : Char} : run ∈ ({[c]} : Language Char) ↔ run = [c] := Iff.rfl
  simp only [versionLanguages, List.prod_cons, List.prod_nil, mul_one, Language.mem_mul,
    Language.mem_add, Language.mem_one, point, mem_runs_iff inClass_part,
    mem_runs_iff inClass_qualifier, exists_eq_left, List.singleton_append]
  constructor
  · rintro ⟨major, isMajor, _, ⟨_, ⟨minor, isMinor, _, ⟨_, ⟨patch, isPatch, qualifier, last, rfl⟩,
      rfl⟩, rfl⟩, rfl⟩, whole⟩
    refine ⟨major, minor, patch, qualifier, whole.symm, isMajor, isMinor, isPatch, ?_⟩
    exact last.imp_right fun ⟨name, isName, hyphen⟩ => ⟨name, hyphen.symm, isName⟩
  · rintro ⟨major, minor, patch, qualifier, whole, isMajor, isMinor, isPatch, last⟩
    refine ⟨major, isMajor, _, ⟨_, ⟨minor, isMinor, _, ⟨_, ⟨patch, isPatch, qualifier, ?_, rfl⟩,
      rfl⟩, rfl⟩, rfl⟩, whole.symm⟩
    exact last.imp_right fun ⟨name, hyphen, isName⟩ => ⟨name, isName, hyphen.symm⟩

theorem anchoredVersion_foundIn :
    (anchored (.anchor .textStart :: versionParts part) .textEnd).foundIn text = true ↔
      IsVersion part.accepts text := by
  rw [foundIn_iff_mem (versionParts_denote part), mem_versionLanguages]

theorem IsVersion.congr {digit other : Char → Bool} (same : ∀ c, digit c = other c) :
    IsVersion digit text ↔ IsVersion other text := by
  rw [funext same]

/-- The versions of the schema engine. -/
theorem versionPattern_matches :
    ((ofTextClosed? versionPattern.toList).any fun pattern => pattern.foundIn text) = true ↔
      IsVersion Text.isDigit text := by
  rw [versionPattern_parts, Option.any_some, anchoredVersion_foundIn]
  exact IsVersion.congr fun c => Bool.bne_false _

/-- The versions of forms. -/
theorem formVersion_matches :
    ((formPattern? versionPattern).any fun pattern => pattern.foundIn text) = true ↔
      IsVersion Text.isRecentDigit text := by
  have recent : formPattern? versionPattern =
      some (anchored (.anchor .textStart :: versionParts (.recentDigit false)) .textEnd) := by
    rw [formPattern?, versionPattern_parts]
    rfl
  rw [recent, Option.any_some, anchoredVersion_foundIn]
  exact IsVersion.congr fun c => Bool.bne_false _

theorem IsVersion.imp {digit other : Char → Bool}
    (implies : ∀ c ∈ text.toList, digit c = true → other c = true)
    (version : IsVersion digit text) : IsVersion other text := by
  obtain ⟨major, minor, patch, qualifier, whole, ⟨some, isMajor⟩, ⟨someToo, isMinor⟩,
    ⟨someMore, isPatch⟩, last⟩ := version
  rw [whole] at implies
  simp only [List.forall_mem_append, List.forall_mem_cons] at implies
  obtain ⟨inMajor, -, inMinor, -, inPatch, -⟩ := implies
  exact ⟨major, minor, patch, qualifier, whole,
    ⟨some, fun c among => inMajor c among (isMajor c among)⟩,
    ⟨someToo, fun c among => inMinor c among (isMinor c among)⟩,
    ⟨someMore, fun c among => inPatch c among (isPatch c among)⟩, last⟩

theorem ascii_of_le {last : Char} (bound : c ≤ last) (ascii : last.toNat < 128) :
    c.toNat < 128 :=
  Nat.lt_of_le_of_lt (UInt32.le_iff_toNat_le.mp bound) ascii

theorem isDigit_ascii (digit : PatternToken.isDigit c = true) : c.toNat < 128 := by
  simp only [PatternToken.isDigit, Bool.and_eq_true, decide_eq_true_eq] at digit
  exact ascii_of_le digit.2 (by decide)

theorem isAlphanumeric_ascii (alphanumeric : isAlphanumeric c = true) : c.toNat < 128 := by
  simp only [isAlphanumeric, PatternToken.isLetter, Bool.or_eq_true, Bool.and_eq_true,
    decide_eq_true_eq] at alphanumeric
  rcases alphanumeric with (small | capital) | digit
  · exact ascii_of_le small.2 (by decide)
  · exact ascii_of_le capital.2 (by decide)
  · exact isDigit_ascii digit

/-- In a version, what is no digit is in ASCII. -/
theorem IsVersion.digit_or_ascii (version : IsVersion digit text) :
    ∀ c ∈ text.toList, digit c = true ∨ c.toNat < 128 := by
  obtain ⟨major, minor, patch, qualifier, whole, isMajor, isMinor, isPatch, last⟩ := version
  have digits {run : List Char} (isRun : IsRun digit run) :
      ∀ c ∈ run, digit c = true ∨ c.toNat < 128 := fun c among => .inl (isRun.2 c among)
  have end_ascii : ∀ c ∈ qualifier, digit c = true ∨ c.toNat < 128 := by
    rcases last with rfl | ⟨name, rfl, isName⟩
    · exact List.forall_mem_nil _
    · exact List.forall_mem_cons.mpr
        ⟨.inr (by decide), fun c among => .inr (isAlphanumeric_ascii (isName.2 c among))⟩
  rw [whole]
  simp only [List.forall_mem_append, List.forall_mem_cons]
  exact ⟨digits isMajor, .inr (by decide), digits isMinor, .inr (by decide), digits isPatch,
    end_ascii⟩

theorem IsVersion.ascii (version : IsVersion PatternToken.isDigit text) :
    ∀ c ∈ text.toList, c.toNat < 128 := fun c among =>
  (version.digit_or_ascii c among).elim isDigit_ascii id

/-- In ASCII there are ten digits, to the schema engine and to forms. -/
theorem isDigit_eq (ascii : c.toNat < 128) :
    Text.isDigit c = PatternToken.isDigit c ∧ Text.isRecentDigit c = PatternToken.isDigit c := by
  have all : ∀ code < 128,
      Text.isDigit (Char.ofNat code) = PatternToken.isDigit (Char.ofNat code) ∧
        Text.isRecentDigit (Char.ofNat code) = PatternToken.isDigit (Char.ofNat code) := by
    decide +kernel
  simpa only [Char.ofNat_toNat] using all c.toNat ascii

/-- The versions with digits of ASCII are the versions in ASCII. -/
theorem isVersion_ascii_iff
    (same : ∀ c : Char, c.toNat < 128 → digit c = PatternToken.isDigit c) :
    IsVersion PatternToken.isDigit text ↔
      IsVersion digit text ∧ ∀ c ∈ text.toList, c.toNat < 128 := by
  constructor
  · intro version
    exact ⟨version.imp fun c among => same c (version.ascii c among) ▸ id, version.ascii⟩
  · rintro ⟨version, ascii⟩
    exact version.imp fun c among => same c (ascii c among) ▸ id

/-- Whether the schema engine knows all digits of a text that forms know. -/
def SettledDigits (text : String) : Prop :=
  ∀ c ∈ text.toList, Text.isRecentDigit c = true → Text.isDigit c = true

instance (text : String) : Decidable (SettledDigits text) :=
  List.decidableBAll (fun c => Text.isRecentDigit c = true → Text.isDigit c = true) text.toList

theorem isRecentDigit_of_isDigit (digit : Text.isDigit c = true) :
    Text.isRecentDigit c = true := by
  rw [Text.isRecentDigit, digit, Bool.true_or]

/-- The versions of the schema engine are those versions of forms in which it knows all digits. -/
theorem isVersion_iff_settled : IsVersion Text.isDigit text ↔
    IsVersion Text.isRecentDigit text ∧ SettledDigits text := by
  constructor
  · intro version
    refine ⟨version.imp fun c _ => isRecentDigit_of_isDigit, fun c among recent => ?_⟩
    rcases version.digit_or_ascii c among with digit | ascii
    · exact digit
    · rwa [(isDigit_eq ascii).left, ← (isDigit_eq ascii).right]
  · rintro ⟨version, settled⟩
    exact version.imp settled

theorem toNat_lt_of_inRanges {table : List (Nat × Nat)} {bound : Nat}
    (below : ∀ range ∈ table, range.2 < bound) (found : Text.inRanges table c = true) :
    c.toNat < bound := by
  obtain ⟨range, among, inside⟩ := List.any_eq_true.mp found
  rw [Bool.and_eq_true, decide_eq_true_eq, decide_eq_true_eq] at inside
  exact Nat.lt_of_le_of_lt inside.2 (below range among)

/-- A version has a form in bytes. -/
theorem IsVersion.encodable (version : IsVersion Text.isRecentDigit text) :
    Text.isEncodable text = true := by
  refine Text.isEncodable_iff.mpr fun c among => ?_
  have low : c.toNat < 0x10d800 := by
    rcases version.digit_or_ascii c among with digit | ascii
    · rw [Text.isRecentDigit, Text.isDigit, Bool.or_eq_true] at digit
      exact digit.elim (toNat_lt_of_inRanges (by decide)) (toNat_lt_of_inRanges (by decide))
    · omega
  rw [← Bool.not_eq_true, Text.isSurrogate_iff]
  omega

end WorkItems
