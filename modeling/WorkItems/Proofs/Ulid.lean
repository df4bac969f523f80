import Mathlib.Algebra.Group.Nat.Defs
import Mathlib.Data.List.Induction
import WorkItems.Ulid

namespace WorkItems.Ulid

/-! Numbers and their texts.

A text is read as 26 digits in base 32 of a number below 2 ^ 128, and is read at all exactly when it
is the text of such a number.  Digits are in the order of their characters, so texts are in the
order of the numbers.
-/

variable {width n m value : Nat} {c : Char} {cs : List Char}

theorem digit_mem (n : Nat) : digit n ∈ alphabet := by
  rw [digit, List.getD_eq_getElem?_getD]
  cases found : alphabet[n]? with
  | some c => exact List.mem_of_getElem? found
  | none => decide

theorem digits_mem {width n : Nat} : ∀ c ∈ digits width n, c ∈ alphabet := by
  induction width generalizing n with
  | zero => exact List.forall_mem_nil _
  | succ width ih =>
      rw [digits]
      exact List.forall_mem_append.mpr ⟨ih, List.forall_mem_singleton.mpr (digit_mem _)⟩

theorem digits_length (width n : Nat) : (digits width n).length = width := by
  induction width generalizing n with
  | zero => rfl
  | succ width ih => rw [digits, List.length_append, ih, List.length_singleton]

theorem alphabet_sorted : alphabet.Pairwise (· < ·) := by decide

theorem digit_eq_getElem (small : n < alphabet.length) : digit n = alphabet[n] := by
  rw [digit, List.getD_eq_getElem?_getD, List.getElem?_eq_getElem small, Option.getD_some]

theorem digit_lt_of_lt (less : n < m) (small : m < 32) : digit n < digit m := by
  have room : m < alphabet.length := small
  rw [digit_eq_getElem (Nat.lt_trans less room), digit_eq_getElem room]
  exact List.pairwise_iff_getElem.mp alphabet_sorted n m _ room less

theorem digit_lt_iff (small : n < 32) (smallToo : m < 32) : digit n < digit m ↔ n < m := by
  constructor
  · intro less
    rcases Nat.lt_trichotomy n m with below | rfl | above
    · exact below
    · exact absurd less (Char.lt_irrefl _)
    · exact absurd less (Char.lt_asymm (digit_lt_of_lt above small))
  · exact fun less => digit_lt_of_lt less smallToo

/-- What a character stands for as a digit. -/
def digitValue? (c : Char) : Option Nat :=
  alphabet.idxOf? c

theorem digitValue?_eq_some_iff : digitValue? c = some value ↔ value < 32 ∧ digit value = c := by
  rw [digitValue?, List.idxOf?_eq_some_iff]
  constructor
  · intro first
    rcases first with ⟨room, same, -⟩
    exact ⟨room, (digit_eq_getElem room).trans same⟩
  · intro written
    rcases written with ⟨small, rfl⟩
    refine ⟨small, (digit_eq_getElem small).symm, fun earlier before => ?_⟩
    rw [← digit_eq_getElem (Nat.lt_trans before small)]
    exact Char.ne_of_lt (digit_lt_of_lt before small)

/-- The number that digits in base 32 write, the highest digit first. -/
def ofDigits? (cs : List Char) : Option Nat :=
  cs.foldlM (fun number c => (digitValue? c).map fun value => 32 * number + value) 0

/-- The number of 128 bits that a text of 26 digits is for. -/
def number? (text : String) : Option Nat :=
  if text.length = 26 then (ofDigits? text.toList).filter (· < 2 ^ 128) else none

theorem ofDigits?_append : ofDigits? (cs ++ [c]) =
    (ofDigits? cs).bind fun number => (digitValue? c).map fun value => 32 * number + value := by
  rw [ofDigits?, List.foldlM_append]
  simp [ofDigits?]

/-- Digits are read as a number exactly when they are the digits of that number. -/
theorem ofDigits?_eq_some_iff : ofDigits? cs = some n ↔
    n < 32 ^ cs.length ∧ digits cs.length n = cs := by
  induction cs using List.reverseRecOn generalizing n with
  | nil => simp [ofDigits?, digits, eq_comm]
  | append_singleton cs c ih =>
      rw [ofDigits?_append, List.length_append, List.length_singleton, digits, Nat.pow_succ]
      simp only [Option.bind_eq_some_iff, Option.map_eq_some_iff, ih, digitValue?_eq_some_iff]
      constructor
      · intro read
        rcases read with ⟨number, ⟨fits, same⟩, value, ⟨small, last⟩, rfl⟩
        have quotient : (32 * number + value) / 32 = number := by omega
        have remainder : (32 * number + value) % 32 = value := by omega
        rw [quotient, remainder, same, last]
        exact ⟨by omega, rfl⟩
      · intro written
        rcases written with ⟨fits, same⟩
        obtain ⟨front, last⟩ := List.append_inj' same rfl
        refine ⟨n / 32, ⟨by omega, front⟩, n % 32, ⟨Nat.mod_lt n (by decide), ?_⟩, by omega⟩
        exact List.singleton_inj.mp last

theorem ofDigits?_digits (fits : n < 32 ^ width) : ofDigits? (digits width n) = some n := by
  rw [ofDigits?_eq_some_iff, digits_length]
  exact ⟨fits, rfl⟩

theorem digits_inj (fits : n < 32 ^ width) (fitsToo : m < 32 ^ width) :
    digits width n = digits width m ↔ n = m := by
  refine ⟨fun same => ?_, fun same => same ▸ rfl⟩
  have read := ofDigits?_digits fits
  rw [same, ofDigits?_digits fitsToo] at read
  exact (Option.some.inj read).symm

theorem text_length (n : Nat) : (text n).length = 26 := by
  rw [text, String.length_ofList, digits_length]

/-- A text is read as a number exactly when it is the text of that number. -/
theorem number?_eq_some_iff {written : String} : number? written = some n ↔
    n < 2 ^ 128 ∧ text n = written := by
  have sameText : digits 26 n = written.toList ↔ text n = written := by
    rw [text, ← String.toList_inj, String.toList_ofList]
  rw [number?]
  constructor
  · intro read
    split at read
    · rename_i size
      obtain ⟨found, fits⟩ := Option.filter_eq_some_iff.mp read
      obtain ⟨-, same⟩ := ofDigits?_eq_some_iff.mp found
      rw [String.length_toList, size] at same
      exact ⟨of_decide_eq_true fits, sameText.mp same⟩
    · cases read
  · intro isText
    rcases isText with ⟨fits, rfl⟩
    rw [if_pos (text_length n), Option.filter_eq_some_iff]
    refine ⟨?_, decide_eq_true fits⟩
    rw [text, String.toList_ofList]
    exact ofDigits?_digits (Nat.lt_trans fits (by decide))

theorem number?_text (fits : n < 2 ^ 128) : number? (text n) = some n :=
  number?_eq_some_iff.mpr ⟨fits, rfl⟩

/-- The last characters decide between lists that agree before them. -/
theorem append_lt_append_iff {front back : List Char} {first last : Char}
    (same : front.length = back.length) :
    front ++ [first] < back ++ [last] ↔ front < back ∨ front = back ∧ first < last := by
  induction front generalizing back with
  | nil =>
      obtain rfl := List.length_eq_zero_iff.mp same.symm
      simp [List.cons_lt_cons_iff]
  | cons c front ih =>
      cases back with
      | nil => cases same
      | cons d back =>
          have shorter : front.length = back.length := Nat.succ.inj same
          simp only [List.cons_append, List.cons_lt_cons_iff, ih shorter, List.cons.injEq]
          tauto

theorem digits_lt_iff (fits : n < 32 ^ width) (fitsToo : m < 32 ^ width) :
    digits width n < digits width m ↔ n < m := by
  induction width generalizing n m with
  | zero =>
      obtain rfl := Nat.lt_one_iff.mp fits
      obtain rfl := Nat.lt_one_iff.mp fitsToo
      exact iff_of_false (List.lt_irrefl _) (Nat.lt_irrefl 0)
  | succ width ih =>
      rw [Nat.pow_succ] at fits fitsToo
      have front : n / 32 < 32 ^ width := by omega
      have frontToo : m / 32 < 32 ^ width := by omega
      have last : n % 32 < 32 := Nat.mod_lt n (by decide)
      have lastToo : m % 32 < 32 := Nat.mod_lt m (by decide)
      rw [digits, digits, append_lt_append_iff (by rw [digits_length, digits_length]),
        ih front frontToo, digits_inj front frontToo, digit_lt_iff last lastToo]
      omega

theorem text_lt_iff (fits : n < 2 ^ 128) (fitsToo : m < 2 ^ 128) : text n < text m ↔ n < m := by
  have room : 2 ^ 128 < 32 ^ 26 := by decide
  rw [String.lt_iff, text, text, String.toList_ofList, String.toList_ofList,
    digits_lt_iff (Nat.lt_trans fits room) (Nat.lt_trans fitsToo room)]

theorem text_inj (fits : n < 2 ^ 128) (fitsToo : m < 2 ^ 128) : text n = text m ↔ n = m := by
  refine ⟨fun same => ?_, fun same => same ▸ rfl⟩
  have read := number?_text fits
  rw [same, number?_text fitsToo] at read
  exact (Option.some.inj read).symm

end WorkItems.Ulid
