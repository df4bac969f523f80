import WorkItems.Proofs.Outcome
import WorkItems.Proofs.Text.Surrogate
import WorkItems.Time.Reader

namespace WorkItems

/-! Moments are read back from their text.

Every field is written with a fixed number of digits, so the reader takes exactly the digits of a
field and leaves what follows.
-/

/-- The character of a digit. -/
def digitCharacter (digit : Nat) : Char := Char.ofNat (48 + digit)

namespace Moment

variable {width number digit : Nat} {rest : List Char}

theorem digit?_digitCharacter (small : digit < 10) :
    digit? (digitCharacter digit) = some digit := by
  match digit, small with
  | 0, _ | 1, _ | 2, _ | 3, _ | 4, _ | 5, _ | 6, _ | 7, _ | 8, _ | 9, _ => rfl

/-- The highest digit stands in front of the digits of the rest. -/
theorem fixedDigits_succ (width number : Nat) : fixedDigits (width + 1) number =
    digitCharacter (number / Nat.pow 10 width % 10) :: fixedDigits width number := by
  induction width generalizing number with
  | zero => simp [fixedDigits, digitCharacter]
  | succ width ih =>
      have lower : fixedDigits (width + 2) number =
          fixedDigits (width + 1) (number / 10) ++ [digitCharacter (number % 10)] := rfl
      have last : fixedDigits (width + 1) number =
          fixedDigits width (number / 10) ++ [digitCharacter (number % 10)] := rfl
      have power : Nat.pow 10 (width + 1) = Nat.pow 10 width * 10 := rfl
      rw [lower, ih, last, Nat.div_div_eq_div_mul, power, Nat.mul_comm 10]
      rfl

theorem digits?_fixedDigits :
    digits? width (fixedDigits width number ++ rest) = some (number % Nat.pow 10 width, rest) := by
  induction width with
  | zero => simp [digits?, fixedDigits, Nat.mod_one]
  | succ width ih =>
      have small : number / Nat.pow 10 width % 10 < 10 := Nat.mod_lt _ (by decide)
      have parts : number % Nat.pow 10 (width + 1) = number % Nat.pow 10 width +
          Nat.pow 10 width * (number / Nat.pow 10 width % 10) := Nat.mod_pow_succ
      rw [fixedDigits_succ, List.cons_append, digits?, digit?_digitCharacter small]
      simp only [ih, Option.bind_eq_bind, Option.bind_some]
      rw [parts, Nat.add_comm, Nat.mul_comm]
      rfl

/-- A number that fits its width is read back as it is. -/
theorem digits?_of_lt (width : Nat) (fits : number < Nat.pow 10 width) (rest : List Char) :
    digits? width (fixedDigits width number ++ rest) = some (number, rest) := by
  rw [digits?_fixedDigits, Nat.mod_eq_of_lt fits]

variable {year month day : Nat}

theorem month_of_hasDate (hasDate : Calendar.HasDate year month day) : 1 ≤ month ∧ month ≤ 12 := by
  obtain ⟨-, atLeast, atMost⟩ := hasDate
  rw [Calendar.daysInMonth] at atMost
  split at atMost
  · omega
  · split at atMost
    · omega
    · split at atMost
      · assumption
      · omega

theorem day_of_hasDate (hasDate : Calendar.HasDate year month day) : day ≤ 31 := by
  obtain ⟨-, -, atMost⟩ := hasDate
  refine Nat.le_trans atMost ?_
  rw [Calendar.daysInMonth]
  repeat' split
  all_goals decide

theorem readDate_fixedDigits (hasDate : Calendar.HasDate year month day) :
    readDate (fixedDigits 4 year ++ '-' :: (fixedDigits 2 month ++
      '-' :: (fixedDigits 2 day ++ rest))) = .ok (⟨year, month, day⟩, rest) := by
  have monthRange := month_of_hasDate hasDate
  have dayLimit := day_of_hasDate hasDate
  obtain ⟨⟨-, yearLimit⟩, dayLeast, dayMost⟩ := hasDate
  have readYear := digits?_of_lt 4 (show year < 10000 by omega)
  have readMonth := digits?_of_lt 2 (show month < 100 by omega)
  have readDay := digits?_of_lt 2 (show day < 100 by omega)
  simp only [readDate, readYear, readMonth, readDay]
  rw [if_neg (by omega), if_neg (by omega)]

/-- What may follow the seconds of a written time of day. -/
def NoDigitFirst (rest : List Char) : Prop :=
  ∀ c ∈ rest.head?, digit? c = none ∧ c ≠ '.' ∧ c ≠ ','

theorem noDigitFirst_offsetText (offset : Option Offset) : NoDigitFirst (offsetText offset) := by
  intro c first
  cases offset with
  | none => cases first
  | some offset =>
      rw [offsetText] at first
      split at first
      · obtain rfl := Option.some.inj first
        decide
      · obtain rfl := Option.some.inj first
        split <;> decide

theorem digitCharacter_digit (character : Char) (member : character ∈ fixedDigits width number) :
    (digit? character).isSome = true := by
  induction width with
  | zero => cases member
  | succ width ih =>
      rw [fixedDigits_succ] at member
      rcases List.mem_cons.mp member with same | later
      · rw [same, digit?_digitCharacter (Nat.mod_lt _ (by decide))]
        rfl
      · exact ih later

/-- The digits at the front of a text are those of the fraction. -/
theorem takeWhile_fixedDigits (width number : Nat) (next : NoDigitFirst rest) :
    (fixedDigits width number ++ rest).takeWhile (fun c => (digit? c).isSome) =
        fixedDigits width number ∧
      (fixedDigits width number ++ rest).dropWhile (fun c => (digit? c).isSome) = rest := by
  rw [List.takeWhile_append_of_pos digitCharacter_digit,
    List.dropWhile_append_of_pos digitCharacter_digit]
  cases rest with
  | nil => simp
  | cons c rest =>
      have noDigit := (next c rfl).left
      simp [noDigit]

theorem fixedDigits_length (width number : Nat) : (fixedDigits width number).length = width := by
  induction width with
  | zero => rfl
  | succ width ih => rw [fixedDigits_succ, List.length_cons, ih]

theorem readFraction?_fixedDigits (fits : number < 1000000) (next : NoDigitFirst rest) :
    readFraction? (fixedDigits 6 number ++ rest) = some (number, rest) := by
  have length : (fixedDigits 6 number).length = 6 := fixedDigits_length 6 number
  have read := digits?_of_lt 6 fits []
  obtain ⟨taken, dropped⟩ := takeWhile_fixedDigits 6 number next
  have written : (fixedDigits 6 number).isEmpty = false := by rw [fixedDigits_succ]; rfl
  rw [readFraction?]
  simp only [taken, dropped, written, List.take_of_length_le (Nat.le_of_eq length), length,
    Nat.sub_self, List.replicate_zero, read]
  rfl

theorem readClock?_fixedDigits (clock : Clock) (next : NoDigitFirst rest) :
    readClock? (fixedDigits 2 clock.hour ++ ':' :: (fixedDigits 2 clock.minute ++
      ':' :: (fixedDigits 2 clock.second ++ ((if clock.microsecond = 0 then [] else
        '.' :: fixedDigits 6 clock.microsecond) ++ rest)))) = some (clock, rest) := by
  obtain ⟨hour, minute, second, microsecond, inRange⟩ := clock
  obtain ⟨hourLimit, minuteLimit, secondLimit, microsecondLimit⟩ := id inRange
  have readHour := digits?_of_lt 2 (show hour < 100 by omega)
  have readMinute := digits?_of_lt 2 (show minute < 100 by omega)
  have readSecond := digits?_of_lt 2 (show second < 100 by omega)
  have readMicrosecond := readFraction?_fixedDigits microsecondLimit next
  by_cases whole : microsecond = 0
  · subst whole
    simp only [readClock?, readHour, readMinute, readSecond, if_pos, List.nil_append,
      Option.bind_eq_bind, Option.bind_some]
    -- The seconds end the time of day: what follows is no point and no comma.
    split
    · exact absurd rfl (next _ rfl).right.left
    · exact absurd rfl (next _ rfl).right.right
    · exact dif_pos inRange
  · simp only [readClock?, readHour, readMinute, readSecond, if_neg whole, List.cons_append,
      readMicrosecond, Option.bind_eq_bind, Option.bind_some, Option.pure_def]
    rw [dif_pos inRange]

/-- Hours and minutes are read back with the sign that stood before them. -/
theorem readOffset?_fixedDigits (offset : Offset) :
    readOffset? (decide (offset.minutes < 0))
      (fixedDigits 2 (offset.minutes.natAbs / 60) ++
        ':' :: fixedDigits 2 (offset.minutes.natAbs % 60)) = some offset := by
  obtain ⟨minutes, inRange⟩ := offset
  have readHours := digits?_of_lt 2 (show minutes.natAbs / 60 < 100 by omega)
  have readMinutes := digits?_of_lt 2 (show minutes.natAbs % 60 < 100 by omega) []
  have whole : minutes.natAbs / 60 * 60 + minutes.natAbs % 60 = minutes.natAbs := by omega
  have signed : (if decide (minutes < 0) = true then -(minutes.natAbs : Int)
      else minutes.natAbs) = minutes := by
    by_cases negative : minutes < 0
    · rw [if_pos (decide_eq_true negative)]
      omega
    · rw [if_neg (by simpa using negative)]
      omega
  rw [List.append_nil] at readMinutes
  simp only [readOffset?, readHours, readMinutes, whole, signed, Option.bind_eq_bind,
    Option.bind_some]
  rw [dif_pos inRange, if_pos ⟨by omega, rfl⟩]

theorem readZone?_offsetText (offset : Option Offset) :
    readZone? (offsetText offset) = some offset := by
  cases offset with
  | none => rfl
  | some offset =>
      have read := readOffset?_fixedDigits offset
      rw [offsetText]
      by_cases zero : offset.minutes = 0
      · obtain ⟨minutes, inRange⟩ := offset
        subst zero
        rfl
      · rw [if_neg zero]
        by_cases negative : offset.minutes < 0
        · rw [decide_eq_true negative] at read
          simp only [if_pos negative, readZone?, read, Option.map_some]
        · rw [decide_eq_false negative] at read
          simp only [if_neg negative, readZone?, read, Option.map_some]

theorem isDigit_eq (c : Char) : Numeral.isDigit c = (digit? c).isSome := by
  rw [Numeral.isDigit, digit?]
  by_cases least : '0' ≤ c <;> by_cases most : c ≤ '9' <;> simp [least, most]

theorem signOf_digitCharacter (small : digit < 10) :
    Numeral.signOf (digitCharacter digit :: rest) = (false, digitCharacter digit :: rest) := by
  match digit, small with
  | 0, _ | 1, _ | 2, _ | 3, _ | 4, _ | 5, _ | 6, _ | 7, _ | 8, _ | 9, _ => rfl

/-- A year with a dash behind it is no number. -/
theorem ofNumeral?_fixedDigits :
    ofNumeral? (fixedDigits 4 number ++ '-' :: rest) = none := by
  have dash : NoDigitFirst ('-' :: rest) := by
    intro c first
    obtain rfl := Option.some.inj first
    decide
  obtain ⟨taken, dropped⟩ := takeWhile_fixedDigits 4 number dash
  have digits : Numeral.isDigit = fun c => (digit? c).isSome := funext isDigit_eq
  have unsigned : Numeral.signOf (fixedDigits 4 number ++ '-' :: rest) =
      (false, fixedDigits 4 number ++ '-' :: rest) := by
    rw [fixedDigits_succ]
    exact signOf_digitCharacter (Nat.mod_lt _ (by decide))
  rw [ofNumeral?]
  simp only [unsigned, digits, dropped]
  split <;> rfl

/-- Every character takes a byte at least. -/
theorem utf8ByteSize_ofList (text : List Char) :
    text.length ≤ (String.ofList text).utf8ByteSize := by
  induction text with
  | nil => exact Nat.zero_le _
  | cons c rest ih =>
      have parts : String.ofList (c :: rest) = String.singleton c ++ String.ofList rest := by
        rw [String.singleton_eq_ofList, ← String.ofList_append, List.singleton_append]
      rw [parts, String.utf8ByteSize_append, String.utf8ByteSize_singleton, List.length_cons]
      have positive := c.utf8Size_pos
      omega

/-- Writing a moment and reading the text gives the moment back. -/
theorem ofText_text (moment : Moment) : ofText moment.text = .ok moment := by
  have written : moment.text.toList = moment.characters := String.toList_ofList
  have long : ¬ moment.text.utf8ByteSize < 10 := by
    have length := utf8ByteSize_ofList moment.characters
    have count : 10 ≤ moment.characters.length := by
      simp only [characters, List.length_append, List.length_cons, fixedDigits_length]
      omega
    have size : moment.text.utf8ByteSize = (String.ofList moment.characters).utf8ByteSize := rfl
    omega
  rw [ofText, written, if_neg long]
  have clock := readClock?_fixedDigits moment.clock (noDigitFirst_offsetText moment.offset)
  simp only [characters, List.append_assoc, List.cons_append, ofNumeral?_fixedDigits,
    readDate_fixedDigits moment.hasDate, ok_bind]
  simp only [readTime?, true_or, if_pos, clock, readZone?_offsetText, Option.bind_eq_bind,
    Option.bind_some, Option.pure_def]
  exact dif_pos moment.hasDate

/-- Whether some characters are characters of their own and stand for no surrogate. -/
def Ordinary (run : List Char) : Prop :=
  ∀ c ∈ run, Text.isSurrogate c = false

theorem ordinary_cons {c : Char} :
    Ordinary (c :: rest) ↔ Text.isSurrogate c = false ∧ Ordinary rest :=
  List.forall_mem_cons

theorem ordinary_append {first second : List Char} :
    Ordinary (first ++ second) ↔ Ordinary first ∧ Ordinary second :=
  List.forall_mem_append

theorem ordinary_fixedDigits (width number : Nat) : Ordinary (fixedDigits width number) := by
  induction width generalizing number with
  | zero => exact List.forall_mem_nil _
  | succ width ih =>
      have digit : ∀ digit < 10, Text.isSurrogate (Char.ofNat (48 + digit)) = false := by decide
      rw [fixedDigits, ordinary_append, ordinary_cons]
      exact ⟨ih _, digit _ (Nat.mod_lt _ (by decide)), List.forall_mem_nil _⟩

theorem ordinary_offsetText (offset : Option Offset) : Ordinary (offsetText offset) := by
  cases offset with
  | none => exact List.forall_mem_nil _
  | some offset =>
      rw [offsetText]
      split
      · exact List.forall_mem_singleton.mpr (by decide)
      · refine ordinary_cons.mpr ⟨?_, ordinary_append.mpr ⟨ordinary_fixedDigits _ _,
          ordinary_cons.mpr ⟨by decide, ordinary_fixedDigits _ _⟩⟩⟩
        split <;> decide

/-- The text of a moment has a form in bytes. -/
theorem text_encodable (moment : Moment) : Text.isEncodable moment.text = true := by
  have fraction : Ordinary (if moment.clock.microsecond = 0 then []
      else '.' :: fixedDigits 6 moment.clock.microsecond) := by
    split
    · exact List.forall_mem_nil _
    · exact ordinary_cons.mpr ⟨by decide, ordinary_fixedDigits _ _⟩
  rw [Text.isEncodable_iff, text, String.toList_ofList]
  change Ordinary moment.characters
  simp only [characters, ordinary_append, ordinary_cons, ordinary_fixedDigits,
    ordinary_offsetText, fraction, true_and, and_true]
  decide

end Moment

end WorkItems
