import WorkItems.Number.Basic
import WorkItems.Number.Numeral
import WorkItems.Time.Moment

namespace WorkItems

/-! Reading moments from text and from timestamps.

Every number, and a text that is one, counts seconds from the start of 1970, or milliseconds when
it is beyond twenty thousand million either way.
-/

/-- Why something is no moment. -/
inductive MomentFault where
  | notMoment
  | tooShort
  | badYear
  | badMonth
  | badDay
  | badSeparator
  | monthOutOfRange
  | dayOutOfRange
  | extraCharacters
  | tooEarly
  | tooLate
  | notANumber
  | yearZero
deriving DecidableEq

namespace MomentFault

def detail : MomentFault → String
  | .notMoment => ""
  | .tooShort => "input is too short"
  | .badYear => "invalid character in year"
  | .badMonth => "invalid character in month"
  | .badDay => "invalid character in day"
  | .badSeparator => "invalid date separator, expected \x60-\x60"
  | .monthOutOfRange => "month value is outside expected range of 1-12"
  | .dayOutOfRange => "day value is outside expected range"
  | .extraCharacters => "unexpected extra characters at the end of the input"
  | .tooEarly => "dates before 0000 are not supported as unix timestamps"
  | .tooLate => "dates after 9999 are not supported as unix timestamps"
  | .notANumber => "NaN values not permitted"
  | .yearZero => "year 0 is out of range"

/-- A text may also be a date alone, which the message for a text allows for. -/
def message (fromText : Bool) : MomentFault → String
  | .notMoment => "Input should be a valid datetime"
  | .yearZero => "Input should be a valid datetime, " ++ detail .yearZero
  | fault =>
    (if fromText then "Input should be a valid datetime or date, "
      else "Input should be a valid datetime, ") ++ fault.detail

end MomentFault

namespace Moment

/-- The time of day that so many seconds of a day and microseconds make. -/
def clockOf (second microsecond : Nat) (inDay : second < 86400 ∧ microsecond < 1000000) : Clock :=
  ⟨second / 3600, second / 60 % 60, second % 60, microsecond, by omega⟩

/-- The first second that counts, at the start of the year before the first, and the last one. -/
def firstSecond : Int := -62167219200

def lastSecond : Int := 253402300799

/-- So many microseconds after the start of 1970, in UTC. -/
def ofMicroseconds (count : Int) : Except MomentFault Moment :=
  let seconds := count / 1000000
  if seconds < firstSecond then .error .tooEarly
  else if lastSecond < seconds then .error .tooLate
  else
    let (year, month, day) := Calendar.dateOfDayNumber (seconds / 86400)
    let clock := clockOf (seconds % 86400).toNat (count % 1000000).toNat (by omega)
    if found : Calendar.HasDate year month day then
      .ok ⟨year, month, day, clock, some Offset.utc, found⟩
    else .error .yearZero

/-- The greatest size of a number that counts seconds. -/
def secondsLimit : Nat := 20000000000

/-- The microseconds of a second or of a millisecond. -/
def scaleOf (countsSeconds : Bool) : Nat :=
  if countsSeconds then 1000000 else 1000

def ofCount (count : Int) : Except MomentFault Moment :=
  ofMicroseconds (count * scaleOf (decide (count.natAbs ≤ secondsLimit)))

/-- The units of a finite double, and none otherwise. -/
def unitsOf : Double → Int
  | .finite units _ => units
  | _ => 0

/-- A fraction of one, given in units, times a scale as a whole number, where a half goes up.  The
fraction and the product are both rounded to doubles. -/
def scaledFraction (fraction : Nat) (scale : Nat) : Nat :=
  let factor := (unitsOf (Double.ofUnits false fraction 1)).toNat
  let product := (unitsOf (Double.ofUnits false (factor * scale) 1)).toNat
  (2 * product + Double.one) / (2 * Double.one)

/-- A double counts whole seconds or milliseconds downwards, and has its fraction on top. -/
def ofDouble : Double → Except MomentFault Moment
  | .nan _ => .error .notANumber
  | .infinity negative => .error (if negative then .tooEarly else .tooLate)
  | number =>
    let units := unitsOf number
    let scale := scaleOf (decide (units.natAbs ≤ secondsLimit * Double.one))
    let fraction := (units % (Double.one : Int)).toNat
    ofMicroseconds (units / (Double.one : Int) * scale + scaledFraction fraction scale)

def ofNumber : Number → Except MomentFault Moment
  | .double value => ofDouble value
  | .int value =>
    if value.natAbs < Nat.pow 2 63 then ofCount value
    else if (Double.ofInt value).isFinite then ofDouble (Double.ofInt value)
    else .error .notMoment

def digit? (c : Char) : Option Nat :=
  if '0' ≤ c ∧ c ≤ '9' then some (c.toNat - 48) else none

/-- Exactly so many digits at the front. -/
def digits? : Nat → List Char → Option (Nat × List Char)
  | 0, rest => some (0, rest)
  | _ + 1, [] => none
  | width + 1, c :: rest => do
    let high ← digit? c
    let (low, rest) ← digits? width rest
    pure (high * Nat.pow 10 width + low, rest)

structure Date where
  year : Nat
  month : Nat
  day : Nat

/-- A date at the front of a text; the first thing wrong in reading order counts. -/
def readDate (text : List Char) : Except MomentFault (Date × List Char) :=
  match digits? 4 text with
  | none => .error .badYear
  | some (year, rest) =>
    match rest with
    | '-' :: rest =>
      match digits? 2 rest with
      | none => .error .badMonth
      | some (month, rest) =>
        match rest with
        | '-' :: rest =>
          match digits? 2 rest with
          | none => .error .badDay
          | some (day, rest) =>
            if month < 1 ∨ 12 < month then .error .monthOutOfRange
            else if day < 1 ∨ Calendar.daysInMonth year month < day then .error .dayOutOfRange
            else .ok (⟨year, month, day⟩, rest)
        | _ => .error .badSeparator
    | _ => .error .badSeparator

/-- A fraction of a second in microseconds; digits past the sixth are dropped. -/
def readFraction? (rest : List Char) : Option (Nat × List Char) :=
  let digits := rest.takeWhile fun c => (digit? c).isSome
  if digits.isEmpty then none
  else
    (digits? 6 (digits.take 6 ++ List.replicate (6 - digits.length) '0')).map fun found =>
      (found.1, rest.dropWhile fun c => (digit? c).isSome)

def readClock? (text : List Char) : Option (Clock × List Char) := do
  let (hour, rest) ← digits? 2 text
  match rest with
  | ':' :: rest => do
    let (minute, rest) ← digits? 2 rest
    let (second, microsecond, rest) ←
      match rest with
      | ':' :: rest => do
        let (second, rest) ← digits? 2 rest
        match rest with
        | '.' :: rest => do
          let (microsecond, rest) ← readFraction? rest
          pure (second, microsecond, rest)
        | ',' :: rest => do
          let (microsecond, rest) ← readFraction? rest
          pure (second, microsecond, rest)
        | rest => pure (second, 0, rest)
      | rest => pure (0, 0, rest)
    if found : hour < 24 ∧ minute < 60 ∧ second < 60 ∧ microsecond < 1000000 then
      pure (⟨hour, minute, second, microsecond, found⟩, rest)
    else none
  | _ => none

/-- Hours and minutes, with or without a colon between them. -/
def readOffset? (negative : Bool) (text : List Char) : Option Offset := do
  let (hours, rest) ← digits? 2 text
  let (minutes, rest) ← digits? 2 (match rest with
    | ':' :: rest => rest
    | rest => rest)
  let size : Int := (hours * 60 + minutes : Nat)
  let signed := if negative then -size else size
  if found : signed.natAbs < 24 * 60 then
    if minutes < 60 ∧ rest.isEmpty then some ⟨signed, found⟩ else none
  else none

/-- What may follow the time of day up to the end of the text. -/
def readZone? : List Char → Option (Option Offset)
  | [] => some none
  | ['Z'] | ['z'] => some (some Offset.utc)
  | '+' :: rest => (readOffset? false rest).map some
  | '-' :: rest => (readOffset? true rest).map some
  | '\u2212' :: rest => (readOffset? true rest).map some
  | _ => none

/-- The time of day and the offset after a date. -/
def readTime? : List Char → Option (Clock × Option Offset)
  | c :: rest =>
    if c = 'T' ∨ c = 't' ∨ c = ' ' ∨ c = '_' then do
      let (clock, rest) ← readClock? rest
      let offset ← readZone? rest
      pure (clock, offset)
    else none
  | [] => none

def midnight : Clock := ⟨0, 0, 0, 0, by decide⟩

def ofDate (date : Date) (clock : Clock) (offset : Option Offset) : Except MomentFault Moment :=
  if found : Calendar.HasDate date.year date.month date.day then
    .ok ⟨date.year, date.month, date.day, clock, offset, found⟩
  else .error .yearZero

/-- The moment that a number in a text stands for, when there is such a number and it is not too
large to count.  A number with a point may have an exponent and need not have digits before the
point, and is no number at all when it is out of range. -/
def ofNumeral? (text : List Char) : Option (Except MomentFault Moment) :=
  let (negative, numeral) := Numeral.signOf text
  let whole := numeral.takeWhile Numeral.isDigit
  let size := Numeral.digitsValue whole
  if Nat.pow 2 63 ≤ size then none
  else
    match numeral.dropWhile Numeral.isDigit with
    | [] => if whole.isEmpty then none else some (ofCount (if negative then -size else size))
    | '.' :: _ => do
      match ofDouble (← Numeral.toDouble? negative numeral) with
      | .error .tooEarly | .error .tooLate => none
      | outcome => some outcome
    | _ => none

/-- A number, a date with a time of day, or a date alone. -/
def ofText (text : String) : Except MomentFault Moment :=
  let characters := text.toList
  match ofNumeral? characters with
  | some found => found
  | none =>
    if text.utf8ByteSize < 10 then .error .tooShort
    else do
      let (date, rest) ← readDate characters
      match readTime? rest with
      | some (clock, offset) => ofDate date clock offset
      | none => if rest.isEmpty then ofDate date midnight none else .error .extraCharacters

end Moment

end WorkItems
