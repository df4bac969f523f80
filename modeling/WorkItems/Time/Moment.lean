import WorkItems.Time.Calendar

namespace WorkItems

/-! Moments: a date and a time of day to the microsecond, with or without an offset from UTC. -/

/-- A date that the calendar has, in a year of four digits from 1 on. -/
def Calendar.HasDate (year month day : Nat) : Prop :=
  (1 ≤ year ∧ year ≤ 9999) ∧ 1 ≤ day ∧ day ≤ Calendar.daysInMonth year month

instance (year month day : Nat) : Decidable (Calendar.HasDate year month day) := by
  unfold Calendar.HasDate
  infer_instance

/-- A time of day. -/
structure Clock where
  hour : Nat
  minute : Nat
  second : Nat
  microsecond : Nat
  inRange : hour < 24 ∧ minute < 60 ∧ second < 60 ∧ microsecond < 1000000
deriving DecidableEq

/-- Minutes east of UTC, less than a day either way. -/
structure Offset where
  minutes : Int
  inRange : minutes.natAbs < 24 * 60
deriving DecidableEq

structure Moment where
  year : Nat
  month : Nat
  day : Nat
  clock : Clock
  offset : Option Offset
  hasDate : Calendar.HasDate year month day
deriving DecidableEq

def Offset.utc : Offset := ⟨0, by decide⟩

/-- The last digits of a number, with zeros in front where it has fewer. -/
def fixedDigits : Nat → Nat → List Char
  | 0, _ => []
  | width + 1, n => fixedDigits width (n / 10) ++ [Char.ofNat (48 + n % 10)]

namespace Moment

def offsetText : Option Offset → List Char
  | none => []
  | some offset =>
    if offset.minutes = 0 then ['Z']
    else
      let size := offset.minutes.natAbs
      (if offset.minutes < 0 then '-' else '+') ::
        (fixedDigits 2 (size / 60) ++ ':' :: fixedDigits 2 (size % 60))

/-- Date and time joined by `T`; microseconds only where there are any, and `Z` for UTC. -/
def characters (moment : Moment) : List Char :=
  let clock := moment.clock
  fixedDigits 4 moment.year ++ '-' :: fixedDigits 2 moment.month ++
    '-' :: fixedDigits 2 moment.day ++ 'T' :: fixedDigits 2 clock.hour ++
    ':' :: fixedDigits 2 clock.minute ++ ':' :: fixedDigits 2 clock.second ++
    (if clock.microsecond = 0 then [] else '.' :: fixedDigits 6 clock.microsecond) ++
    offsetText moment.offset

def text (moment : Moment) : String :=
  String.ofList moment.characters

/-- Microseconds from the start of 1970, as if a moment without an offset were in UTC. -/
def sinceEpoch (moment : Moment) : Int :=
  let days := Calendar.dayNumber moment.year moment.month moment.day
  let clock := moment.clock
  let minutes := days * 1440 + clock.hour * 60 + clock.minute -
    (moment.offset.elim 0 Offset.minutes)
  (minutes * 60 + clock.second) * 1000000 + clock.microsecond

end Moment

end WorkItems
