namespace WorkItems.Calendar

/-! The civil calendar, with leap years before and after every date. -/

def isLeap (year : Nat) : Bool :=
  year % 4 == 0 && (year % 100 != 0 || year % 400 == 0)

/-- The length of a month; no month outside of `1` to `12` has a day. -/
def daysInMonth (year month : Nat) : Nat :=
  if month = 2 then (if isLeap year then 29 else 28)
  else if month = 4 ∨ month = 6 ∨ month = 9 ∨ month = 11 then 30
  else if 1 ≤ month ∧ month ≤ 12 then 31
  else 0

/-- The days from the first day of 1970 to a date.  Years start in March here, so that the leap
day ends them. -/
def dayNumber (year month day : Nat) : Int :=
  let shifted : Int := if month ≤ 2 then year - 1 else year
  let century := shifted / 400
  let yearOfCentury := shifted % 400
  let monthFromMarch : Int := if 2 < month then month - 3 else month + 9
  let dayOfYear := (153 * monthFromMarch + 2) / 5 + day - 1
  century * 146097 + (yearOfCentury * 365 + yearOfCentury / 4 - yearOfCentury / 100 + dayOfYear)
    - 719468

/-- The date that lies so many days after the first day of 1970. -/
def dateOfDayNumber (number : Int) : Nat × Nat × Nat :=
  let shifted := number + 719468
  let century := shifted / 146097
  let dayOfCentury := shifted % 146097
  let yearOfCentury :=
    (dayOfCentury - dayOfCentury / 1460 + dayOfCentury / 36524 - dayOfCentury / 146096) / 365
  let dayOfYear :=
    dayOfCentury - (365 * yearOfCentury + yearOfCentury / 4 - yearOfCentury / 100)
  let monthFromMarch := (5 * dayOfYear + 2) / 153
  let day := dayOfYear - (153 * monthFromMarch + 2) / 5 + 1
  let month := if monthFromMarch < 10 then monthFromMarch + 3 else monthFromMarch - 9
  let year := yearOfCentury + century * 400 + (if month ≤ 2 then 1 else 0)
  (year.toNat, month.toNat, day.toNat)

end WorkItems.Calendar
