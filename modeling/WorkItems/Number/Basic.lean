import WorkItems.Number.Double

namespace WorkItems

/-! Numbers, whole or floating.

Both kinds are compared by the place they take on one line, so that a whole number and a double
compare exactly whatever their size.  A number that is not a number takes no place.
-/

inductive Number where
  | int (value : Int)
  | double (value : Double)
deriving DecidableEq, Inhabited

/-- A place on the line of numbers, in units of `2 ^ -1074`. -/
inductive Place where
  | below
  | at (units : Int)
  | above
deriving DecidableEq

namespace Place

def precedes : Place → Place → Bool
  | .below, .below => false
  | .below, _ => true
  | .at a, .at b => decide (a < b)
  | .at _, .above => true
  | _, _ => false

end Place

def Double.place? : Double → Option Place
  | .finite units _ => some (.at units)
  | .negativeZero => some (.at 0)
  | .infinity true => some .below
  | .infinity false => some .above
  | .nan _ => none

namespace Number

def place? : Number → Option Place
  | .int value => some (.at (value * Double.one))
  | .double value => value.place?

/-- Strict order; a number that is not a number is below nothing and above nothing. -/
def less (a b : Number) : Bool :=
  match a.place?, b.place? with
  | some p, some q => p.precedes q
  | _, _ => false

/-- Equality of value: `3` and `3.0` agree, and so do the two zeros. -/
def agrees (a b : Number) : Bool :=
  match a, b with
  | .double (.nan m), .double (.nan n) => m == n
  | _, _ =>
    match a.place?, b.place? with
    | some p, some q => p == q
    | _, _ => false

/-- Whether the value is a whole number. -/
def isIntegral : Number → Bool
  | .int _ => true
  | .double value => value.toInt?.isSome

def isZero : Number → Bool
  | .int value => value == 0
  | .double value => value.isZero

end Number

end WorkItems
