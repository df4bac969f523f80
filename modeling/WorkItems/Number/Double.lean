namespace WorkItems

/-! Binary floating point numbers as the exact values they stand for.

Every finite double is a whole number of units of `2 ^ -1074`, so a finite double is that whole
number together with the evidence that 53 significant bits can hold it.  Comparison and rounding
are then integer arithmetic.  A number that is not a number carries a mark, because it equals
nothing but itself.
-/

/-- How many units make one. -/
def Double.one : Nat := Nat.pow 2 1074

/-- The amounts, in units, that a double can hold. -/
def Double.Representable (amount : Nat) : Prop :=
  ∃ significand shift : Nat,
    significand < Nat.pow 2 53 ∧ shift ≤ 2045 ∧ amount = significand * Nat.pow 2 shift

inductive Double where
  | finite (units : Int) (fits : Double.Representable units.natAbs)
  | negativeZero
  | infinity (negative : Bool)
  | nan (mark : Nat)
deriving DecidableEq

namespace Double

theorem representable_zero : Representable 0 := ⟨0, 0, by decide, by decide, by decide⟩

def zero : Double := .finite 0 representable_zero

instance : Inhabited Double := ⟨zero⟩

/-- The whole number nearest to a quotient; a half goes to the even neighbour. -/
def roundQuotient (numerator denominator : Nat) : Nat :=
  let quotient := numerator / denominator
  let twice := 2 * (numerator % denominator)
  if twice < denominator then quotient
  else if denominator < twice then quotient + 1
  else if quotient % 2 = 0 then quotient
  else quotient + 1

/-- The double of a given sign and amount. -/
def signed (negative : Bool) (amount : Nat) (fits : Representable amount) : Double :=
  if negative then
    if amount = 0 then .negativeZero
    else .finite (-(amount : Int)) (by simpa using fits)
  else .finite amount (by simpa using fits)

/-- The double nearest to a quotient of units, or infinity when it is out of range. -/
def ofUnits (negative : Bool) (numerator denominator : Nat) : Double :=
  let shift := (numerator / denominator).log2 + 1 - 53
  let significand := roundQuotient numerator (denominator * Nat.pow 2 shift)
  if small : significand < Nat.pow 2 53 ∧ shift ≤ 2045 then
    signed negative (significand * Nat.pow 2 shift)
      ⟨significand, shift, small.1, small.2, rfl⟩
  else if carried : shift + 1 ≤ 2045 then
    signed negative (Nat.pow 2 52 * Nat.pow 2 (shift + 1))
      ⟨Nat.pow 2 52, shift + 1, by decide, carried, rfl⟩
  else .infinity negative

/-- The double nearest to a whole number. -/
def ofInt (n : Int) : Double :=
  ofUnits (decide (n < 0)) (n.natAbs * one) 1

/-- The number of decimal digits of a natural number. -/
def digitCount (n : Nat) : Nat :=
  (Nat.toDigits 10 n).length

/-- The double nearest to `digits * 10 ^ exponent`.  Values far outside the range are settled by
their decimal position alone, so that no huge power is ever computed. -/
def ofDecimal (negative : Bool) (digits : Nat) (exponent : Int) : Double :=
  let position := exponent + digitCount digits
  if digits = 0 ∨ position < -330 then signed negative 0 representable_zero
  else if 310 < position then .infinity negative
  else if 0 ≤ exponent then ofUnits negative (digits * Nat.pow 10 exponent.toNat * one) 1
  else ofUnits negative (digits * one) (Nat.pow 10 (-exponent).toNat)

def isFinite : Double → Bool
  | .finite .. | .negativeZero => true
  | _ => false

/-- Both zeros count as zero. -/
def isZero : Double → Bool
  | .finite units _ => units == 0
  | .negativeZero => true
  | _ => false

/-- The whole number that a double is equal to, when there is one. -/
def toInt? : Double → Option Int
  | .finite units _ => if units % (one : Int) = 0 then some (units / (one : Int)) else none
  | .negativeZero => some 0
  | _ => none

end Double

end WorkItems
