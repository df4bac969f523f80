import WorkItems.Number.Basic
import WorkItems.Number.Shortest

namespace WorkItems

/-! The written form of numbers. -/

/-- How doubles are written: which leading places are positional, and the names of the values
that have no digits. -/
structure DoubleSpelling where
  positionalFrom : Int
  positionalBelow : Int
  notANumber : String
  infinite : String

namespace DoubleSpelling

/-- Numbers are positional from `0.0001` up to below `10 ^ 16`. -/
def plain : DoubleSpelling := ⟨-4, 16, "nan", "inf"⟩

/-- The same digits, with the names that JSON readers know. -/
def json : DoubleSpelling := ⟨-4, 16, "NaN", "Infinity"⟩

/-- An exponent has a sign and at least two digits. -/
def exponentText (exponent : Int) : String :=
  let digits := toString exponent.natAbs
  let padded := if digits.length < 2 then "0" ++ digits else digits
  (if exponent < 0 then "e-" else "e+") ++ padded

/-- Digits whose first one stands at a given place; a point always shows that it is a double. -/
def digitsText (style : DoubleSpelling) (digits : List Char) (place : Int) : String :=
  if style.positionalFrom ≤ place ∧ place < style.positionalBelow then
    if place < 0 then
      "0." ++ String.ofList (List.replicate (-place - 1).toNat '0' ++ digits)
    else
      let whole := place.toNat + 1
      let front := digits.take whole ++ List.replicate (whole - digits.length) '0'
      let back := if digits.length ≤ whole then ['0'] else digits.drop whole
      String.ofList (front ++ '.' :: back)
  else
    let back := digits.drop 1
    String.ofList (digits.take 1 ++ if back.isEmpty then [] else '.' :: back)
      ++ exponentText place

/-- The shortest digits of a positive amount, laid out. -/
def amountText (style : DoubleSpelling) (amount : Nat) : String :=
  let point := Double.shortest amount
  let digits := Nat.toDigits 10 point.coefficient
  style.digitsText digits (point.exponent + digits.length - 1)

def text (style : DoubleSpelling) : Double → String
  | .finite units _ =>
    if units = 0 then "0.0"
    else (if units < 0 then "-" else "") ++ style.amountText units.natAbs
  | .negativeZero => "-0.0"
  | .infinity negative => (if negative then "-" else "") ++ style.infinite
  | .nan _ => style.notANumber

end DoubleSpelling

def Number.text (style : DoubleSpelling) : Number → String
  | .int value => toString value
  | .double value => style.text value

end WorkItems
