import WorkItems.Number.Double

namespace WorkItems.Numeral

/-! Numerals: numbers written with decimal digits, perhaps a point, and perhaps an exponent. -/

def isDigit (c : Char) : Bool :=
  decide ('0' ≤ c) && decide (c ≤ '9')

/-- The number that digits write. -/
def digitsValue (digits : List Char) : Nat :=
  digits.foldl (fun value c => value * 10 + (c.toNat - 48)) 0

/-- Whether a minus is in front, and what follows the sign. -/
def signOf : List Char → Bool × List Char
  | '-' :: rest => (true, rest)
  | '+' :: rest => (false, rest)
  | rest => (false, rest)

/-- The exponent after the digits of a number, or zero when there is none. -/
def exponentOf? : List Char → Option Int
  | [] => some 0
  | c :: rest =>
    if c = 'e' ∨ c = 'E' then
      let (negative, digits) := signOf rest
      if digits.isEmpty ∨ !digits.all isDigit then none
      else
        let size := (digitsValue digits : Int)
        some (if negative then -size else size)
    else none

/-- A number without its sign: digits with a point anywhere among them, and an exponent. -/
def toDouble? (negative : Bool) (text : List Char) : Option Double := do
  let whole := text.takeWhile isDigit
  let rest := text.dropWhile isDigit
  let (fraction, rest) := match rest with
    | '.' :: rest => (rest.takeWhile isDigit, rest.dropWhile isDigit)
    | rest => ([], rest)
  if whole.isEmpty && fraction.isEmpty then none
  else
    let exponent ← exponentOf? rest
    some (Double.ofDecimal negative (digitsValue (whole ++ fraction))
      (exponent - fraction.length))

end WorkItems.Numeral
