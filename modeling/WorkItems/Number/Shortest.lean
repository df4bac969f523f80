import WorkItems.Number.Double

namespace WorkItems.Double

/-! The fewest decimal digits that read back as the same double.

The reals that round to a double form an interval around it, closed exactly when its significand
is even.  For one digit, two digits and so on, the two neighbours of the value on that decimal
grid are tested against the interval; the first grid with a hit wins, and of two hits the nearer,
or the even one when both are as near.
-/

/-- The reals that round to an amount, with every bound in quarters of a unit. -/
structure RoundingInterval where
  low : Nat
  value : Nat
  high : Nat
  closed : Bool

/-- The neighbours are one spacing away, except that the spacing below a power of two is half. -/
def roundingInterval (amount : Nat) : RoundingInterval :=
  let shift := amount.log2 + 1 - 53
  let significand := amount / Nat.pow 2 shift
  let above := Nat.pow 2 (shift + 1)
  let under := if significand = Nat.pow 2 52 ∧ 0 < shift then Nat.pow 2 shift else above
  ⟨4 * amount - under, 4 * amount, 4 * amount + above, significand % 2 == 0⟩

/-- A point of a decimal grid: `coefficient * 10 ^ exponent`. -/
structure DecimalPoint where
  coefficient : Nat
  exponent : Int

/-- The numerator and the denominator of a step of a decimal grid, in quarters of a unit. -/
def gridStep (exponent : Int) : Nat × Nat :=
  if 0 ≤ exponent then (Nat.pow 10 exponent.toNat * (4 * one), 1)
  else (4 * one, Nat.pow 10 (-exponent).toNat)

/-- The place of the leading decimal digit of a positive amount. -/
def leadingPlace (amount : Nat) : Int :=
  (digitCount (amount * Nat.pow 10 400 / one) : Int) - 401

/-- The neighbour on the grid of this exponent that lies in the interval and is nearest. -/
def gridPoint? (range : RoundingInterval) (exponent : Int) : Option DecimalPoint :=
  let (step, scale) := gridStep exponent
  let inside (k : Nat) : Bool :=
    let point := k * step
    if range.closed then
      decide (range.low * scale ≤ point) && decide (point ≤ range.high * scale)
    else
      decide (range.low * scale < point) && decide (point < range.high * scale)
  let below := range.value * scale / step
  let fromBelow := range.value * scale - below * step
  let fromAbove := (below + 1) * step - range.value * scale
  let nearerAbove :=
    decide (fromAbove < fromBelow) || (fromAbove == fromBelow && below % 2 == 1)
  match decide (0 < below) && inside below, inside (below + 1) with
  | true, true => some ⟨if nearerAbove then below + 1 else below, exponent⟩
  | true, false => some ⟨below, exponent⟩
  | false, true => some ⟨below + 1, exponent⟩
  | false, false => none

/-- Tries grids of `count`, `count + 1`, … digits while attempts remain. -/
def shortestFrom (range : RoundingInterval) (place : Int) : Nat → Nat → DecimalPoint
  | count, 0 => ⟨range.value * (gridStep (place - count)).2 / (gridStep (place - count)).1,
      place - count⟩
  | count, attempts + 1 =>
    match gridPoint? range (place + 1 - count) with
    | some point => point
    | none => shortestFrom range place (count + 1) attempts

/-- Drops the zeros at the end of a coefficient, at most as many as the first argument says. -/
def dropZeros : Nat → DecimalPoint → DecimalPoint
  | 0, point => point
  | attempts + 1, point =>
    if point.coefficient % 10 = 0 then
      dropZeros attempts ⟨point.coefficient / 10, point.exponent + 1⟩
    else point

/-- The shortest decimal that rounds to a positive amount; seventeen digits always suffice. -/
def shortest (amount : Nat) : DecimalPoint :=
  dropZeros 20 (shortestFrom (roundingInterval amount) (leadingPlace amount) 1 17)

end WorkItems.Double
