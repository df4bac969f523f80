import WorkItems.Proofs.Number.Order

namespace WorkItems

/-! The range of doubles.

A whole number is rounded to a finite double as long as it is nearer to the greatest one than to
what would come after it.
-/

namespace Double

variable {negative : Bool} {amount numerator denominator limit : Nat} {number : Int}

/-- A quotient is rounded to a limit at most, unless it lies half of one beyond. -/
theorem roundQuotient_le (nearer : 2 * numerator < (2 * limit + 1) * denominator) :
    roundQuotient numerator denominator ≤ limit := by
  have parts : denominator * (numerator / denominator) + numerator % denominator = numerator :=
    Nat.div_add_mod numerator denominator
  have quotient : numerator / denominator ≤ limit := by
    refine Nat.le_of_not_lt fun beyond => ?_
    have product : denominator * (limit + 1) ≤ denominator * (numerator / denominator) :=
      Nat.mul_le_mul_left denominator (by omega)
    rw [Nat.mul_add, Nat.mul_one, Nat.mul_comm denominator limit] at product
    rw [Nat.add_mul, Nat.mul_assoc, Nat.one_mul] at nearer
    omega
  rw [roundQuotient]
  rcases Nat.lt_or_eq_of_le quotient with below | same
  · split
    · omega
    · split
      · omega
      · split <;> omega
  · have under : 2 * (numerator % denominator) < denominator := by
      rw [same, Nat.mul_comm denominator limit] at parts
      rw [Nat.add_mul, Nat.mul_assoc, Nat.one_mul] at nearer
      omega
    rw [if_pos under]
    exact quotient

theorem signed_isFinite (fits : Representable amount) :
    (signed negative amount fits).isFinite = true := by
  rw [signed]
  split
  · split <;> rfl
  · rfl

/-- What the last place of a significand counts. -/
def placeUnit (shift : Nat) : Nat := Nat.pow 2 shift

/-- What is rounded to the greatest double at most is finite. -/
theorem ofUnits_isFinite (inRange : 2 * numerator < (Nat.pow 2 54 - 1) * placeUnit 2045) :
    (ofUnits negative numerator 1).isFinite = true := by
  have bound : (Nat.pow 2 54 - 1) * placeUnit 2045 ≤ 2 * 2 ^ 2098 := by decide +kernel
  have shiftLimit : (numerator / 1).log2 + 1 - 53 ≤ 2045 := by
    rw [Nat.div_one]
    by_cases zero : numerator = 0
    · rw [zero, Nat.log2_zero]
      decide
    · have small := Nat.lt_of_mul_lt_mul_left (Nat.lt_of_lt_of_le inRange bound)
      have log := (Nat.log2_lt zero).mpr small
      omega
  rw [ofUnits]
  split
  · exact signed_isFinite _
  · rename_i large
    split
    · exact signed_isFinite _
    · rename_i atEnd
      -- The shift is the greatest one, and the significand is not rounded up beyond its bits.
      have shift : (numerator / 1).log2 + 1 - 53 = 2045 := by omega
      have same : Nat.pow 2 ((numerator / 1).log2 + 1 - 53) = placeUnit 2045 :=
        congrArg placeUnit shift
      have twice : 2 * (2 ^ 53 - 1) + 1 = Nat.pow 2 54 - 1 := by decide
      have significand : roundQuotient numerator (placeUnit 2045) ≤ 2 ^ 53 - 1 :=
        roundQuotient_le (by rw [twice]; exact inRange)
      refine absurd ⟨?_, shiftLimit⟩ large
      rw [same, Nat.one_mul]
      exact Nat.lt_of_le_of_lt significand (by decide)

/-- The whole numbers that are nearer to the greatest double than to the next power of two. -/
def rangeLimit : Nat := Nat.pow 2 1024 - Nat.pow 2 970

theorem ofInt_isFinite (inRange : number.natAbs < rangeLimit) : (ofInt number).isFinite = true := by
  have scaled : 2 * rangeLimit * one = (Nat.pow 2 54 - 1) * placeUnit 2045 := by decide +kernel
  refine ofUnits_isFinite ?_
  rw [← scaled, ← Nat.mul_assoc]
  exact Nat.mul_lt_mul_of_pos_right (Nat.mul_lt_mul_of_pos_left inRange (by decide)) one_pos

theorem signed_notNegative (fits : Representable amount) :
    (Number.double (signed false amount fits)).less (.int 0) = false := by
  have same : signed false amount fits = .finite amount (by simpa using fits) := rfl
  rw [same, Number.less]
  change decide ((amount : Int) < 0 * (one : Int)) = false
  rw [Int.zero_mul]
  exact decide_eq_false (Int.not_lt.mpr (Int.natCast_nonneg amount))

theorem ofUnits_notNegative (numerator denominator : Nat) :
    (Number.double (ofUnits false numerator denominator)).less (.int 0) = false := by
  rw [ofUnits]
  split
  · exact signed_notNegative _
  · split
    · exact signed_notNegative _
    · rfl

theorem ofInt_notNegative (atLeast : 0 ≤ number) :
    (Number.double (ofInt number)).less (.int 0) = false := by
  rw [ofInt, decide_eq_false (Int.not_lt.mpr atLeast)]
  exact ofUnits_notNegative _ _

theorem place?_of_toInt {double : Double} (whole : double.toInt? = some number) :
    double.place? = (Number.int number).place? := by
  cases double with
  | finite units fits =>
      rw [toInt?] at whole
      by_cases exact : units % (one : Int) = 0
      · rw [if_pos exact, Option.some.injEq] at whole
        rw [place?, Number.place?, ← whole, Int.ediv_mul_cancel (Int.dvd_of_emod_eq_zero exact)]
      · rw [if_neg exact] at whole
        cases whole
  | negativeZero =>
      cases whole
      rw [place?, Number.place?, Int.zero_mul]
  | infinity negative => cases whole
  | nan mark => cases whole

theorem isFinite_of_toInt {double : Double} (whole : double.toInt? = some number) :
    double.isFinite = true := by
  cases double with
  | finite units fits => rfl
  | negativeZero => rfl
  | infinity negative => cases whole
  | nan mark => cases whole

end Double

end WorkItems
