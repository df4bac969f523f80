import WorkItems.Proofs.Number.Amount
import WorkItems.Proofs.Number.Range

namespace WorkItems

/-! Whole numbers that a double can hold.

Rounding keeps an amount that 53 significant bits can hold.  So a whole number for which some double
stands is converted to a double that stands for it.
-/

namespace Double

variable {negative : Bool} {amount quotient denominator significand shift : Nat} {number : Int}

theorem roundQuotient_mul (positive : 0 < denominator) :
    roundQuotient (quotient * denominator) denominator = quotient := by
  rw [roundQuotient, Nat.mul_mod_left, Nat.mul_zero, Nat.mul_div_cancel quotient positive,
    if_pos positive]

/-- The last place that rounding keeps is not beyond that of the significand. -/
theorem shift_le (bits : significand < 2 ^ 53) :
    (significand * 2 ^ shift).log2 + 1 - 53 ≤ shift := by
  by_cases zero : significand * 2 ^ shift = 0
  · rw [zero, Nat.log2_zero]
    omega
  · have small : significand * 2 ^ shift < 2 ^ (53 + shift) := by
      rw [Nat.pow_add]
      exact Nat.mul_lt_mul_of_pos_right bits (Nat.two_pow_pos shift)
    have log := (Nat.log2_lt zero).mpr small
    omega

theorem signed_congr {other : Nat} (same : amount = other) (fits : Representable amount)
    (alsoFits : Representable other) :
    signed negative amount fits = signed negative other alsoFits := by
  subst same
  rfl

theorem ofUnits_exact (fits : Representable amount) :
    ofUnits negative amount 1 = signed negative amount fits := by
  have ⟨significand, shift, bits, most, same⟩ := fits
  have within : amount.log2 + 1 - 53 ≤ shift := by
    rw [same]
    exact shift_le bits
  generalize placed : amount.log2 + 1 - 53 = place at within
  obtain ⟨kept, written⟩ : ∃ kept, amount = kept * Nat.pow 2 place := by
    refine ⟨significand * 2 ^ (shift - place), ?_⟩
    have power : Nat.pow 2 shift = 2 ^ (shift - place) * Nat.pow 2 place :=
      (Nat.pow_sub_mul_pow 2 within).symm
    rw [same, power, Nat.mul_assoc]
  have positive : 0 < Nat.pow 2 place := Nat.two_pow_pos place
  have small : kept < Nat.pow 2 53 := by
    have below : amount < 2 ^ (53 + place) :=
      Nat.lt_of_lt_of_le Nat.lt_log2_self (Nat.pow_le_pow_right (by decide) (by omega))
    rw [written, Nat.pow_add] at below
    exact Nat.lt_of_mul_lt_mul_right below
  have rounded : roundQuotient amount (1 * Nat.pow 2 place) = kept := by
    rw [Nat.one_mul, written, roundQuotient_mul positive]
  have settled : roundQuotient amount (1 * Nat.pow 2 place) < Nat.pow 2 53 ∧ place ≤ 2045 := by
    rw [rounded]
    exact ⟨small, Nat.le_trans within most⟩
  simp only [ofUnits, Nat.div_one, placed]
  rw [dif_pos settled]
  exact signed_congr (by rw [rounded, written]) _ _

theorem place?_signed (fits : Representable amount) : (signed negative amount fits).place? =
    some (.at (if negative then -(amount : Int) else amount)) := by
  cases negative with
  | false => rfl
  | true =>
      by_cases zero : amount = 0
      · subst zero
        rfl
      · rw [signed, if_pos rfl, if_neg zero]
        rfl

theorem place?_ofInt (fits : Representable (number.natAbs * one)) :
    (ofInt number).place? = (Number.int number).place? := by
  rw [ofInt, ofUnits_exact fits, place?_signed, Number.place?]
  by_cases below : number < 0
  · have size : (number.natAbs : Int) = -number := Int.ofNat_natAbs_of_nonpos (Int.le_of_lt below)
    rw [decide_eq_true below, if_pos rfl, Int.natCast_mul, size, Int.neg_mul, Int.neg_neg]
  · have size : (number.natAbs : Int) = number := Int.natAbs_of_nonneg (Int.not_lt.mp below)
    rw [decide_eq_false below, if_neg Bool.false_ne_true, Int.natCast_mul, size]

/-- Whether some double stands for a whole number exactly. -/
def Exact (number : Int) : Prop :=
  ∃ double : Double, double.amount? = (Number.int number).amount?

theorem Exact.of_toInt {double : Double} (whole : double.toInt? = some number) : Exact number := by
  refine ⟨double, ?_⟩
  have converted := Number.amount?_eq (.double double)
  rw [Number.place?, place?_of_toInt whole, ← Number.amount?_eq] at converted
  exact converted

theorem Exact.representable (exact : Exact number) : Representable (number.natAbs * one) := by
  obtain ⟨double, sameAmount⟩ := exact
  have samePlace : double.place? = (Number.int number).place? := by
    have converted := Number.amount?_eq (.double double)
    rw [Number.amount?, sameAmount, Number.amount?_eq] at converted
    exact (Option.map_injective Place.amount_injective converted).symm
  cases double with
  | finite units fits =>
      have units_eq : units = number * one := Place.at.inj (Option.some.inj samePlace)
      rw [units_eq, Int.natAbs_mul, Int.natAbs_natCast] at fits
      exact fits
  | negativeZero =>
      have nothing : 0 = number * one := Place.at.inj (Option.some.inj samePlace)
      have zero : number.natAbs * one = 0 := by
        rw [← Int.natAbs_natCast one, ← Int.natAbs_mul, ← nothing, Int.natAbs_zero]
      rw [zero]
      exact representable_zero
  | infinity negative => cases negative <;> cases samePlace
  | nan mark => cases samePlace

theorem Exact.place?_ofInt (exact : Exact number) :
    (ofInt number).place? = (Number.int number).place? :=
  Double.place?_ofInt exact.representable

end Double

end WorkItems
