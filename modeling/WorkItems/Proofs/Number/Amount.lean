import Mathlib.Algebra.Order.Field.Rat
import Mathlib.Order.WithBot
import WorkItems.Proofs.Number.Agreement
import WorkItems.Proofs.Number.Order

namespace WorkItems

/-! The amounts that numbers stand for.

A whole number and a finite double stand for a rational number, the infinities for the ends of the
line, and what is not a number for nothing.  The place of a number is its amount in units, so
numbers agree exactly when they stand for the same amount.
-/

/-- A rational number, or an end of the line. -/
abbrev Amount := WithBot (WithTop ℚ)

namespace Amount

def rational (value : ℚ) : Amount :=
  (value : WithTop ℚ)

def ofUnits (units : Int) : Amount :=
  rational (units / Double.one)

theorem rational_injective : Function.Injective rational := by
  intro first second same
  exact WithTop.coe_inj.mp (WithBot.coe_inj.mp same)

end Amount

def Double.amount? : Double → Option Amount
  | .finite units _ => some (.ofUnits units)
  | .negativeZero => some (.rational 0)
  | .infinity true => some ⊥
  | .infinity false => some ⊤
  | .nan _ => none

def Number.amount? : Number → Option Amount
  | .int value => some (.rational value)
  | .double value => value.amount?

namespace Place

def amount : Place → Amount
  | .below => ⊥
  | .at units => .ofUnits units
  | .above => ⊤

theorem amount_injective : Function.Injective amount := by
  have one : (Double.one : ℚ) ≠ 0 := Nat.cast_ne_zero.mpr Double.one_pos.ne'
  have ends (units : Int) : Amount.ofUnits units ≠ ⊥ ∧ Amount.ofUnits units ≠ ⊤ :=
    ⟨WithBot.coe_ne_bot, fun same => WithTop.coe_ne_top (WithBot.coe_inj.mp same)⟩
  intro first second same
  cases first with
  | «at» units =>
      cases second with
      | «at» others =>
          have quotients := Amount.rational_injective same
          rw [div_left_inj' one, Rat.intCast_inj] at quotients
          rw [quotients]
      | below => exact absurd same (ends units).left
      | above => exact absurd same (ends units).right
  | below =>
      cases second with
      | below => rfl
      | «at» others => exact absurd same.symm (ends others).left
      | above => exact absurd same WithBot.bot_ne_coe
  | above =>
      cases second with
      | above => rfl
      | «at» others => exact absurd same.symm (ends others).right
      | below => exact absurd same.symm WithBot.bot_ne_coe

end Place

namespace Number

variable {a b : Number} {amount : Amount}

theorem amount?_eq (number : Number) : number.amount? = number.place?.map Place.amount := by
  have one : (Double.one : ℚ) ≠ 0 := Nat.cast_ne_zero.mpr Double.one_pos.ne'
  cases number with
  | int value =>
      have whole : (value : ℚ) = (value * Double.one : Int) / Double.one := by
        rw [Int.cast_mul, Int.cast_natCast, mul_div_cancel_right₀ _ one]
      rw [amount?, whole]
      rfl
  | double value =>
      cases value with
      | finite units fits => rfl
      | negativeZero =>
          have zero : (0 : ℚ) = (0 : Int) / Double.one := by rw [Int.cast_zero, zero_div]
          rw [amount?, Double.amount?, zero]
          rfl
      | infinity negative => cases negative <;> rfl
      | nan mark => rfl

theorem agrees_iff_amount (counted : a.amount? = some amount) :
    a.agrees b = true ↔ b.amount? = some amount := by
  rw [amount?_eq, Option.map_eq_some_iff] at counted
  obtain ⟨place, found, rfl⟩ := counted
  rw [agrees_placed found, amount?_eq, Option.map_eq_some_iff]
  constructor
  · intro same
    exact ⟨place, same, rfl⟩
  · rintro ⟨other, same, sameAmount⟩
    rw [same, Place.amount_injective sameAmount]

end Number

end WorkItems
