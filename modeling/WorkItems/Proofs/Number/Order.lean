import WorkItems.Number.Basic

namespace WorkItems

/-! Whole numbers among all numbers.

A whole number takes the place of its units, so comparing whole numbers is comparing integers, and
a double that stands for a whole number can be put in its place.
-/

namespace Double

theorem one_pos : 0 < one := by decide +kernel

end Double

namespace Number

variable {a b : Int}

theorem less_int : (int a).less (int b) = decide (a < b) := by
  have positive : (0 : Int) < Double.one := Int.natCast_pos.mpr Double.one_pos
  rw [less, place?, place?]
  change decide (a * (Double.one : Int) < b * (Double.one : Int)) = decide (a < b)
  rw [decide_eq_decide]
  exact Int.mul_lt_mul_right positive

/-- Both numbers take a place, and the second is not before the first. -/
def AtMost (a b : Number) : Prop :=
  ∃ p q, a.place? = some p ∧ b.place? = some q ∧ q.precedes p = false

theorem less_eq_false_iff {a b : Number} :
    a.less b = false ↔ a.place? = none ∨ b.place? = none ∨ b.AtMost a := by
  rw [less, AtMost]
  cases a.place? <;> cases b.place? <;> simp

end Number

end WorkItems
