import WorkItems.Number.Basic

namespace WorkItems

/-! Numbers that agree.

Numbers agree when they take the same place on the line, and one that is not a number agrees with
its own occurrence only.  Agreement is an equivalence, and neither a comparison nor the test for
whole numbers tells numbers apart that agree.
-/

namespace Number

variable {a b c : Number}

theorem place?_eq_none_iff : a.place? = none ↔ ∃ mark, a = .double (.nan mark) := by
  cases a with
  | int value => exact iff_of_false nofun nofun
  | double value =>
      cases value with
      | infinity negative => cases negative <;> exact iff_of_false nofun nofun
      | finite | negativeZero => exact iff_of_false nofun nofun
      | nan mark => exact iff_of_true rfl ⟨mark, rfl⟩

theorem agrees_nan (mark : Nat) :
    (double (.nan mark)).agrees b = true ↔ b = .double (.nan mark) := by
  cases b with
  | int value => exact iff_of_false Bool.false_ne_true nofun
  | double value =>
      cases value with
      | nan other =>
          have compared :
              (double (.nan mark)).agrees (.double (.nan other)) = (mark == other) := rfl
          rw [compared, beq_iff_eq, eq_comm]
          simp
      | finite | negativeZero | infinity => exact iff_of_false Bool.false_ne_true nofun

theorem agrees_placed {place : Place} (found : a.place? = some place) :
    a.agrees b = true ↔ b.place? = some place := by
  unfold agrees
  split
  · cases found
  · rw [found]
    cases b.place? with
    | none => simp
    | some other =>
        change (place == other) = true ↔ _
        rw [beq_iff_eq, Option.some.injEq, eq_comm]

theorem agrees_iff : a.agrees b = true ↔
    (∃ mark, a = .double (.nan mark) ∧ b = .double (.nan mark)) ∨
      ∃ place, a.place? = some place ∧ b.place? = some place := by
  cases placed : a.place? with
  | none =>
      obtain ⟨mark, rfl⟩ := place?_eq_none_iff.mp placed
      rw [agrees_nan]
      simp
  | some place =>
      rw [agrees_placed placed]
      have isNumber : ∀ mark, a ≠ .double (.nan mark) := by
        rintro mark rfl
        cases placed
      simp [isNumber]

theorem agrees_refl (number : Number) : number.agrees number = true := by
  cases placed : number.place? with
  | none =>
      obtain ⟨mark, rfl⟩ := place?_eq_none_iff.mp placed
      exact (agrees_nan mark).mpr rfl
  | some place => exact (agrees_placed placed).mpr placed

theorem agrees_symm (agree : a.agrees b = true) : b.agrees a = true := by
  rw [agrees_iff] at agree ⊢
  rcases agree with ⟨mark, first, second⟩ | ⟨place, first, second⟩
  · exact .inl ⟨mark, second, first⟩
  · exact .inr ⟨place, second, first⟩

theorem place?_of_agrees (agree : a.agrees b = true) : a.place? = b.place? := by
  rcases agrees_iff.mp agree with ⟨mark, rfl, rfl⟩ | ⟨place, first, second⟩
  · rfl
  · rw [first, second]

theorem agrees_trans (first : a.agrees b = true) (second : b.agrees c = true) :
    a.agrees c = true := by
  rcases agrees_iff.mp first with ⟨mark, rfl, rfl⟩ | ⟨place, placed, _⟩
  · exact second
  · refine agrees_iff.mpr (.inr ⟨place, placed, ?_⟩)
    rw [← place?_of_agrees second, ← place?_of_agrees first, placed]

theorem less_of_agrees (agree : a.agrees b = true) (c : Number) :
    a.less c = b.less c ∧ c.less a = c.less b := by
  simp only [less, place?_of_agrees agree, and_self]

theorem isIntegral_iff :
    a.isIntegral = true ↔ ∃ whole : Int, a.place? = some (.at (whole * Double.one)) := by
  cases a with
  | int value => exact iff_of_true rfl ⟨value, rfl⟩
  | double value =>
      cases value with
      | finite units fits =>
          by_cases exact : units % (Double.one : Int) = 0
          · have whole := Int.ediv_mul_cancel (Int.dvd_of_emod_eq_zero exact)
            simp only [isIntegral, Double.toInt?, if_pos exact, Option.isSome_some, true_iff]
            exact ⟨units / (Double.one : Int), by rw [place?, Double.place?, whole]⟩
          · simp only [isIntegral, Double.toInt?, if_neg exact, Option.isSome_none,
              Bool.false_eq_true, false_iff, place?, Double.place?, Option.some.injEq,
              Place.at.injEq, not_exists]
            rintro whole rfl
            exact exact (Int.mul_emod_left whole _)
      | negativeZero =>
          refine iff_of_true rfl ⟨0, ?_⟩
          rw [Int.zero_mul]
          rfl
      | infinity negative => cases negative <;> exact iff_of_false Bool.false_ne_true nofun
      | nan mark => exact iff_of_false Bool.false_ne_true nofun

theorem isIntegral_of_agrees (agree : a.agrees b = true) : a.isIntegral = b.isIntegral := by
  rw [Bool.eq_iff_iff, isIntegral_iff, isIntegral_iff, place?_of_agrees agree]

end Number

end WorkItems
