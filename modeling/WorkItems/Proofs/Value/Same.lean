import WorkItems.Proofs.Value.Parts

namespace WorkItems.Value

/-! Values that are the same. -/

variable {a b value : Value} {text : String}

theorem isText_iff : value.isText text = true ↔ value.asText? = some text := by
  rw [isText, beq_iff_eq]

theorem same_of_text (isText : a.asText? = some text) :
    a.same b = true ↔ b.asText? = some text := by
  cases a with
  | text | term =>
      cases isText
      exact isText_iff
  | null | bool | number | array | tuple | object | foreign => cases isText

theorem same_text : value.same (.text text) = true ↔ value.asText? = some text := by
  cases value with
  | text | term => exact (same_of_text rfl).trans eq_comm
  | null | bool | number | array | tuple | object | foreign =>
      exact iff_of_false Bool.false_ne_true nofun

end WorkItems.Value
