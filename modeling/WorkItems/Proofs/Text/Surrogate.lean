import WorkItems.Text.Surrogate

namespace WorkItems.Text

/-! Characters and the code points that they stand for.

No two characters stand for the same code point, and every code point has its character, apart from
those that are left out.
-/

variable {c other : Char} {code : Nat} {text : String}

theorem isSurrogate_iff : isSurrogate c = true ↔ 0x10d800 ≤ c.toNat ∧ c.toNat < 0x10e000 := by
  rw [isSurrogate, Bool.and_eq_true, decide_eq_true_eq, decide_eq_true_eq]

theorem codeOf_eq (c : Char) : codeOf c =
    if 0x10d800 ≤ c.toNat ∧ c.toNat < 0x10e000 then c.toNat - 0x100000 else c.toNat := by
  simp only [codeOf, isSurrogate_iff]

/-- Below the surrogates, characters are their code points. -/
theorem codeOf_of_low (low : c.toNat < 0xd800) : codeOf c = c.toNat := by
  rw [codeOf_eq, if_neg (by omega)]

theorem not_surrogateCode (c : Char) : ¬ (0xd800 ≤ c.toNat ∧ c.toNat < 0xe000) := by
  have valid : c.toNat < 0xd800 ∨ 0xdfff < c.toNat ∧ c.toNat < 0x110000 := c.valid
  omega

theorem codeOf_injective (same : codeOf c = codeOf other) : c = other := by
  have first := not_surrogateCode c
  have second := not_surrogateCode other
  refine Char.ext (UInt32.toNat_inj.mp (show c.toNat = other.toNat from ?_))
  rw [codeOf_eq, codeOf_eq] at same
  split at same <;> split at same <;> omega

theorem toNat_ofNat (valid : code.isValidChar) : (Char.ofNat code).toNat = code := by
  rw [Char.ofNat, dif_pos valid]
  rfl

theorem codeOf_ofCode (exists_ : code < 0x110000) (kept : code < 0x10d800 ∨ 0x10e000 ≤ code) :
    codeOf (ofCode code) = code := by
  by_cases surrogate : 0xd800 ≤ code ∧ code < 0xe000
  · have number : (Char.ofNat (code + 0x100000)).toNat = code + 0x100000 :=
      toNat_ofNat (.inr (by omega))
    rw [ofCode, if_pos surrogate, codeOf_eq, number, if_pos (by omega), Nat.add_sub_cancel]
  · have number : (Char.ofNat code).toNat = code := toNat_ofNat (by
      show code < 0xd800 ∨ 0xdfff < code ∧ code < 0x110000
      omega)
    rw [ofCode, if_neg surrogate, codeOf_eq, number, if_neg (by omega)]

/-- In a range that ends below the surrogates, code points are in the order of characters. -/
theorem codeOf_within_iff {first last : Char} (low : last.toNat < 0xd800) :
    (codeOf first ≤ codeOf c ∧ codeOf c ≤ codeOf last) ↔ first ≤ c ∧ c ≤ last := by
  simp only [Char.le_def, UInt32.le_iff_toNat_le]
  change _ ↔ first.toNat ≤ c.toNat ∧ c.toNat ≤ last.toNat
  rw [codeOf_of_low low]
  by_cases reached : c.toNat ≤ last.toNat
  · rw [codeOf_of_low (show c.toNat < 0xd800 by omega)]
    by_cases under : first.toNat < 0xd800
    · rw [codeOf_of_low under]
    · have above : 0xd800 ≤ codeOf first := by
        rw [codeOf_eq]
        split <;> omega
      omega
  · have above : last.toNat < codeOf c := by
      rw [codeOf_eq]
      split <;> omega
    omega

theorem precedes_iff {first second : String} : precedes first second = true ↔
    List.Lex (· < ·) (first.toList.map codeOf) (second.toList.map codeOf) := by
  rw [precedes, List.lex_eq_true_iff_lex]
  simp only [decide_eq_true_eq]

theorem not_precedes_iff {first second : String} : (!precedes second first) = true ↔
    ¬ List.Lex (· < ·) (second.toList.map codeOf) (first.toList.map codeOf) := by
  rw [Bool.not_eq_true', Bool.eq_false_iff, ne_eq, precedes_iff]

theorem precedes_trans (first second third : String) (left : (!precedes second first) = true)
    (right : (!precedes third second) = true) : (!precedes third first) = true :=
  not_precedes_iff.mpr (List.le_trans (not_precedes_iff.mp left) (not_precedes_iff.mp right))

theorem precedes_total (first second : String) :
    ((!precedes second first) || !precedes first second) = true := by
  rw [Bool.or_eq_true, not_precedes_iff, not_precedes_iff]
  exact List.le_total (first.toList.map codeOf) (second.toList.map codeOf)

/-- Different texts differ in their code points. -/
theorem precedes_of_ne {first second : String} (notAfter : (!precedes second first) = true)
    (differ : first ≠ second) : precedes first second = true := by
  rw [precedes_iff]
  refine Decidable.not_not.mp fun notBefore => differ ?_
  have same : first.toList.map codeOf = second.toList.map codeOf :=
    List.le_antisymm (not_precedes_iff.mp notAfter) notBefore
  exact String.toList_inj.mp ((List.map_inj_right fun _ _ => codeOf_injective).mp same)

theorem isEncodable_iff : isEncodable text = true ↔
    ∀ c ∈ text.toList, isSurrogate c = false := by
  simp [isEncodable]

theorem isEncodable_append {first second : String} :
    isEncodable (first ++ second) = (isEncodable first && isEncodable second) := by
  rw [isEncodable, isEncodable, isEncodable, String.toList_append, List.all_append]

theorem isEncodable_toString (number : Nat) : isEncodable (toString number) = true := by
  refine isEncodable_iff.mpr fun c among => ?_
  rw [Nat.toString_eq_repr, Nat.toList_repr] at among
  have digit : c.isDigit = true := Nat.isDigit_of_mem_toDigits (by decide) (by decide) among
  have low : c.toNat ≤ 57 := by
    rw [Char.isDigit, Bool.and_eq_true, decide_eq_true_eq, decide_eq_true_eq] at digit
    exact UInt32.le_iff_toNat_le.mp digit.right
  rw [Bool.eq_false_iff, ne_eq, isSurrogate_iff]
  omega

end WorkItems.Text
