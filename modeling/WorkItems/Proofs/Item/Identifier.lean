import WorkItems.Proofs.Item.Fit
import WorkItems.Proofs.Ulid

namespace WorkItems

/-! Identifiers that are made.

An identifier is a word of letters, digits, underscores and hyphens.  The text of a number has
26 digits, all of them such characters, so it is an identifier whatever the number.
-/

open Pattern Schema

theorem identifierClass_encodable {c : Char} (inside : inClass identifierClass c = true) :
    Text.isSurrogate c = false := by
  have low : ∀ part ∈ identifierClass, part.accepts c = true → Text.codeOf c < 128 := by
    simp only [identifierClass, List.forall_mem_cons, ClassPart.accepts, Bool.and_eq_true,
      decide_eq_true_eq]
    exact ⟨fun within => Nat.lt_of_le_of_lt within.right (by decide),
      fun within => Nat.lt_of_le_of_lt within.right (by decide),
      fun within => Nat.lt_of_le_of_lt within.right (by decide),
      fun within => Nat.lt_of_le_of_lt within.right (by decide),
      fun within => Nat.lt_of_le_of_lt within.right (by decide), List.forall_mem_nil _⟩
  obtain ⟨part, among, accepts⟩ := List.any_eq_true.mp inside
  have code := low part among accepts
  rw [Text.codeOf_eq] at code
  rw [← Bool.not_eq_true, Text.isSurrogate_iff]
  intro surrogate
  rw [if_pos surrogate] at code
  omega

theorem Forms.identifier_accepts {text : String} (nonempty : text.toList ≠ [])
    (each : ∀ c ∈ text.toList, inClass identifierClass c = true) :
    Forms.identifier.Accepts text where
  encodable _ := Text.isEncodable_iff.mpr fun c among =>
    identifierClass_encodable (each c among)
  atLeast := by
    rw [← String.length_toList]
    exact List.length_pos_iff.mpr nonempty
  atMost := nofun
  matched := by
    intro written given
    obtain rfl : idPattern = written := Option.some.inj given
    rw [formPattern_identifier]
    exact word_foundIn.mpr ⟨nonempty, each⟩

namespace Ulid

theorem text_accepted (n : Nat) : Forms.identifier.Accepts (text n) := by
  have ofAlphabet : ∀ c ∈ alphabet, inClass identifierClass c = true :=
    List.all_eq_true.mp rfl
  refine Forms.identifier_accepts ?_ fun c among => ?_
  · rw [text, String.toList_ofList, ← List.length_pos_iff, digits_length]
    decide
  · rw [text, String.toList_ofList] at among
    exact ofAlphabet c (digits_mem c among)

end Ulid

end WorkItems
