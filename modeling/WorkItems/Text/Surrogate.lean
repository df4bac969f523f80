import WorkItems.Text.Category

namespace WorkItems.Text

/-! Lone surrogates.

A text may have halves of surrogate pairs on their own among its code points.  They are no
characters, so each of them is held by the private-use character that lies `0x100000` above it.
Those 2048 characters, from U+10D800 to U+10DFFF, stand for nothing else: texts that have them
themselves are left out.  Texts with lone surrogates are compared and written by their code points,
and they have no form in bytes.
-/

/-- Whether a character stands for a lone surrogate. -/
def isSurrogate (c : Char) : Bool :=
  decide (0x10d800 ≤ c.toNat) && decide (c.toNat < 0x10e000)

/-- The code point that a character is, or stands for. -/
def codeOf (c : Char) : Nat :=
  if isSurrogate c then c.toNat - 0x100000 else c.toNat

/-- The character for a code point. -/
def ofCode (code : Nat) : Char :=
  if 0xd800 ≤ code ∧ code < 0xe000 then Char.ofNat (code + 0x100000) else Char.ofNat code

/-- Texts are in the order of their code points. -/
def precedes (first second : String) : Bool :=
  List.lex (first.toList.map codeOf) (second.toList.map codeOf) fun left right =>
    decide (left < right)

/-- Whether a text has a form in bytes. -/
def isEncodable (text : String) : Bool :=
  text.toList.all fun c => !isSurrogate c

end WorkItems.Text
