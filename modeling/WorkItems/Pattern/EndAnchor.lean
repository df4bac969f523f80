import WorkItems.Pattern.Grammar

namespace WorkItems.Pattern

/-! End anchors that mean the very end of a text.

A dollar sign also matches before a line break that ends the text.  Where that is not wanted, the
dollar signs that stand for anchors give way to another anchor before the pattern is read.
-/

/-- What the characters of a pattern text belong to, as far as dollar signs are concerned. -/
inductive Region where
  | plain
  | characterClass
deriving DecidableEq

/-- Replaces dollar signs outside of classes.  The first closing bracket ends a class, and an
escaped character never opens, ends or anchors anything. -/
def closeEndsFrom : Region → List Char → List Char
  | _, [] => []
  | _, ['\\'] => ['\\']
  | region, '\\' :: c :: rest => '\\' :: c :: closeEndsFrom region rest
  | .characterClass, c :: rest =>
    c :: closeEndsFrom (if c = ']' then .plain else .characterClass) rest
  | .plain, c :: rest =>
    if c = '$' then '\\' :: 'Z' :: closeEndsFrom .plain rest
    else c :: closeEndsFrom (if c = '[' then .characterClass else .plain) rest

def closeEnds (text : List Char) : List Char :=
  closeEndsFrom .plain text

/-- The pattern of a text whose dollar signs mean the very end. -/
def ofTextClosed? (text : List Char) : Option Pattern :=
  ofText? (closeEnds text)

end WorkItems.Pattern
