import WorkItems.Pattern.Token

namespace WorkItems.Pattern

/-! The patterns that token sequences denote.

Alternatives are sequences of items, an item is an atom with at most one quantifier, and an
anchor takes none.
-/

mutual

/-- Alternatives up to a closing token or the end. -/
def alternatives? : Nat → List PatternToken → Option (Pattern × List PatternToken)
  | 0, _ => none
  | steps + 1, tokens => do
    let (first, rest) ← items? steps tokens
    match rest with
    | .bar :: rest => do
      let (others, rest) ← alternatives? steps rest
      pure (.either first others, rest)
    | rest => pure (first, rest)

/-- Items up to a bar, a closing token or the end. -/
def items? : Nat → List PatternToken → Option (Pattern × List PatternToken)
  | 0, _ => none
  | steps + 1, tokens =>
    match tokens with
    | [] => some (.empty, [])
    | .bar :: rest => some (.empty, .bar :: rest)
    | .closing :: rest => some (.empty, .closing :: rest)
    | tokens => do
      let (atom, rest) ← atom? steps tokens
      match rest with
      | .quantifier least most :: rest =>
        match atom, rest with
        | .anchor _, _ => none
        | _, .quantifier _ _ :: _ => none
        | atom, rest => do
          let (others, rest) ← items? steps rest
          pure (.sequence (.repeated atom least most) others, rest)
      | rest => do
        let (others, rest) ← items? steps rest
        pure (.sequence atom others, rest)

def atom? : Nat → List PatternToken → Option (Pattern × List PatternToken)
  | 0, _ => none
  | steps + 1, tokens =>
    match tokens with
    | .anyCharacter :: rest => some (.anyCharacter, rest)
    | .oneOf negated parts :: rest => some (.oneOf negated parts, rest)
    | .anchor edge :: rest => some (.anchor edge, rest)
    | .opening kind :: rest => do
      let (body, rest) ← alternatives? steps rest
      match rest, kind with
      | .closing :: rest, .plain => pure (.sequence body .empty, rest)
      | .closing :: rest, .ahead negated => pure (.ahead negated body, rest)
      | _, _ => none
    | _ => none

end

/-- The pattern of a token sequence that is used up to its end. -/
def ofTokens? (tokens : List PatternToken) : Option Pattern :=
  match alternatives? (3 * tokens.length + 3) tokens with
  | some (pattern, []) => some pattern
  | _ => none

/-- The pattern that a text writes, when it is well formed. -/
def ofText? (text : List Char) : Option Pattern :=
  (PatternToken.ofText? text).bind ofTokens?

end WorkItems.Pattern
