import WorkItems.Proofs.Pattern.ClosedTokens
import WorkItems.Proofs.Pattern.Matching

namespace WorkItems.Pattern

/-! Patterns whose dollar signs are closed.

The closed text of a pattern reads as the same pattern with other end anchors, and that pattern is
found where the pattern of the text occurs, were each of its dollar signs the very end.
-/

variable {pattern : Pattern} {start stop : Cursor} {dollar : Cursor → Prop}
  {tokens : List PatternToken} {steps : Nat} {text : String}

/-- The pattern whose dollar signs mean the very end of a text. -/
def closed : Pattern → Pattern
  | .anchor .lastLineEnd => .anchor .textEnd
  | .sequence first second => .sequence first.closed second.closed
  | .either first second => .either first.closed second.closed
  | .repeated body least most => .repeated body.closed least most
  | .ahead negated body => .ahead negated body.closed
  | pattern => pattern

/-- No dollar sign is left to interpret. -/
theorem reads_closed_iff :
    pattern.closed.Reads dollar start stop ↔ pattern.Reads textEnd start stop := by
  induction pattern generalizing start stop with
  | empty | anyCharacter | oneOf => exact Iff.rfl
  | anchor edge =>
      cases edge with
      | lastLineEnd => simp [closed, Reads, Anchor.Holds, Anchor.holds, textEnd]
      | textStart | textEnd | wordEdge => exact Iff.rfl
  | sequence first second firstReads secondReads =>
      simp only [closed, Reads, firstReads, secondReads]
  | either first second firstReads secondReads =>
      simp only [closed, Reads, firstReads, secondReads]
  | repeated body least most ih =>
      simp only [closed, Reads, steps_congr fun start stop => ih]
  | ahead negated body ih => simp only [closed, Reads, ih]

theorem closed_foundIn : pattern.closed.foundIn text = true ↔ pattern.Occurs textEnd text := by
  simp only [foundIn_iff, Occurs, reads_closed_iff]

/-- What reading closed tokens leads to, given what reading the tokens leads to. -/
def closedReading (found : Pattern × List PatternToken) : Pattern × List PatternToken :=
  (found.1.closed, found.2.map .closed)

theorem alternatives?_closed
    (items : ∀ tokens, items? steps (tokens.map .closed) = (items? steps tokens).map closedReading)
    (alternatives : ∀ tokens, alternatives? steps (tokens.map .closed) =
      (alternatives? steps tokens).map closedReading) :
    alternatives? (steps + 1) (tokens.map .closed) =
      (alternatives? (steps + 1) tokens).map closedReading := by
  rw [alternatives?, alternatives?, items]
  cases items? steps tokens with
  | none => rfl
  | some found =>
      obtain ⟨first, rest⟩ := found
      cases rest with
      | nil => rfl
      | cons token rest =>
          cases token with
          | bar =>
              have others := alternatives rest
              simp only [closedReading, List.map_cons, PatternToken.closed, Option.map_some,
                Option.bind_eq_bind, Option.bind_some, others]
              cases alternatives? steps rest <;> rfl
          | anchor edge => cases edge <;> rfl
          | _ => rfl

theorem atom?_closed
    (alternatives : ∀ tokens, alternatives? steps (tokens.map .closed) =
      (alternatives? steps tokens).map closedReading) :
    atom? (steps + 1) (tokens.map .closed) = (atom? (steps + 1) tokens).map closedReading := by
  cases tokens with
  | nil => rfl
  | cons token rest =>
      cases token with
      | anchor edge => cases edge <;> rfl
      | opening kind =>
          have body := alternatives rest
          simp only [atom?, List.map_cons, PatternToken.closed, body, Option.bind_eq_bind]
          cases alternatives? steps rest with
          | none => rfl
          | some found =>
              obtain ⟨pattern, rest⟩ := found
              cases rest with
              | nil => cases kind <;> rfl
              | cons token rest =>
                  cases token with
                  | anchor edge => cases edge <;> cases kind <;> rfl
                  | _ => cases kind <;> rfl
      | _ => rfl

/-- How items go on after an atom, with a quantifier or without one. -/
def itemsAfter? (steps : Nat) : Pattern × List PatternToken → Option (Pattern × List PatternToken)
  | (atom, rest) =>
    match rest with
    | .quantifier least most :: rest =>
      match atom, rest with
      | .anchor _, _ => none
      | _, .quantifier _ _ :: _ => none
      | atom, rest => do
        let (others, rest) ← items? steps rest
        pure (.sequence (.repeated atom least most) others, rest)
    | rest => do
      let (others, rest) ← items? steps rest
      pure (.sequence atom others, rest)

theorem items?_atom {token : PatternToken} (notBar : token ≠ .bar) (notClosing : token ≠ .closing) :
    items? (steps + 1) (token :: tokens) =
      (atom? steps (token :: tokens)).bind (itemsAfter? steps) := by
  rw [items?]
  · rfl
  · nofun
  · rintro rest ⟨⟩
    exact notBar rfl
  · rintro rest ⟨⟩
    exact notClosing rfl

theorem itemsAfter?_closed
    (items : ∀ tokens, items? steps (tokens.map .closed) = (items? steps tokens).map closedReading)
    (found : Pattern × List PatternToken) :
    itemsAfter? steps (closedReading found) = (itemsAfter? steps found).map closedReading := by
  obtain ⟨atom, rest⟩ := found
  have followed (first : Pattern) (rest : List PatternToken) :
      ((items? steps (rest.map .closed)).bind fun others =>
        some (Pattern.sequence first.closed others.1, others.2)) =
      ((items? steps rest).bind fun others =>
        some (Pattern.sequence first others.1, others.2)).map closedReading := by
    rw [items]
    cases items? steps rest <;> rfl
  cases rest with
  | nil => exact followed atom []
  | cons token rest =>
      cases token with
      | quantifier least most =>
          cases atom with
          | anchor edge => cases edge <;> rfl
          | _ =>
              cases rest with
              | nil => exact followed (.repeated _ least most) []
              | cons token rest =>
                  cases token with
                  | quantifier => rfl
                  | anchor edge =>
                      cases edge <;> exact followed (.repeated _ least most) (_ :: rest)
                  | _ => exact followed (.repeated _ least most) (_ :: rest)
      | anchor edge => cases edge <;> exact followed atom (_ :: rest)
      | _ => exact followed atom (_ :: rest)

theorem items?_closed
    (atom : ∀ tokens, atom? steps (tokens.map .closed) = (atom? steps tokens).map closedReading)
    (items : ∀ tokens, items? steps (tokens.map .closed) =
      (items? steps tokens).map closedReading) :
    items? (steps + 1) (tokens.map .closed) = (items? (steps + 1) tokens).map closedReading := by
  have step {token : PatternToken} {tokens : List PatternToken} (notBar : token ≠ .bar)
      (notClosing : token ≠ .closing) (notBar' : token.closed ≠ .bar)
      (notClosing' : token.closed ≠ .closing) :
      items? (steps + 1) ((token :: tokens).map .closed) =
        (items? (steps + 1) (token :: tokens)).map closedReading := by
    have read := atom (token :: tokens)
    rw [List.map_cons] at read ⊢
    rw [items?_atom notBar notClosing, items?_atom notBar' notClosing', read]
    cases atom? steps (token :: tokens) with
    | none => rfl
    | some found => exact itemsAfter?_closed items found
  cases tokens with
  | nil => rfl
  | cons token tokens =>
      cases token with
      | bar => rfl
      | closing => rfl
      | anchor edge => cases edge <;> exact step nofun nofun nofun nofun
      | _ => exact step nofun nofun nofun nofun

theorem grammar_closed (steps : Nat) :
    (∀ tokens, alternatives? steps (tokens.map .closed) =
      (alternatives? steps tokens).map closedReading) ∧
    (∀ tokens, items? steps (tokens.map .closed) = (items? steps tokens).map closedReading) ∧
    (∀ tokens, atom? steps (tokens.map .closed) = (atom? steps tokens).map closedReading) := by
  induction steps with
  | zero => exact ⟨fun _ => rfl, fun _ => rfl, fun _ => rfl⟩
  | succ steps ih =>
      obtain ⟨alternatives, items, atom⟩ := ih
      exact ⟨fun _ => alternatives?_closed items alternatives, fun _ => items?_closed atom items,
        fun _ => atom?_closed alternatives⟩

theorem ofTokens?_closed : ofTokens? (tokens.map .closed) = (ofTokens? tokens).map closed := by
  rw [ofTokens?, ofTokens?, List.length_map, (grammar_closed _).1]
  cases alternatives? (3 * tokens.length + 3) tokens with
  | none => rfl
  | some found =>
      obtain ⟨pattern, rest⟩ := found
      cases rest <;> rfl

/-- A pattern whose classes do not start with a closing bracket still compiles when its end
anchors are rewritten, and it is then found where the pattern occurs with each of them read as the
very end.  Nothing but its end anchors is rewritten: all other tokens stay what they are, and a
text without end anchors stays the same text. -/
theorem compiled_finds_iff {written : String} {pattern : Pattern}
    (compiles : ofText? written.toList = some pattern)
    (plain : PatternToken.PlainClasses written.toList) :
    (∃ compiled, ofTextClosed? written.toList = some compiled ∧
      ∀ text : String, compiled.foundIn text = true ↔ pattern.Occurs textEnd text) ∧
    ∃ tokens, PatternToken.ofText? written.toList = some tokens ∧
      PatternToken.ofText? (closeEnds written.toList) =
        some (tokens.map PatternToken.closed) ∧
      (.anchor .lastLineEnd ∉ tokens → closeEnds written.toList = written.toList) := by
  obtain ⟨tokens, scanned, grammatical⟩ := Option.bind_eq_some_iff.mp compiles
  obtain ⟨closedTokens, unchanged⟩ := PatternToken.ofText?_closed plain scanned
  refine ⟨⟨pattern.closed, ?_, fun text => closed_foundIn⟩, tokens, scanned, closedTokens,
    unchanged⟩
  rw [ofTextClosed?, ofText?, closedTokens, Option.bind_some, ofTokens?_closed, grammatical,
    Option.map_some]

theorem compiled_finds_iff_price :
    let written := "^[$a-z\\]]+\\$(?:\\d+$|,(?=.|$))"
    PatternToken.PlainClasses written.toList ∧ ∃ pattern, ofText? written.toList = some pattern ∧
      ∃ compiled, ofTextClosed? written.toList = some compiled ∧
        ∀ text : String, compiled.foundIn text = true ↔ pattern.Occurs textEnd text := by
  intro written
  have wellFormed : (ofText? written.toList).isSome = true := by decide +kernel
  have plain : PatternToken.PlainClasses written.toList := by decide +kernel
  obtain ⟨pattern, compiles⟩ := Option.isSome_iff_exists.mp wellFormed
  exact ⟨plain, pattern, compiles, (compiled_finds_iff compiles plain).1⟩

end WorkItems.Pattern
