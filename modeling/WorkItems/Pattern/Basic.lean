import WorkItems.Text.Surrogate

namespace WorkItems

/-! Text patterns and where they match.

A pattern relates a place in a text to the places where a match that starts there may end.  Which
of several ends a matcher would prefer does not matter here, so greedy and lazy repetition are
the same pattern.
-/

/-- A part of a character class. -/
inductive ClassPart where
  | range (first last : Char)
  | digit (negated : Bool)
  | recentDigit (negated : Bool)
  | wordCharacter (negated : Bool)
  | blank (negated : Bool)
deriving DecidableEq

inductive Anchor where
  | textStart
  | textEnd
  | lastLineEnd
  | wordEdge (negated : Bool)
deriving DecidableEq

inductive Pattern where
  | empty
  | anyCharacter
  | oneOf (negated : Bool) (parts : List ClassPart)
  | anchor (edge : Anchor)
  | sequence (first second : Pattern)
  | either (first second : Pattern)
  | repeated (body : Pattern) (least : Nat) (most : Option Nat)
  | ahead (negated : Bool) (body : Pattern)
deriving DecidableEq, Inhabited

/-- A place in a text: how many characters lie before it, the last of them, and the rest. -/
structure Cursor where
  position : Nat
  previous : Option Char
  rest : List Char
deriving DecidableEq

def ClassPart.accepts (part : ClassPart) (c : Char) : Bool :=
  match part with
  | .range first last =>
    decide (Text.codeOf first ≤ Text.codeOf c) && decide (Text.codeOf c ≤ Text.codeOf last)
  | .digit negated => Text.isDigit c != negated
  | .recentDigit negated => Text.isRecentDigit c != negated
  | .wordCharacter negated => Text.isWordCharacter c != negated
  | .blank negated => Text.isBlank c != negated

def ClassPart.withRecentDigits : ClassPart → ClassPart
  | .digit negated => .recentDigit negated
  | part => part

namespace Cursor

def start (text : List Char) : Cursor :=
  ⟨0, none, text⟩

/-- The next place, when the next character is acceptable. -/
def advance (accepts : Char → Bool) (cursor : Cursor) : List Cursor :=
  match cursor.rest with
  | [] => []
  | c :: rest => if accepts c then [⟨cursor.position + 1, some c, rest⟩] else []

/-- This place and all later ones. -/
def onwards (position : Nat) (previous : Option Char) : List Char → List Cursor
  | [] => [⟨position, previous, []⟩]
  | c :: rest => ⟨position, previous, c :: rest⟩ :: onwards (position + 1) (some c) rest

def isKnown (known : List Cursor) (cursor : Cursor) : Bool :=
  known.any fun other => other.position == cursor.position

/-- The places that are not known yet, each once. -/
def novel (known : List Cursor) : List Cursor → List Cursor
  | [] => []
  | cursor :: rest =>
    if isKnown known cursor then novel known rest
    else cursor :: novel (cursor :: known) rest

end Cursor

/-- An empty text has no place that is inside or at the edge of a word. -/
def Anchor.holds (anchor : Anchor) (cursor : Cursor) : Bool :=
  match anchor with
  | .textStart => cursor.previous.isNone
  | .textEnd => cursor.rest.isEmpty
  | .lastLineEnd => cursor.rest.isEmpty || cursor.rest == ['\n']
  | .wordEdge negated =>
    let before := cursor.previous.any Text.isWordCharacter
    let after := cursor.rest.head?.any Text.isWordCharacter
    (cursor.previous.isSome || !cursor.rest.isEmpty) && (before != after) != negated

namespace Pattern

/-- The places reached from some places by exactly so many steps. -/
def reachedExactly (step : Cursor → List Cursor) : Nat → List Cursor → List Cursor
  | 0, cursors => cursors
  | _ + 1, [] => []
  | count + 1, cursors => reachedExactly step count (Cursor.novel [] (cursors.flatMap step))

/-- The known places and those reached from the newest of them by at most so many steps. -/
def reachedWithin (step : Cursor → List Cursor) :
    Nat → List Cursor → List Cursor → List Cursor
  | 0, known, _ => known
  | count + 1, known, newest =>
    match Cursor.novel known (newest.flatMap step) with
    | [] => known
    | reached => reachedWithin step count (known ++ reached) reached

/-- The places where a match that starts at a cursor may end.  A repetition without a bound needs
no more rounds than there are characters left, since a round that reads nothing leads nowhere. -/
def ends : Pattern → Cursor → List Cursor
  | .empty, cursor => [cursor]
  | .anyCharacter, cursor => cursor.advance fun c => c != '\n'
  | .oneOf negated parts, cursor =>
    cursor.advance fun c => parts.any (fun part => part.accepts c) != negated
  | .anchor edge, cursor => if edge.holds cursor then [cursor] else []
  | .sequence first second, cursor =>
    Cursor.novel [] ((first.ends cursor).flatMap second.ends)
  | .either first second, cursor => Cursor.novel [] (first.ends cursor ++ second.ends cursor)
  | .repeated body least most, cursor =>
    let reached := reachedExactly body.ends least [cursor]
    let rounds := match most with
      | some most => most - least
      | none => cursor.rest.length
    reachedWithin body.ends rounds reached reached
  | .ahead negated body, cursor => if (body.ends cursor).isEmpty == negated then [cursor] else []

/-- Whether the pattern matches somewhere in a text. -/
def foundIn (pattern : Pattern) (text : String) : Bool :=
  (Cursor.onwards 0 none text.toList).any fun cursor => !(pattern.ends cursor).isEmpty

/-- The pattern of a single character. -/
def character (c : Char) : Pattern :=
  .oneOf false [.range c c]

/-- The same pattern to an engine that knows the digits of Unicode 16. -/
def withRecentDigits : Pattern → Pattern
  | .empty => .empty
  | .anyCharacter => .anyCharacter
  | .oneOf negated parts => .oneOf negated (parts.map ClassPart.withRecentDigits)
  | .anchor edge => .anchor edge
  | .sequence first second => .sequence first.withRecentDigits second.withRecentDigits
  | .either first second => .either first.withRecentDigits second.withRecentDigits
  | .repeated body least most => .repeated body.withRecentDigits least most
  | .ahead negated body => .ahead negated body.withRecentDigits

end Pattern

end WorkItems
