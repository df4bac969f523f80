import WorkItems.Pattern.Basic

namespace WorkItems

/-! The tokens of a pattern text. -/

inductive GroupKind where
  | plain
  | ahead (negated : Bool)
deriving DecidableEq

inductive PatternToken where
  | anyCharacter
  | oneOf (negated : Bool) (parts : List ClassPart)
  | anchor (edge : Anchor)
  | bar
  | opening (kind : GroupKind)
  | closing
  | quantifier (least : Nat) (most : Option Nat)
deriving DecidableEq

namespace PatternToken

def character (c : Char) : PatternToken :=
  .oneOf false [.range c c]

def isDigit (c : Char) : Bool :=
  decide ('0' ≤ c) && decide (c ≤ '9')

def isOctal (c : Char) : Bool :=
  decide ('0' ≤ c) && decide (c ≤ '7')

def isLetter (c : Char) : Bool :=
  (decide ('a' ≤ c) && decide (c ≤ 'z')) || (decide ('A' ≤ c) && decide (c ≤ 'Z'))

def hexValue? (c : Char) : Option Nat :=
  if '0' ≤ c ∧ c ≤ '9' then some (c.toNat - '0'.toNat)
  else if 'a' ≤ c ∧ c ≤ 'f' then some (c.toNat - 'a'.toNat + 10)
  else if 'A' ≤ c ∧ c ≤ 'F' then some (c.toNat - 'A'.toNat + 10)
  else none

def decimalValue (digits : List Char) : Nat :=
  digits.foldl (fun value c => value * 10 + (c.toNat - '0'.toNat)) 0

def octalValue (digits : List Char) : Nat :=
  digits.foldl (fun value c => value * 8 + (c.toNat - '0'.toNat)) 0

def hexDigitsValue? (digits : List Char) : Option Nat :=
  digits.foldlM (fun value c => (hexValue? c).map (value * 16 + ·)) 0

/-- A character written by exactly so many hexadecimal digits. -/
def coded? (width : Nat) (rest : List Char) : Option (Char × List Char) :=
  if rest.length < width then none
  else do
    let code ← hexDigitsValue? (rest.take width)
    if code < 0x110000 then some (Text.ofCode code, rest.drop width) else none

/-- The characters that an escaped letter stands for everywhere. -/
def control? : Char → Option Char
  | 'a' => some '\x07'
  | 'f' => some '\x0c'
  | 'n' => some '\n'
  | 'r' => some '\r'
  | 't' => some '\t'
  | 'v' => some '\x0b'
  | _ => none

def category? : Char → Option ClassPart
  | 'd' => some (.digit false)
  | 'D' => some (.digit true)
  | 'w' => some (.wordCharacter false)
  | 'W' => some (.wordCharacter true)
  | 's' => some (.blank false)
  | 'S' => some (.blank true)
  | _ => none

/-- The character with an octal number, of at most eight bits. -/
def octal? (digits rest : List Char) : Option (ClassPart × List Char) :=
  let code := octalValue digits
  if code < 256 then some (.range (Char.ofNat code) (Char.ofNat code), rest) else none

/-- The escapes that mean the same inside and outside of classes, after the backslash. -/
def escapedPart? (c : Char) (rest : List Char) : Option (ClassPart × List Char) :=
  match category? c, control? c with
  | some part, _ => some (part, rest)
  | none, some control => some (.range control control, rest)
  | none, none =>
    let one (found : Char × List Char) : ClassPart × List Char :=
      (.range found.1 found.1, found.2)
    match c with
    | 'x' => (coded? 2 rest).map one
    | 'u' => (coded? 4 rest).map one
    | 'U' => (coded? 8 rest).map one
    | '0' =>
      let digits := (rest.take 2).takeWhile isOctal
      octal? digits (rest.drop digits.length)
    | c => if isLetter c || isDigit c then none else some (.range c c, rest)

/-- The escapes outside of classes, where all but the smallest octal numbers have three digits. -/
def outerEscape? (c : Char) (rest : List Char) : Option (ClassPart × List Char) :=
  match rest with
  | second :: third :: after =>
    if c != '0' && [c, second, third].all isOctal then octal? [c, second, third] after
    else escapedPart? c rest
  | rest => escapedPart? c rest

/-- The escapes inside of classes, where octal numbers have one to three digits. -/
def innerEscape? (c : Char) (rest : List Char) : Option (ClassPart × List Char) :=
  if c = 'b' then some (.range '\x08' '\x08', rest)
  else if isOctal c then
    let digits := (rest.take 2).takeWhile isOctal
    octal? (c :: digits) (rest.drop digits.length)
  else escapedPart? c rest

def anchor? : Char → Option Anchor
  | 'A' => some .textStart
  | 'Z' => some .textEnd
  | 'b' => some (.wordEdge false)
  | 'B' => some (.wordEdge true)
  | _ => none

/-- A part of a class, when only a single character may stand there. -/
def classCharacter? : ClassPart → Option Char
  | .range first last => if first = last then some first else none
  | _ => none

/-- One part of a class, not yet looking for a range. -/
def classPart? : List Char → Option (ClassPart × List Char)
  | [] => none
  | '\\' :: rest =>
    match rest with
    | [] => none
    | c :: rest => innerEscape? c rest
  | c :: rest => some (.range c c, rest)

/-- The parts of a class up to its closing bracket.  A bracket that comes first is a member, and
so is a hyphen before the closing bracket. -/
def classParts? : Nat → List ClassPart → List Char → Option (List ClassPart × List Char)
  | 0, _, _ => none
  | steps + 1, parts, rest =>
    match parts, rest with
    | _ :: _, ']' :: rest => some (parts.reverse, rest)
    | parts, rest => do
      let (part, rest) ← classPart? rest
      match rest with
      | '-' :: ']' :: rest => some ((.range '-' '-' :: part :: parts).reverse, rest)
      | '-' :: rest => do
        let (last, rest) ← classPart? rest
        let low ← classCharacter? part
        let high ← classCharacter? last
        if Text.codeOf low ≤ Text.codeOf high then
          classParts? steps (.range low high :: parts) rest
        else none
      | rest => classParts? steps (part :: parts) rest

/-- A lazy mark after a quantifier does not change what is matched. -/
def skipLazy : List Char → List Char
  | '?' :: rest => rest
  | rest => rest

/-- The bounds in braces, where either may be left out; anything else in braces is no quantifier. -/
def bounds? (rest : List Char) : Option (List Char × Option (List Char) × List Char) :=
  let least := rest.takeWhile isDigit
  match rest.dropWhile isDigit with
  | ',' :: rest =>
    let most := rest.takeWhile isDigit
    match rest.dropWhile isDigit with
    | '\x7d' :: rest => some (least, some most, rest)
    | _ => none
  | '\x7d' :: rest => if least.isEmpty then none else some (least, none, rest)
  | _ => none

/-- The quantifier of the bounds, when the second is not below the first. -/
def quantifier? (least : List Char) (most : Option (List Char)) : Option PatternToken :=
  let low := decimalValue least
  match most with
  | none => some (.quantifier low (some low))
  | some [] => some (.quantifier low none)
  | some most =>
    let high := decimalValue most
    if high < low then none else some (.quantifier low (some high))

/-- The start of a group, after its parenthesis. -/
def group? : List Char → Option (GroupKind × List Char)
  | '?' :: ':' :: rest => some (.plain, rest)
  | '?' :: '=' :: rest => some (.ahead false, rest)
  | '?' :: '!' :: rest => some (.ahead true, rest)
  | '?' :: 'P' :: '<' :: rest =>
    let name := rest.takeWhile Text.isWordCharacter
    match name, rest.dropWhile Text.isWordCharacter with
    | first :: _, '>' :: rest => if Text.isDigit first then none else some (.plain, rest)
    | _, _ => none
  | '?' :: _ => none
  | rest => some (.plain, rest)

/-- The first token of a text and what follows it. -/
def next? : List Char → Option (PatternToken × List Char)
  | [] => none
  | '\\' :: rest =>
    match rest with
    | [] => none
    | c :: rest =>
      match anchor? c with
      | some edge => some (.anchor edge, rest)
      | none => (outerEscape? c rest).map fun found => (.oneOf false [found.1], found.2)
  | '.' :: rest => some (.anyCharacter, rest)
  | '^' :: rest => some (.anchor .textStart, rest)
  | '$' :: rest => some (.anchor .lastLineEnd, rest)
  | '|' :: rest => some (.bar, rest)
  | ')' :: rest => some (.closing, rest)
  | '(' :: rest => (group? rest).map fun found => (.opening found.1, found.2)
  | '[' :: rest =>
    let (negated, rest) := match rest with
      | '^' :: rest => (true, rest)
      | rest => (false, rest)
    (classParts? (rest.length + 1) [] rest).map fun found => (.oneOf negated found.1, found.2)
  | '*' :: rest => some (.quantifier 0 none, skipLazy rest)
  | '+' :: rest => some (.quantifier 1 none, skipLazy rest)
  | '?' :: rest => some (.quantifier 0 (some 1), skipLazy rest)
  | '\x7b' :: rest =>
    match bounds? rest with
    | some (least, most, after) => (quantifier? least most).map fun token => (token, skipLazy after)
    | none => some (character '\x7b', rest)
  | c :: rest => some (character c, rest)

/-- All tokens of a text; every token takes at least one character. -/
def scan? : Nat → List Char → Option (List PatternToken)
  | _, [] => some []
  | 0, _ :: _ => none
  | steps + 1, text => do
    let (token, rest) ← next? text
    let tokens ← scan? steps rest
    pure (token :: tokens)

def ofText? (text : List Char) : Option (List PatternToken) :=
  scan? text.length text

end PatternToken

end WorkItems
