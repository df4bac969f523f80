import WorkItems.Limits
import WorkItems.Text.Surrogate

namespace WorkItems.Json

/-! Reading JSON text.

Beside the standard forms, `NaN`, `Infinity` and `-Infinity` are numbers, and a number too large
for a double is infinite.  A number without fraction and exponent is whole, and may not have more
digits than are read.  When an object repeats a key, the last value stands in the first one's place.
A surrogate that is written without its other half is kept as it is.  Every reader takes the rest of
the text and gives back what it leaves; the first thing that is in the way ends it all.
-/

abbrev Rest := List Char

/-- Why a text is not read. -/
inductive ReadFault where
  /-- The text is not JSON. -/
  | malformed
  | broken (breakdown : Breakdown)
deriving DecidableEq

/-- What has been read, if the text is well formed. -/
def orMalformed {α : Type} (found : Option α) : Except ReadFault α :=
  found.elim (.error .malformed) .ok

def skipSpace : Rest → Rest :=
  List.dropWhile fun c => c == ' ' || c == '\t' || c == '\n' || c == '\r'

def isDigit (c : Char) : Bool :=
  decide ('0' ≤ c) && decide (c ≤ '9')

/-- The number written by decimal digits. -/
def digitsValue (digits : List Char) : Nat :=
  digits.foldl (fun value c => value * 10 + (c.toNat - '0'.toNat)) 0

def hexValue? (c : Char) : Option Nat :=
  if '0' ≤ c ∧ c ≤ '9' then some (c.toNat - '0'.toNat)
  else if 'a' ≤ c ∧ c ≤ 'f' then some (c.toNat - 'a'.toNat + 10)
  else if 'A' ≤ c ∧ c ≤ 'F' then some (c.toNat - 'A'.toNat + 10)
  else none

/-- Four hexadecimal digits. -/
def readUnit : Rest → Option (Nat × Rest)
  | a :: b :: c :: d :: rest => do
    let a ← hexValue? a
    let b ← hexValue? b
    let c ← hexValue? c
    let d ← hexValue? d
    pure (((a * 16 + b) * 16 + c) * 16 + d, rest)
  | _ => none

/-- The character after a `\u`; two units may make one character together. -/
def readCodePoint (rest : Rest) : Option (Char × Rest) := do
  let (unit, rest) ← readUnit rest
  let alone := (Text.ofCode unit, rest)
  if 0xd800 ≤ unit ∧ unit < 0xdc00 then
    match rest with
    | '\\' :: 'u' :: more =>
      match readUnit more with
      | some (low, after) =>
        if 0xdc00 ≤ low ∧ low < 0xe000 then
          pure (Char.ofNat (0x10000 + (unit - 0xd800) * 0x400 + (low - 0xdc00)), after)
        else pure alone
      | none => pure alone
    | _ => pure alone
  else pure alone

def escaped? : Char → Option Char
  | '"' => some '"'
  | '\\' => some '\\'
  | '/' => some '/'
  | 'b' => some '\x08'
  | 'f' => some '\x0c'
  | 'n' => some '\n'
  | 'r' => some '\r'
  | 't' => some '\t'
  | _ => none

/-- The characters of a string up to its closing quote, given those read so far in reverse. -/
def readCharacters : Nat → List Char → Rest → Except ReadFault (String × Rest)
  | 0, _, _ => .error .malformed
  | steps + 1, read, rest =>
    match rest with
    | [] => .error .malformed
    | '"' :: rest => .ok (String.ofList read.reverse, rest)
    | '\\' :: 'u' :: rest => do
      let (c, rest) ← orMalformed (readCodePoint rest)
      readCharacters steps (c :: read) rest
    | '\\' :: c :: rest => do
      let c ← orMalformed (escaped? c)
      readCharacters steps (c :: read) rest
    | c :: rest =>
      if c.toNat < 32 then .error .malformed else readCharacters steps (c :: read) rest

/-- The digits after a mark, when there is at least one. -/
def fraction? : Rest → Option (List Char × Rest)
  | '.' :: rest =>
    let digits := rest.takeWhile isDigit
    if digits.isEmpty then none else some (digits, rest.dropWhile isDigit)
  | _ => none

def exponent? : Rest → Option (Int × Rest)
  | c :: rest =>
    if c = 'e' ∨ c = 'E' then
      let (negative, rest) := match rest with
        | '-' :: rest => (true, rest)
        | '+' :: rest => (false, rest)
        | rest => (false, rest)
      let digits := rest.takeWhile isDigit
      if digits.isEmpty then none
      else
        let size := (digitsValue digits : Int)
        some (if negative then -size else size, rest.dropWhile isDigit)
    else none
  | [] => none

/-- The digits before a fraction, where a zero stands alone. -/
def wholeDigits : Rest → List Char
  | '0' :: _ => ['0']
  | rest => rest.takeWhile isDigit

def readNumber (limits : Limits) (negative : Bool) (rest : Rest) :
    Except ReadFault (Value × Rest) :=
  let whole := wholeDigits rest
  if whole.isEmpty then .error .malformed
  else
    let rest := rest.drop whole.length
    let (fraction, afterFraction) := (fraction? rest).getD ([], rest)
    let (exponent, afterExponent) := (exponent? afterFraction).getD (0, afterFraction)
    if (fraction? rest).isSome ∨ (exponent? afterFraction).isSome then
      .ok (.double (Double.ofDecimal negative (digitsValue (whole ++ fraction))
        (exponent - fraction.length)), afterExponent)
    else if limits.digits < whole.length then .error (.broken .tooManyDigits)
    else
      let size := (digitsValue whole : Int)
      .ok (.int (if negative then -size else size), rest)

/-- A word that stands for a value. -/
def readWord (word : String) (value : Value) (rest : Rest) : Except ReadFault (Value × Rest) :=
  if word.toList.isPrefixOf rest then .ok (value, rest.drop word.length) else .error .malformed

/-- The room inside an array or an object. -/
def enter : Nat → Except ReadFault Nat
  | 0 => .error (.broken .noRoom)
  | room + 1 => .ok room

mutual

/-- A value for which there is some room. -/
def readValue (limits : Limits) : Nat → Nat → Rest → Except ReadFault (Value × Rest)
  | 0, _, _ => .error .malformed
  | steps + 1, room, rest =>
    match rest with
    | '"' :: rest => do
      let (text, rest) ← readCharacters (rest.length + 1) [] rest
      pure (.text text, rest)
    | '[' :: rest => do
      let room ← enter room
      match skipSpace rest with
      | ']' :: rest => pure (.array [], rest)
      | rest => do
        let (items, rest) ← readItems limits steps room rest
        pure (.array items, rest)
    | '\x7b' :: rest => do
      let room ← enter room
      match skipSpace rest with
      | '\x7d' :: rest => pure (.object [], rest)
      | rest => do
        let (members, rest) ← readMembers limits steps room [] rest
        pure (.object members, rest)
    | 'n' :: _ => readWord "null" .null rest
    | 't' :: _ => readWord "true" (.bool true) rest
    | 'f' :: _ => readWord "false" (.bool false) rest
    | 'N' :: _ => readWord "NaN" (.double (.nan 0)) rest
    | 'I' :: _ => readWord "Infinity" (.double (.infinity false)) rest
    | '-' :: 'I' :: _ => readWord "-Infinity" (.double (.infinity true)) rest
    | '-' :: rest => readNumber limits true rest
    | rest => readNumber limits false rest

def readItems (limits : Limits) : Nat → Nat → Rest → Except ReadFault (List Value × Rest)
  | 0, _, _ => .error .malformed
  | steps + 1, room, rest => do
    let (item, rest) ← readValue limits steps room (skipSpace rest)
    match skipSpace rest with
    | ',' :: rest => do
      let (items, rest) ← readItems limits steps room rest
      pure (item :: items, rest)
    | ']' :: rest => pure ([item], rest)
    | _ => .error .malformed

def readMembers (limits : Limits) :
    Nat → Nat → Members → Rest → Except ReadFault (Members × Rest)
  | 0, _, _, _ => .error .malformed
  | steps + 1, room, members, rest =>
    match skipSpace rest with
    | '"' :: rest => do
      let (key, rest) ← readCharacters (rest.length + 1) [] rest
      match skipSpace rest with
      | ':' :: rest => do
        let (value, rest) ← readValue limits steps room (skipSpace rest)
        let members := Members.put members key value
        match skipSpace rest with
        | ',' :: rest => readMembers limits steps room members rest
        | '\x7d' :: rest => pure (members, rest)
        | _ => .error .malformed
      | _ => .error .malformed
    | _ => .error .malformed

end

/-- The value of a whole JSON text; nothing but white space may surround it. -/
def read (limits : Limits) (text : String) : Except ReadFault Value := do
  let characters := text.toList
  -- A value and what is inside take a step each, and no value is without a character.
  let (value, rest) ← readValue limits (2 * characters.length + 1) limits.reading
    (skipSpace characters)
  if (skipSpace rest).isEmpty then pure value else throw .malformed

end WorkItems.Json
