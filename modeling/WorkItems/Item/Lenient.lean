import WorkItems.Item.FieldFault
import WorkItems.Number.Numeral
import WorkItems.Text.Surrogate
import WorkItems.Value

namespace WorkItems.Lenient

/-! Reading field values from whatever comes close to them.

Strings may be given as bytes; whole numbers, doubles and flags may be given as each other or as
text where nothing is lost.
-/

/-- The text of the only bytes that there are. -/
def bytesText : String := "ab"

def textOf? : Value → Option String
  | .foreign .bytes _ => some bytesText
  | value => value.asText?

def readText (value : Value) : Except FieldFault String :=
  match textOf? value with
  | some text => .ok text
  | none => .error .notText

def falseWords : List String := ["0", "off", "f", "false", "n", "no"]

def trueWords : List String := ["1", "on", "t", "true", "y", "yes"]

/-- A text that is to be gone through must not have a lone surrogate. -/
def encodable (text : String) : Except FieldFault String :=
  if Text.isEncodable text then .ok text else .error .notUnicode

def flagOfText (text : String) : Except FieldFault Bool := do
  let text ← encodable text
  if falseWords.contains text.toLower then .ok false
  else if trueWords.contains text.toLower then .ok true
  else .error .unclearFlag

def flagOfInt (value : Int) : Except FieldFault Bool :=
  if value = 0 then .ok false
  else if value = 1 then .ok true
  else .error .unclearFlag

def readFlag (value : Value) : Except FieldFault Bool :=
  match value with
  | .bool flag => .ok flag
  | .number (.int number) => flagOfInt number
  | .number (.double number) =>
    match number.toInt? with
    | some whole => flagOfInt whole
    | none => .error .notFlag
  | value =>
    match textOf? value with
    | some text => flagOfText text
    | none => .error .notFlag

def hasDoubledUnderscore : List Char → Bool
  | '_' :: '_' :: _ => true
  | _ :: rest => hasDoubledUnderscore rest
  | [] => false

/-- A text without its underscores, when each of them stands alone inside the text. -/
def withoutUnderscores? (text : List Char) : Option (List Char) :=
  if text.head? = some '_' ∨ text.getLast? = some '_' then none
  else if hasDoubledUnderscore text then none
  else some (text.filter fun c => c != '_')

/-- What follows zeros and underscores up to the first other digit.  The last of them stays when a
point or nothing follows. -/
def pastZeros? (last : Char) : List Char → Option (List Char)
  | [] => some [last]
  | c :: rest =>
    if c = '0' ∨ c = '_' then pastZeros? c rest
    else if c = '.' then some (last :: c :: rest)
    else if Numeral.isDigit c then some (c :: rest)
    else none

/-- A number that starts with a digit, without its leading zeros. -/
def withoutLeadingZeros? : List Char → Option (List Char)
  | [] => none
  | c :: rest =>
    if c = '0' then pastZeros? c rest
    else if Numeral.isDigit c then some (c :: rest)
    else none

/-- Leading zeros count for nothing, except after a minus. -/
def unpadded? : List Char → Option (List Char)
  | '-' :: rest => some ('-' :: rest)
  | '+' :: rest => withoutLeadingZeros? rest
  | rest => withoutLeadingZeros? rest

/-- A number without its fraction, when that has zeros and nothing else. -/
def withoutZeroFraction (text : List Char) : List Char :=
  let fraction := (text.dropWhile fun c => c != '.').drop 1
  if !fraction.isEmpty && fraction.all fun c => c == '0' then text.takeWhile fun c => c != '.'
  else text

/-- The greatest count of digits that is read. -/
def digitsLimit : Nat := 4300

/-- Digits, perhaps after a minus. -/
def readNumeral (text : List Char) : Except FieldFault Int :=
  let (negative, digits) := Numeral.signOf text
  if digits.isEmpty ∨ !digits.all Numeral.isDigit then .error .unreadableWhole
  else if digitsLimit < digits.length then .error .wholeTooLong
  else
    let size := (Numeral.digitsValue digits : Int)
    .ok (if negative then -size else size)

/-- White space around, a sign, leading zeros, underscores and a fraction of zeros are allowed. -/
def wholeOfText (text : String) : Except FieldFault Int := do
  let text ← encodable text
  match unpadded? (Text.trim text.toList) with
  | none => .error .unreadableWhole
  | some unpadded =>
    match withoutUnderscores? (withoutZeroFraction unpadded) with
    | none => .error .unreadableWhole
    | some numeral => readNumeral numeral

def readWhole (value : Value) : Except FieldFault Int :=
  match value with
  | .bool flag => .ok (if flag then 1 else 0)
  | .number (.int number) => .ok number
  | .number (.double number) =>
    if !number.isFinite then .error .notFinite
    else
      match number.toInt? with
      | some whole => .ok whole
      | none => .error .fractional
  | value =>
    match textOf? value with
    | some text => wholeOfText text
    | none => .error .notWhole

def namedDouble? (negative : Bool) (name : String) : Option Double :=
  if name = "inf" ∨ name = "infinity" then some (.infinity negative)
  else if name = "nan" then some (.nan 0)
  else none

def plainDouble? (text : List Char) : Option Double :=
  let (negative, rest) := Numeral.signOf text
  match namedDouble? negative (String.ofList rest).toLower with
  | some named => some named
  | none => Numeral.toDouble? negative rest

/-- White space around is allowed, and so are underscores, but not both. -/
def doubleOfText (text : String) : Except FieldFault Double := do
  let text ← encodable text
  match plainDouble? (Text.trim text.toList) with
  | some number => pure number
  | none =>
    match (withoutUnderscores? text.toList).bind plainDouble? with
    | some number => pure number
    | none => throw .unreadableNumber

/-- A whole number too large for a double is no number here. -/
def readDouble (value : Value) : Except FieldFault Double :=
  match value with
  | .bool flag => .ok (Double.ofInt (if flag then 1 else 0))
  | .number (.double number) => .ok number
  | .number (.int number) =>
    if (Double.ofInt number).isFinite then .ok (Double.ofInt number) else .error .notNumber
  | value =>
    match textOf? value with
    | some text => doubleOfText text
    | none => .error .notNumber

def momentOfText (text : String) : Except FieldFault Moment := do
  let text ← encodable text
  match Moment.ofText text with
  | .ok moment => pure moment
  | .error fault => throw (.notMoment true fault)

def readMoment (value : Value) : Except FieldFault Moment :=
  match value with
  | .number number =>
    match Moment.ofNumber number with
    | .ok moment => .ok moment
    | .error fault => .error (.notMoment false fault)
  | value =>
    match textOf? value with
    | some text => momentOfText text
    | none => .error (.notMoment true .notMoment)

end WorkItems.Lenient
