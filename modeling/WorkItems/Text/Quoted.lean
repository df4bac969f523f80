import WorkItems.Text.Surrogate

namespace WorkItems.Text

/-! Quoted text: characters that have no printed form of their own are written by their code. -/

def hexDigit (n : Nat) : Char :=
  if n < 10 then Char.ofNat (48 + n) else Char.ofNat (87 + n)

/-- The last `width` hexadecimal digits of a number, in small letters. -/
def hexText : Nat → Nat → List Char
  | 0, _ => []
  | width + 1, n => hexText width (n / 16) ++ [hexDigit (n % 16)]

/-- Single quotes are preferred; double quotes serve a text that has only single ones inside. -/
def quoteFor (text : List Char) : Char :=
  if text.contains '\'' && !text.contains '"' then '"' else '\''

def quoteCharacter (quote c : Char) : List Char :=
  if c = quote ∨ c = '\\' then ['\\', c]
  else if c = '\n' then ['\\', 'n']
  else if c = '\r' then ['\\', 'r']
  else if c = '\t' then ['\\', 't']
  else if isPrintable c then [c]
  else
    let code := codeOf c
    if code < 0x100 then '\\' :: 'x' :: hexText 2 code
    else if code < 0x10000 then '\\' :: 'u' :: hexText 4 code
    else '\\' :: 'U' :: hexText 8 code

def quoted (text : String) : String :=
  let characters := text.toList
  let quote := quoteFor characters
  String.ofList (quote :: characters.flatMap (quoteCharacter quote) ++ [quote])

/-- JSON strings keep printable ASCII; characters outside the basic plane take two units. -/
def jsonCharacter (c : Char) : List Char :=
  let unit (n : Nat) : List Char := '\\' :: 'u' :: hexText 4 n
  if c = '"' ∨ c = '\\' then ['\\', c]
  else if c = '\n' then ['\\', 'n']
  else if c = '\r' then ['\\', 'r']
  else if c = '\t' then ['\\', 't']
  else if c = '\x08' then ['\\', 'b']
  else if c = '\x0c' then ['\\', 'f']
  else if 32 ≤ c.toNat ∧ c.toNat < 127 then [c]
  else if codeOf c < 0x10000 then unit (codeOf c)
  else
    let offset := codeOf c - 0x10000
    unit (0xd800 + offset / 0x400) ++ unit (0xdc00 + offset % 0x400)

def jsonQuoted (text : String) : String :=
  String.ofList ('"' :: text.toList.flatMap jsonCharacter ++ ['"'])

end WorkItems.Text
