import WorkItems.Text.Category

namespace WorkItems.CommandLine

/-! The arguments of a command: options in any order, and at most one operand among them.

An option is a word behind two hyphens, of which a beginning is enough when no other option begins
so; its value stands behind a `=` or is the next argument.  Two hyphens alone end the options.
Arguments are taken one by one, and help is given as soon as it is asked for, even where a later
argument is wrong; what nothing claims is wrong only once all arguments have been taken.
-/

inductive OptionKind where
  | help
  | flag
  /-- Takes a value, of these choices if there are any. -/
  | value (choices : Option (List String))
deriving DecidableEq

/-- The options of a command by their names, and whether it has an operand, which it then needs. -/
structure Signature where
  options : List (String × OptionKind)
  hasOperand : Bool

/-- Every command has an option for help, and beside its name a letter for it. -/
def Signature.names (signature : Signature) : List (String × OptionKind) :=
  ("--help", .help) :: signature.options

/-- What the arguments of a command say. -/
structure Given where
  operand : Option String
  flags : List String
  values : List (String × String)

def Given.nothing : Given := ⟨none, [], []⟩

def Given.hasFlag (given : Given) (name : String) : Bool :=
  given.flags.contains name

/-- The value of an option; the last one counts. -/
def Given.value? (given : Given) (name : String) : Option String :=
  given.values.lookup name

inductive Request where
  | help
  | misuse
  | proceed (given : Given)

/-- What kind of argument a word is. -/
inductive Word where
  | operand
  /-- An option, and what stands behind its `=`. -/
  | option (name : String) (kind : OptionKind) (attached : Option String)
  /-- The letter for help, and what follows it in the same word. -/
  | helpLetter (more : List Char)
  | ambiguous
  | unknown

/-- A negative number is no option: digits, or a fraction, before the end of the line. -/
def isNegativeNumber : List Char → Bool
  | '-' :: rest =>
    let rest := if rest.getLast? = some '\n' then rest.dropLast else rest
    let whole := rest.takeWhile Text.isDigit
    match rest.dropWhile Text.isDigit with
    | [] => !whole.isEmpty
    | '.' :: fraction => !fraction.isEmpty && fraction.all Text.isDigit
    | _ => false
  | _ => false

/-- The part of a word before its first `=`, and the part behind it if there is one. -/
def splitAttached (word : List Char) : List Char × Option String :=
  match word.dropWhile (· != '=') with
  | [] => (word, none)
  | _ :: attached => (word.takeWhile (· != '='), some (String.ofList attached))

/-- A word that begins no option. -/
def otherwise (word : List Char) : Word :=
  if isNegativeNumber word || word.contains ' ' then .operand else .unknown

def ofLongWord (signature : Signature) (word : List Char) : Word :=
  let (beginning, attached) := splitAttached word
  match signature.names.lookup (String.ofList beginning) with
  | some kind => .option (String.ofList beginning) kind attached
  | none =>
    match signature.names.filter fun option => beginning.isPrefixOf option.1.toList with
    | [] => otherwise word
    | [(name, kind)] => .option name kind attached
    | _ => .ambiguous

def Word.ofText (signature : Signature) (text : String) : Word :=
  match text.toList with
  | '-' :: '-' :: rest => ofLongWord signature ('-' :: '-' :: rest)
  | ['-', 'h'] => .helpLetter []
  | '-' :: 'h' :: more => .helpLetter more
  | '-' :: '=' :: _ => .ambiguous
  | '-' :: c :: rest => otherwise ('-' :: c :: rest)
  | _ => .operand

/-- Whether letters behind the one for help leave it at that; neither a value nor another hyphen
may follow it. -/
def lettersGiveHelp : List Char → Bool
  | [] => true
  | 'h' :: more => lettersGiveHelp more
  | c :: _ => c != '=' && c != '-'

def admits (choices : Option (List String)) (value : String) : Bool :=
  choices.all fun choices => choices.contains value

/-- What has been taken so far: what it says, whether anything is left over that nothing claims,
and whether the last argument was the operand. -/
structure Progress where
  given : Given
  leftOver : Bool
  justOperand : Bool

namespace Progress

def start : Progress := ⟨.nothing, false, false⟩

def addOperand (signature : Signature) (progress : Progress) (text : String) : Progress :=
  if signature.hasOperand && progress.given.operand.isNone then
    ⟨{ progress.given with operand := some text }, progress.leftOver, true⟩
  else ⟨progress.given, true, false⟩

def addFlag (progress : Progress) (name : String) : Progress :=
  ⟨{ progress.given with flags := name :: progress.given.flags }, progress.leftOver, false⟩

def addValue (progress : Progress) (name value : String) : Progress :=
  ⟨{ progress.given with values := (name, value) :: progress.given.values },
    progress.leftOver, false⟩

def leave (progress : Progress) : Progress :=
  ⟨progress.given, true, false⟩

def finish (signature : Signature) (progress : Progress) : Request :=
  if progress.leftOver || (signature.hasOperand && progress.given.operand.isNone) then .misuse
  else .proceed progress.given

/-- Takes the arguments behind two hyphens, which are all operands.  With none behind them, the
hyphens go with an operand just before. -/
def finishOperands (signature : Signature) (progress : Progress) (texts : List String) :
    Request :=
  match texts with
  | [] => if progress.justOperand then finish signature progress else .misuse
  | texts => finish signature (texts.foldl (addOperand signature) progress)

end Progress

/-- Whether a word can be the value of an option before it. -/
def canBeValue (signature : Signature) (text : String) : Bool :=
  text != "--" &&
    match Word.ofText signature text with
    | .operand => true
    | _ => false

/-- Takes arguments until there are none left. -/
def take (signature : Signature) (progress : Progress) : List String → Request
  | [] => progress.finish signature
  | text :: texts =>
    if text = "--" then progress.finishOperands signature texts
    else
      match Word.ofText signature text with
      | .operand => take signature (progress.addOperand signature text) texts
      | .unknown => take signature progress.leave texts
      | .ambiguous => .misuse
      | .helpLetter more => if lettersGiveHelp more then .help else .misuse
      | .option _ .help none => .help
      | .option name .flag none => take signature (progress.addFlag name) texts
      | .option name (.value choices) (some value) =>
        if admits choices value then take signature (progress.addValue name value) texts
        else .misuse
      | .option name (.value choices) none =>
        match texts with
        | value :: texts =>
          if canBeValue signature value && admits choices value then
            take signature (progress.addValue name value) texts
          else .misuse
        | [] => .misuse
      | .option _ _ (some _) => .misuse

/-- What the arguments of a command ask for. -/
def Signature.read (signature : Signature) (arguments : List String) : Request :=
  take signature .start arguments

end WorkItems.CommandLine
