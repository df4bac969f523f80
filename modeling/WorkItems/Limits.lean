import WorkItems.Value.Depth

namespace WorkItems

/-! The limits of the machine that a program runs on.

Going down into a value takes room for each of its levels, and a whole number is read or printed
only up to a count of digits.  A program breaks down where it comes to a limit.  How high the limits
are is up to the machine.
-/

inductive Breakdown where
  | noRoom
  | tooManyDigits
deriving DecidableEq

/-- What a breakdown is called. -/
def Breakdown.name : Breakdown → String
  | .noRoom => "RecursionError"
  | .tooManyDigits => "ValueError"

structure Limits where
  /-- The digits of a whole number that is read or printed. -/
  digits : Nat
  /-- The levels of a document that is read. -/
  reading : Nat
  /-- The levels that the schema engine goes down. -/
  comparing : Nat
  /-- The levels of a value that is printed. -/
  printing : Nat
  /-- Whether there is room to cross-check a value, which is up to another library. -/
  crossChecks : Value → Bool
  /-- What is said of a breakdown. -/
  words : Breakdown → String
  /-- There is room for the documents of the contract. -/
  fitsDocuments : 4 ≤ comparing
  /-- Printing takes less room than comparing. -/
  printsCompared : comparing ≤ printing

namespace Limits

/-- The limits of a machine that has been left as it comes. -/
def usual : Limits where
  digits := 4300
  reading := 990
  comparing := 485
  printing := 980
  crossChecks value := decide (value.depth ≤ 950)
  words
    | .noRoom => "maximum recursion depth exceeded"
    | .tooManyDigits =>
      "Exceeds the limit (4300 digits) for integer string conversion; " ++
        "use sys.set_int_max_str_digits() to increase the limit"
  fitsDocuments := by decide
  printsCompared := by decide

end Limits

namespace Value

mutual

/-- Why a value cannot be printed with so many digits and so much room, if anything is in the
way. -/
def printFault? (digits : Nat) : Value → Nat → Option Breakdown
  | .number (.int value), _ =>
    if Nat.pow 10 digits ≤ value.natAbs then some .tooManyDigits else none
  | .array _, 0 | .tuple _, 0 | .object _, 0 => some .noRoom
  | .array items, room + 1 => itemsPrintFault? digits items room
  | .tuple items, room + 1 => itemsPrintFault? digits items room
  | .object members, room + 1 => membersPrintFault? digits members room
  | _, _ => none
termination_by structural value => value

def itemsPrintFault? (digits : Nat) : List Value → Nat → Option Breakdown
  | [], _ => none
  | item :: items, room => (printFault? digits item room).or (itemsPrintFault? digits items room)
termination_by structural items => items

def membersPrintFault? (digits : Nat) : List (String × Value) → Nat → Option Breakdown
  | [], _ => none
  | (_, value) :: rest, room =>
    (printFault? digits value room).or (membersPrintFault? digits rest room)
termination_by structural members => members

end

end Value

def Limits.printFault? (limits : Limits) (value : Value) : Option Breakdown :=
  value.printFault? limits.digits limits.printing

end WorkItems
