import WorkItems.Fault
import WorkItems.Value

namespace WorkItems.Estimate

/-! Estimates of effort: story points and hours.

A number is refused when it lies outside of its range; a number that is not a number lies on no
side of any bound and is let through.
-/

def pointsMessage : String := "Story points must be between 1 and 21"

def hoursMessage : String := "Hours must be non-negative"

def pointsOutOfRange (number : Number) : Bool :=
  number.less (.int 1) || (Number.int 21).less number

def hoursOutOfRange (number : Number) : Bool :=
  number.less (.int 0)

/-- Gives the value back when its number is in range. -/
def checked (outOfRange : Number → Bool) (message : String) (value : Value) :
    Except Fault Value :=
  match value.asNumber? with
  | none => .error .incomparable
  | some number => if outOfRange number then .error (.outOfRange message) else .ok value

def storyPoints (value : Value) : Except Fault Value :=
  checked pointsOutOfRange pointsMessage value

def hours (value : Value) : Except Fault Value :=
  checked hoursOutOfRange hoursMessage value

end WorkItems.Estimate
