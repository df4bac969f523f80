namespace WorkItems.Ulid

/-! The text of a 128-bit identifier: 26 digits of five bits each, the highest first.

The digits and the capital letters but for I, L, O and U are used, in their order as characters,
so that texts are in the order of the numbers they write.
-/

def alphabet : List Char := "0123456789ABCDEFGHJKMNPQRSTVWXYZ".toList

def digit (n : Nat) : Char :=
  alphabet.getD n '0'

/-- The last `width` digits of a number in base 32. -/
def digits : Nat → Nat → List Char
  | 0, _ => []
  | width + 1, n => digits width (n / 32) ++ [digit (n % 32)]

def text (n : Nat) : String :=
  String.ofList (digits 26 n)

end WorkItems.Ulid
