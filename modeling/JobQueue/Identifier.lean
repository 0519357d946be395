/-!
Identifiers for new records: 26 characters that tell the millisecond and hold eighty bits of
chance. They sort by the millisecond: it fills the first ten characters.
-/

namespace JobQueue.Identifier

/-- The digits of identifiers: those and the capital letters without I, L, O and U. -/
def alphabet : List Char := "0123456789ABCDEFGHJKMNPQRSTVWXYZ".toList

/-- The last `width` digits of a number to the base 32, the most significant first. -/
def digits : (width : Nat) → Nat → List Char
  | 0, _ => []
  | width + 1, n => digits width (n / 32) ++ [alphabet.getD (n % 32) '0']

def ofParts (millisecond random : Nat) : String :=
  String.ofList (digits 10 millisecond ++ digits 16 random)

end JobQueue.Identifier
