import JointGuard.Decimal.Shortest

/-! # Positional text of a number

A finite number is written with the fewest digits that read back, in positional notation whatever
its size; zero keeps its sign.  A `Layout` fixes the rest: the words for the special values and what
follows a number without a fraction. -/

namespace JointGuard.Decimal

structure Layout where
  nan : String
  infinity : String
  wholeEnding : String

/-- The digits of `count * 10 ^ place` around the point. -/
def positional (count : Nat) (place : Int) : List Char × List Char :=
  let digits := Nat.toDigits 10 count
  if 0 ≤ place then (digits ++ List.replicate place.toNat '0', [])
  else
    let places := (-place).toNat
    let padded := List.replicate (places + 1 - digits.length) '0' ++ digits
    padded.splitAt (padded.length - places)

namespace Layout

def magnitude (layout : Layout) (mantissa : Nat) (exponent : Int) : String :=
  let (count, place) := if mantissa = 0 then (0, 0) else shortest mantissa exponent
  match positional count place with
  | (whole, []) => String.ofList whole ++ layout.wholeEnding
  | (whole, fraction) => String.ofList (whole ++ '.' :: fraction)

def sign (negative : Bool) : String := if negative then "-" else ""

def text (layout : Layout) (x : Float) : String :=
  match Binary64.ofFloat x with
  | .nan => layout.nan
  | .infinite negative => sign negative ++ layout.infinity
  | .finite negative mantissa exponent => sign negative ++ layout.magnitude mantissa exponent

end Layout

end JointGuard.Decimal
