/-! # The exact value of a binary64 number

A finite number is a sign, a whole mantissa and a power of two; `Binary64.ofFloat` reads the three
from the bits. -/

namespace JointGuard.Decimal

inductive Binary64 where
  | nan
  | infinite (negative : Bool)
  | finite (negative : Bool) (mantissa : Nat) (exponent : Int)
  deriving DecidableEq

namespace Binary64

/-- The exponent of the subnormal numbers, the least there is. -/
def leastExponent : Int := -1074

/-- The mantissa at which a binade begins. -/
def binadeStart : Nat := 1 <<< 52

def ofFloat (x : Float) : Binary64 :=
  if x.isNaN then .nan
  else
    let bits := x.toBits.toNat
    let negative := bits >>> 63 = 1
    let biased := (bits >>> 52) % 2048
    let fraction := bits % binadeStart
    if biased = 2047 then .infinite negative
    else if biased = 0 then .finite negative fraction leastExponent
    else .finite negative (binadeStart + fraction) (leastExponent + (biased - 1 : Nat))

end Binary64

end JointGuard.Decimal
