/-! # The nearest binary64 number to a decimal

`nearest count place` rounds `count * 10 ^ place`, a tie to the even mantissa.  A decimal beyond the
range is settled by its number of digits alone, so that no power of ten is out of proportion. -/

namespace JointGuard.Decimal

def infinity : Float := 1.0 / 0.0

def nan : Float := 0.0 / 0.0

/-- Every decimal of at least `10 ^ 310` rounds to infinity. -/
def overflowPlace : Int := 310

/-- Every decimal below `10 ^ (-330)` rounds to zero. -/
def underflowPlace : Int := -330

def nearest (count : Nat) (place : Int) : Float :=
  let top := place + (Nat.toDigits 10 count).length
  if count = 0 then 0.0
  else if overflowPlace < top then infinity
  else if top < underflowPlace then 0.0
  else Float.ofScientific count (place < 0) place.natAbs

end JointGuard.Decimal
