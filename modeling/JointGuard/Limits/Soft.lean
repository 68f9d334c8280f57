import JointGuard.Limits.Hard

/-! # Soft limits of a joint

A soft band of positions with two gains.  The position gain sets how fast a joint may approach an
end of the band, the velocity gain how hard it is slowed down when it is too fast. -/

namespace JointGuard

structure SoftLimits where
  positionGain : Float
  velocityGain : Float
  minPosition : Float
  maxPosition : Float

namespace SoftLimits

/-- The band is in order and no gain is negative; a NaN anywhere is refused. -/
def isValid (soft : SoftLimits) : Bool :=
  soft.minPosition ≤ soft.maxPosition && 0.0 ≤ soft.positionGain && 0.0 ≤ soft.velocityGain

def isWithin (soft : SoftLimits) (hard : HardLimits) : Bool :=
  hard.contains soft.minPosition && hard.contains soft.maxPosition

end SoftLimits

end JointGuard
