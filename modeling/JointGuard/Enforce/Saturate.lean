/-! # Saturation

`saturate x low high` raises `x` to `low` and then lowers the result to `high`.  If the ends are
inverted the high end wins.  A NaN value counts as below the low end, and a NaN end bounds
nothing. -/

namespace JointGuard

/-- The value, or `low` if the value is below it or NaN. -/
def raise (x low : Float) : Float :=
  if x.isNaN || x < low then low else x

/-- The value if it is below `high` or `high` is NaN, and `high` otherwise. -/
def lower (x high : Float) : Float :=
  if high.isNaN || x < high then x else high

def saturate (x low high : Float) : Float :=
  lower (raise x low) high

/-- The range into which a law confines a quantity. -/
structure Band where
  low : Float
  high : Float

namespace Band

/-- The band from `-reach` to `reach`. -/
def within (reach : Float) : Band := ⟨-reach, reach⟩

def saturate (band : Band) (x : Float) : Float :=
  JointGuard.saturate x band.low band.high

/-- The band whose ends pull back towards `target` in proportion to the distance from it, never
by more than `reach`. -/
def pullingBack (gain : Float) (x : Float) (target : Band) (reach : Float) : Band where
  low := (within reach).saturate ((-gain) * (x - target.low))
  high := (within reach).saturate ((-gain) * (x - target.high))

end Band

end JointGuard
