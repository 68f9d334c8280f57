/-! # Control periods

The time between two ticks in whole seconds and nanoseconds, and its length in seconds as the
enforcement laws use it. -/

namespace JointGuard

structure Period where
  seconds : UInt64
  nanos : UInt32
  nanos_lt : nanos.toNat < 1000000000

namespace Period

def ofParts? (seconds nanos : Nat) : Option Period :=
  if h : seconds < UInt64.size ∧ nanos < 1000000000 then
    some ⟨UInt64.ofNat seconds, UInt32.ofNat nanos, by
      rw [UInt32.toNat_ofNat']
      exact Nat.lt_of_le_of_lt (Nat.mod_le _ _) h.2⟩
  else none

/-- The whole seconds and the fraction are rounded apart and then added. -/
def inSeconds (period : Period) : Float :=
  period.seconds.toFloat + period.nanos.toFloat / 1e9

end Period

end JointGuard
