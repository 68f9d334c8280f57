import JointGuard.Decimal.Binary64

/-! # The fewest digits that read back

Every decimal between the midpoints to the two neighbouring binary64 numbers rounds to the number
itself; the midpoints do so too when its mantissa is even.  `shortest` searches the grids of
multiples of a power of ten, the coarsest first, and takes the first grid with a point in that
interval.  Only the two grid points around the number can be nearest to it; of two that lie inside,
the nearer is taken, and the upper one on a tie.  All comparisons are between whole numbers. -/

namespace JointGuard.Decimal

/-- The decimals that round to `value / unit` lie between `low / unit` and `high / unit`. -/
structure Basin where
  low : Nat
  value : Nat
  high : Nat
  unit : Nat
  closed : Bool

namespace Basin

/-- The gap below the first number of a binade is half the gap above it. -/
def isNarrowBelow (mantissa : Nat) (exponent : Int) : Bool :=
  mantissa = Binary64.binadeStart && Binary64.leastExponent < exponent

/-- The basin of `mantissa * 2 ^ exponent`, in quarters of the last place. -/
def around (mantissa : Nat) (exponent : Int) : Basin :=
  let scale := 1 <<< exponent.toNat
  let below := if isNarrowBelow mantissa exponent then 1 else 2
  { low := (4 * mantissa - below) * scale
    value := 4 * mantissa * scale
    high := (4 * mantissa + 2) * scale
    unit := 4 <<< (-exponent).toNat
    closed := mantissa % 2 = 0 }

/-- Whether `count * 10 ^ place` lies in the basin. -/
def holds (b : Basin) (count : Nat) (place : Int) : Bool :=
  let point := count * Nat.pow 10 place.toNat * b.unit
  let down := Nat.pow 10 (-place).toNat
  if b.closed then b.low * down ≤ point && point ≤ b.high * down
  else b.low * down < point && point < b.high * down

/-- The greatest `count` with `count * 10 ^ place` at most the value. -/
def floorAt (b : Basin) (place : Int) : Nat :=
  b.value * Nat.pow 10 (-place).toNat / (Nat.pow 10 place.toNat * b.unit)

/-- Whether the value is nearer to `count * 10 ^ place` than to the next grid point. -/
def isNearer (b : Basin) (count : Nat) (place : Int) : Bool :=
  2 * b.value * Nat.pow 10 (-place).toNat < (2 * count + 1) * Nat.pow 10 place.toNat * b.unit

/-- The grid point that stands for the value, if the grid has one in the basin. -/
def pick? (b : Basin) (place : Int) : Option Nat :=
  let count := b.floorAt place
  match b.holds count place, b.holds (count + 1) place with
  | true, true => some (if b.isNearer count place then count else count + 1)
  | true, false => some count
  | false, true => some (count + 1)
  | false, false => none

/-- Searches `steps` grids downwards from `place`. -/
def search (b : Basin) : Nat → Int → Option (Nat × Int)
  | 0, _ => none
  | steps + 1, place =>
    match b.pick? place with
    | some count => some (count, place)
    | none => search b steps (place - 1)

theorem holds_of_pick? {b : Basin} {place : Int} {count : Nat} (h : b.pick? place = some count) :
    b.holds count place := by
  simp only [pick?] at h
  split at h <;> grind

theorem holds_of_search {b : Basin} {steps : Nat} {place : Int} {count : Nat} {found : Int}
    (h : b.search steps place = some (count, found)) : b.holds count found := by
  induction steps generalizing place with
  | zero => simp [search] at h
  | succ steps ih =>
    rw [search] at h
    split at h
    · rename_i hpick
      simp only [Option.some.injEq, Prod.mk.injEq] at h
      obtain ⟨rfl, rfl⟩ := h
      exact holds_of_pick? hpick
    · exact ih h

end Basin

/-- A power of ten that no number below `2 ^ bits` reaches. -/
def topPlace (bits : Int) : Int :=
  if 0 ≤ bits then bits * 30103 / 100000 + 1 else -(-bits * 30102 / 100000)

/-- `mantissa * 2 ^ exponent` in full, as a count of a power of ten. -/
def inFull (mantissa : Nat) (exponent : Int) : Nat × Int :=
  if 0 ≤ exponent then (mantissa <<< exponent.toNat, 0)
  else (mantissa * Nat.pow 5 (-exponent).toNat, exponent)

/-- Seventeen digits always suffice; three more grids cover the slack of `topPlace`. -/
def shortest (mantissa : Nat) (exponent : Int) : Nat × Int :=
  let bits := (mantissa.log2 + 1 : Nat) + exponent
  ((Basin.around mantissa exponent).search 20 (topPlace bits)).getD (inFull mantissa exponent)

end JointGuard.Decimal
