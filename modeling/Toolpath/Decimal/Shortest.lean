import Toolpath.Decimal.Fixed

/-!
The shortest decimal text that reads back as the same number, always positional. The numbers
closer to `x` than to any other number form an interval around `x`. Of the decimal grids `10 ^ k`
the coarsest one with a point inside is taken, and on it the point nearest to `x`.
-/

set_option autoImplicit false
set_option relaxedAutoImplicit false

namespace Toolpath.Decimal

/-- The decimals that round to one number: bounds and value in units of `2 ^ exponent`, the bounds
included for an even mantissa. -/
structure RoundingInterval where
  low : Nat
  value : Nat
  high : Nat
  exponent : Int
  closed : Bool

namespace RoundingInterval

/-- The interval of `mantissa * 2 ^ exponent`. The gap below a power of two is half as wide. -/
def around (mantissa : Nat) (exponent : Int) : RoundingInterval where
  low := if mantissa = Nat.pow 2 52 ∧ -1074 < exponent then 4 * mantissa - 1 else 4 * mantissa - 2
  value := 4 * mantissa
  high := 4 * mantissa + 2
  exponent := exponent - 2
  closed := mantissa % 2 = 0

/-- The point of the grid `10 ^ grid` inside the interval that is nearest to its value, as a
multiple of the grid. -/
def point? (r : RoundingInterval) (grid : Int) : Option Nat :=
  let scale := Nat.pow 2 r.exponent.toNat * Nat.pow 10 (-grid).toNat
  let unit := Nat.pow 2 (-r.exponent).toNat * Nat.pow 10 grid.toNat
  let inside (count : Nat) : Bool :=
    if r.closed then r.low * scale ≤ count * unit && count * unit ≤ r.high * scale
    else r.low * scale < count * unit && count * unit < r.high * scale
  let below := r.value * scale / unit
  let gapBelow := r.value * scale - below * unit
  let gapAbove := (below + 1) * unit - r.value * scale
  let preferAbove : Bool := gapAbove < gapBelow || (gapAbove == gapBelow && below % 2 == 1)
  if inside below && !(preferAbove && inside (below + 1)) then some below
  else if inside (below + 1) then some (below + 1)
  else none

/-- The coarsest of the next `count` grids with a point inside, from `grid` downwards. -/
def coarsest? (r : RoundingInterval) : Nat → Int → Option (Nat × Int)
  | 0, _ => none
  | count + 1, grid =>
    match r.point? grid with
    | some units => some (units, grid)
    | none => coarsest? r count (grid - 1)

end RoundingInterval

/-- No grid above this one has a point inside the interval of `mantissa * 2 ^ exponent`. -/
def topGrid (mantissa : Nat) (exponent : Int) : Int :=
  ((mantissa.log2 + 1 : Nat) + exponent) * 30103 / 100000 + 1

def shortest (x : Float) : String :=
  match Double.parts x with
  | .nan => "NaN"
  | .infinite negative => signed negative "inf"
  | .finite negative 0 _ => signed negative "0"
  | .finite negative mantissa exponent =>
    let top := topGrid mantissa exponent
    match (RoundingInterval.around mantissa exponent).coarsest? 1100 top with
    | some (units, grid) =>
      signed negative (placed (units * Nat.pow 10 grid.toNat) (-grid).toNat)
    | none => signed negative "0"

end Toolpath.Decimal
